import MeshNoc.Interrupt.Setup
import MeshNoc.Lib.LastWrite

/-!
# Enable and feature bits as switches

The enable bit of a source for a target, and each bit of the feature register, is set and
cleared by calls addressed to it. A set ORs the mask of the bit into its register and keeps
the neighbours. A clear ANDs the register with the negation `!mask`, which is zero for every
mask, so that it clears the neighbours too.

In a run whose clears all find their neighbours clear the bits are independent switches, and
in no other run.

## Main results

* `isOn_exec` — what one call does to every switch
* `switchesIndependent_iff` — the runs in which the switches are independent
-/

namespace MeshNoc

open Lib

/-- No bit of a word survives the negation of a mask. -/
theorem and_logicalNot {mask : BitVec 32} (hmask : mask ≠ 0) (word : BitVec 32) :
    word &&& logicalNot mask = 0#32 := by
  rw [logicalNot, if_neg hmask]
  exact BitVec.and_zero

namespace PlicRegDef

variable {obj : PlicRegDef} {s s' t t' : ℕ}

/-! ### The bits -/

theorem mTarRead_ne_zero_iff (ht : t ≤ 15) (hs : IsSource s) :
    obj.mTarRead t s ≠ 0 ↔ obj.enabled t s = true := by
  have := hs.1
  have := hs.2
  have hword : obj.teregs (Fin.ofNat 16 t) (sourceIndex s) &&& sourceMask s = 0 ↔
      obj.enabled t s = false := WordRow.and_mask_eq_zero_iff (by decide) _
  rw [mTarRead, if_neg (by omega), ne_eq, ← BitVec.toInt_zero (w := 32), BitVec.toInt_inj,
    ← Bool.not_eq_false]
  exact not_congr hword

theorem sourceMask_ne_zero (s : ℕ) : sourceMask s ≠ 0 := by
  intro hzero
  have hbit := getLsbD_sourceMask s (s % 32)
  rw [hzero] at hbit
  simp at hbit

/-- Disabling a source for a target disables every source of its word. -/
theorem enabled_mTarDisable (ht : t < 16) (ht' : t' < 16) (hs : IsSource s)
    (hs' : IsSource s') : (obj.mTarDisable t s).2.enabled t' s' =
      if t' = t ∧ s' / 32 = s / 32 then false else obj.enabled t' s' := by
  have := hs.1
  have := hs.2
  rw [mTarDisable, if_neg (by omega)]
  unfold enabled
  dsimp only
  rw [and_logicalNot (sourceMask_ne_zero s)]
  -- first the row of the target, then the word of the source in it
  by_cases h : t' = t
  · subst h
    rw [Function.update_self]
    by_cases hword : s' / 32 = s / 32
    · rw [if_pos ⟨rfl, hword⟩]
      exact (WordRow.test_update_of_div_eq _ _ (capacity hs) (capacity hs') hword).trans
        (by simp)
    · rw [if_neg (by simp [hword])]
      exact WordRow.test_update_of_div_ne _ _ (capacity hs) (capacity hs') hword
  · rw [Function.update_of_ne (fun heq => h ((target_eq_iff ht ht').mp heq)), if_neg (by simp [h])]

theorem getLsbD_featureMask (type : PlicFeatureType) (bit : Fin 32) :
    (0x1#32 <<< type.code.val).getLsbD bit = decide (type.code = bit) := by
  rw [← BitVec.twoPow_eq, BitVec.getLsbD_twoPow, decide_eq_true type.code.isLt, Bool.true_and]
  exact decide_eq_decide.mpr Fin.ext_iff.symm

theorem featureMask_ne_zero (type : PlicFeatureType) : 0x1#32 <<< type.code.val ≠ 0 := by
  cases type <;> decide

/-! ### The switches and the calls addressed to them -/

/-- A bit of a register block that is set and cleared by calls of its own. -/
inductive Switch
  | enable (target : Fin 16) (source : {s // IsSource s})
  | feature (bit : Fin 32)
  deriving DecidableEq

/-- Two switches are bits of one register. -/
def Switch.SharesRegister : Switch → Switch → Prop
  | enable t s, enable t' s' => t' = t ∧ s'.val / 32 = s.val / 32
  | feature _, feature _ => True
  | _, _ => False

instance (sw sw' : Switch) : Decidable (sw.SharesRegister sw') :=
  match sw, sw' with
  | .enable t s, .enable t' s' => inferInstanceAs (Decidable (t' = t ∧ s'.val / 32 = s.val / 32))
  | .feature _, .feature _ => isTrue trivial
  | .enable _ _, .feature _ => isFalse id
  | .feature _, .enable _ _ => isFalse id

/-- The state of a switch; an enable bit is read by `PLIC_M_TAR_read`. -/
def isOn (obj : PlicRegDef) : Switch → Bool
  | .enable target source => decide (obj.mTarRead target source ≠ 0)
  | .feature bit => obj.featureEnableReg.getLsbD bit

/-- A call that sets or clears a switch. -/
inductive SwitchOp
  | mTarEnable (target : Fin 16) (source : {s // IsSource s})
  | mTarDisable (target : Fin 16) (source : {s // IsSource s})
  | featureSet (type : PlicFeatureType)
  | featureClear (type : PlicFeatureType)

namespace SwitchOp

/-- The switch a call is addressed to. -/
def switch : SwitchOp → Switch
  | mTarEnable target source => .enable target source
  | mTarDisable target source => .enable target source
  | featureSet type => .feature type.code
  | featureClear type => .feature type.code

/-- The state a call is to leave its switch in. -/
def sets : SwitchOp → Bool
  | mTarEnable _ _ => true
  | mTarDisable _ _ => false
  | featureSet _ => true
  | featureClear _ => false

/-- The call. -/
def exec (obj : PlicRegDef) : SwitchOp → PlicRegDef
  | mTarEnable target source => (obj.mTarEnable target source).2
  | mTarDisable target source => (obj.mTarDisable target source).2
  | featureSet type => obj.featureSet type
  | featureClear type => obj.featureClear type

end SwitchOp

theorem isOn_enable (target : Fin 16) (source : {s // IsSource s}) :
    obj.isOn (.enable target source) = obj.enabled target source := by
  rw [isOn, Bool.eq_iff_iff, decide_eq_true_eq]
  exact mTarRead_ne_zero_iff (by omega) source.property

/-- A call leaves its switch as it is to, and a clearing call leaves every switch that
shares the register off. -/
theorem isOn_exec (op : SwitchOp) (sw : Switch) : (op.exec obj).isOn sw =
    if op.switch = sw then op.sets
    else if op.sets = false ∧ op.switch.SharesRegister sw then false else obj.isOn sw := by
  cases op with
  | mTarEnable t s =>
    cases sw with
    | enable t' s' =>
      have hself : t = t' ∧ s = s' ↔ t'.val = t.val ∧ s'.val = s.val := by
        rw [Fin.ext_iff, Subtype.ext_iff, eq_comm, @eq_comm _ s.val]
      simp only [isOn_enable, SwitchOp.exec, SwitchOp.switch, SwitchOp.sets, Switch.enable.injEq,
        Bool.true_eq_false, false_and, if_false,
        enabled_mTarEnable t.isLt t'.isLt s.property s'.property, if_congr hself rfl rfl]
      simp
    | feature bit =>
      have hkeep : (obj.mTarEnable t s).2.featureEnableReg = obj.featureEnableReg := by
        unfold mTarEnable
        split_ifs <;> rfl
      simp [isOn, SwitchOp.exec, SwitchOp.switch, SwitchOp.sets, hkeep]
  | mTarDisable t s =>
    cases sw with
    | enable t' s' =>
      simp only [isOn_enable, SwitchOp.exec, SwitchOp.switch, SwitchOp.sets, Switch.enable.injEq,
        true_and, Switch.SharesRegister,
        enabled_mTarDisable t.isLt t'.isLt s.property s'.property, ← Fin.ext_iff]
      -- the switch itself shares its register too
      by_cases hself : t = t' ∧ s = s'
      · simp [hself.1, hself.2]
      · rw [if_neg hself]
    | feature bit =>
      have hkeep : (obj.mTarDisable t s).2.featureEnableReg = obj.featureEnableReg := by
        unfold mTarDisable
        split_ifs <;> rfl
      simp [isOn, SwitchOp.exec, SwitchOp.switch, SwitchOp.sets, hkeep, Switch.SharesRegister]
  | featureSet type =>
    cases sw with
    | enable t' s' => simp [isOn_enable, SwitchOp.exec, SwitchOp.switch, SwitchOp.sets, featureSet,
        enabled]
    | feature bit =>
      simp only [isOn, SwitchOp.exec, featureSet, BitVec.getLsbD_or, getLsbD_featureMask,
        SwitchOp.switch, SwitchOp.sets, Switch.feature.injEq]
      by_cases hbit : type.code = bit <;> simp [hbit]
  | featureClear type =>
    cases sw with
    | enable t' s' => simp [isOn_enable, SwitchOp.exec, SwitchOp.switch, SwitchOp.sets,
        featureClear, enabled, Switch.SharesRegister]
    | feature bit =>
      simp only [isOn, SwitchOp.exec, featureClear, and_logicalNot (featureMask_ne_zero type),
        BitVec.getLsbD_zero, SwitchOp.switch, SwitchOp.sets, Switch.SharesRegister, and_self,
        if_true, ite_self]

/-! ### Runs -/

/-- In a run of calls from `obj` every switch ends as the last call addressed to it is to
leave it, or as it was, and no call changes another switch than its own. -/
structure SwitchesIndependent (obj : PlicRegDef) (ops : List SwitchOp) : Prop where
  last : ∀ sw, (ops.foldl SwitchOp.exec obj).isOn sw =
    (lastWrite SwitchOp.switch SwitchOp.sets ops sw).getD (obj.isOn sw)
  frame : ∀ earlier op, earlier ++ [op] <+: ops → ∀ sw, sw ≠ op.switch →
    (op.exec (earlier.foldl SwitchOp.exec obj)).isOn sw =
      (earlier.foldl SwitchOp.exec obj).isOn sw

/-- Every clearing call of the run finds the switches that share its register off. -/
def ClearsAlone (obj : PlicRegDef) (ops : List SwitchOp) : Prop :=
  ∀ earlier op, earlier ++ [op] <+: ops → op.sets = false →
    ∀ sw, sw ≠ op.switch → op.switch.SharesRegister sw →
      (earlier.foldl SwitchOp.exec obj).isOn sw = false

theorem isOn_exec_switch (op : SwitchOp) : (op.exec obj).isOn op.switch = op.sets := by
  rw [isOn_exec, if_pos rfl]

/-- A call keeps another switch unless it clears a register in which that switch is on. -/
theorem isOn_exec_eq_iff (op : SwitchOp) {sw : Switch} (hne : sw ≠ op.switch) :
    (op.exec obj).isOn sw = obj.isOn sw ↔
      (op.sets = false → op.switch.SharesRegister sw → obj.isOn sw = false) := by
  rw [isOn_exec, if_neg hne.symm]
  split_ifs with hclear
  · exact ⟨fun h _ _ => h.symm, fun h => (h hclear.1 hclear.2).symm⟩
  · exact ⟨fun _ h h' => absurd ⟨h, h'⟩ hclear, fun _ => rfl⟩

/-- The switches are independent in exactly those runs whose clears find the other switches of
their registers off. -/
theorem switchesIndependent_iff (obj : PlicRegDef) (ops : List SwitchOp) :
    obj.SwitchesIndependent ops ↔ obj.ClearsAlone ops := by
  constructor
  · intro independent earlier op hprefix hclear sw hne hshare
    exact (isOn_exec_eq_iff op hne).mp (independent.frame earlier op hprefix sw hne) hclear hshare
  · intro alone
    have frame : ∀ earlier op, earlier ++ [op] <+: ops → ∀ sw, sw ≠ op.switch →
        (op.exec (earlier.foldl SwitchOp.exec obj)).isOn sw =
          (earlier.foldl SwitchOp.exec obj).isOn sw :=
      fun earlier op hprefix sw hne => (isOn_exec_eq_iff op hne).mpr
        fun hclear => alone earlier op hprefix hclear sw hne
    have own : ∀ earlier op, earlier ++ [op] <+: ops →
        (op.exec (earlier.foldl SwitchOp.exec obj)).isOn op.switch = op.sets :=
      fun _ op _ => isOn_exec_switch op
    exact ⟨read_foldl own frame, frame⟩

/-- Disabling source 54 for a target also disables source 52, of the same word. -/
theorem switches_not_independent : ¬ ∀ obj ops, SwitchesIndependent obj ops := by
  intro independent
  have hframe := (independent {} [.mTarEnable 1 ⟨52, by decide⟩, .mTarEnable 1 ⟨54, by decide⟩,
    .mTarDisable 1 ⟨54, by decide⟩]).frame [.mTarEnable 1 ⟨52, by decide⟩,
      .mTarEnable 1 ⟨54, by decide⟩] (.mTarDisable 1 ⟨54, by decide⟩) (List.prefix_refl _)
    (.enable 1 ⟨52, by decide⟩) (by decide)
  exact absurd hframe (by decide)

end PlicRegDef

end MeshNoc
