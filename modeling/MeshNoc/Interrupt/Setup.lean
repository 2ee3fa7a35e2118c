import MeshNoc.Interrupt.Arbitration
import MeshNoc.Lib.Accumulate
import MeshNoc.PlatformInit.SystemSetup

/-!
# The interrupt configuration that set-up leaves

`PLIC_setup_bidirectional_interrupts` is three nested loops of register writes. Through
any observation of a register block it is a single accumulation, which gives the enable
matrix, the priorities and the thresholds it leaves in closed form.

A hart has its registers in the block `hartBlock` selects, under its own number as
target. `PlicSystem` is a state of both controllers in which that selection works.

## Main results

* `enabled_plicSetup`, `sprioRegs_plicSetup`, `threshold_plicSetup`, `pending_plicSetup` — from
  any content of the registers
* `enabled_setup`, `priority_setup`, `threshold_setup`, `pending_setup` — from zeroed registers
-/

namespace MeshNoc

open Lib

/-- The block `plic_select` chooses for a hart. -/
def hartBlock (hart : ℕ) : PlicBlock := if hart < 2 then .c0c1 else .nxy

/-! ### Source ids -/

/-- Below the limits of the PLIC the source id is the block of the source hart plus the
type. -/
theorem plicCalculateSourceId_eq {h ty : ℕ} (t : ℕ) (hh : h < 8) (hty : ty < 512) :
    plicCalculateSourceId h t ty = 32 + 32 * h + ty := by
  change (if 1023 < ((32 + h * 32) % 2 ^ 32 + ty % 2 ^ 32) % 2 ^ 32 then 0
    else ((32 + h * 32) % 2 ^ 32 + ty % 2 ^ 32) % 2 ^ 32) = _
  -- no wrap-around: eight blocks of 32 ids and a type below 512 stay below 1023
  split_ifs <;> omega

theorem isSource_of_plicCalculateSourceId_ne_zero {h t ty : ℕ}
    (hne : plicCalculateSourceId h t ty ≠ 0) :
    PlicRegDef.IsSource (plicCalculateSourceId h t ty) := by
  refine ⟨Nat.pos_of_ne_zero hne, ?_⟩
  simp only [plicCalculateSourceId]
  split_ifs <;> omega

theorem lt_of_mem_supportedTypes :
    ∀ ty : ℕ, ty ∈ PlicState.supportedTypes → 20 ≤ ty ∧ ty < 29 := by
  have hall : ∀ ty ∈ PlicState.supportedTypes, 20 ≤ ty ∧ ty < 29 := by decide
  exact hall

theorem isSource_supported {h ty : ℕ} (t : ℕ) (hh : h < 8) (hty : ty ∈ PlicState.supportedTypes) :
    PlicRegDef.IsSource (plicCalculateSourceId h t ty) := by
  have hrange := lt_of_mem_supportedTypes ty hty
  rw [plicCalculateSourceId_eq t hh (by omega)]
  exact ⟨by omega, by omega⟩

namespace PlicRegDef

variable {obj : PlicRegDef} {s s' t t' : ℕ}

/-! ### The configuration writes on what a block represents -/

theorem target_eq_iff (ht : t < 16) (ht' : t' < 16) :
    Fin.ofNat 16 t' = Fin.ofNat 16 t ↔ t' = t := by
  simp [Fin.ext_iff, Nat.mod_eq_of_lt ht, Nat.mod_eq_of_lt ht']

theorem prioIndex_eq_iff (hs : IsSource s) (hs' : IsSource s') :
    prioIndex s' = prioIndex s ↔ s' = s := by
  have := hs.1
  have := hs.2
  have := hs'.1
  have := hs'.2
  simp only [prioIndex, Fin.ext_iff, Fin.val_ofNat]
  omega

/-- Enabling a source for a target changes that one entry of the matrix. -/
theorem enabled_mTarEnable (ht : t < 16) (ht' : t' < 16) (hs : IsSource s)
    (hs' : IsSource s') : (obj.mTarEnable t s).2.enabled t' s' =
      if decide (t' = t) && decide (s' = s) then obj.enabled t' s' || true
      else obj.enabled t' s' := by
  have := hs.1
  have := hs.2
  rw [mTarEnable, if_neg (by omega)]
  unfold enabled
  -- first the row of the target, then the bit of the source in it
  by_cases h : t' = t
  · subst h
    dsimp only
    rw [Function.update_self, WordRow.test_update_or (by decide) _ (capacity hs) (capacity hs')]
    by_cases hsource : s' = s <;> simp [hsource]
  · dsimp only
    rw [Function.update_of_ne (fun heq => h ((target_eq_iff ht ht').mp heq))]
    simp [h]

theorem sprioRegs_mTarEnable : (obj.mTarEnable t s).2.sprioRegs = obj.sprioRegs := by
  unfold mTarEnable
  split_ifs <;> rfl

theorem tpcregs_mTarEnable : (obj.mTarEnable t s).2.tpcregs = obj.tpcregs := by
  unfold mTarEnable
  split_ifs <;> rfl

theorem pendingRegs_mTarEnable : (obj.mTarEnable t s).2.pendingRegs = obj.pendingRegs := by
  unfold mTarEnable
  split_ifs <;> rfl

/-- A priority is ORed into the register of its source. -/
theorem sprioRegs_nPrioritySet (hs : IsSource s) (hs' : IsSource s') (priority : BitVec 8) :
    (obj.nPrioritySet s priority).2.sprioRegs (prioIndex s') =
      if decide (s' = s) then obj.sprioRegs (prioIndex s') ||| priority.setWidth 32
      else obj.sprioRegs (prioIndex s') := by
  have := hs.1
  have := hs.2
  rw [nPrioritySet, if_neg (by omega)]
  by_cases h : s' = s
  · subst h
    simp
  · have hindex := mt (prioIndex_eq_iff hs hs').mp h
    simp [h, Function.update_of_ne hindex]

theorem teregs_nPrioritySet (priority : BitVec 8) :
    (obj.nPrioritySet s priority).2.teregs = obj.teregs := by
  unfold nPrioritySet
  split_ifs <;> rfl

theorem tpcregs_nPrioritySet (priority : BitVec 8) :
    (obj.nPrioritySet s priority).2.tpcregs = obj.tpcregs := by
  unfold nPrioritySet
  split_ifs <;> rfl

theorem pendingRegs_nPrioritySet (priority : BitVec 8) :
    (obj.nPrioritySet s priority).2.pendingRegs = obj.pendingRegs := by
  unfold nPrioritySet
  split_ifs <;> rfl

/-- A threshold write sets the threshold of its target. -/
theorem threshold_mTarThreWrite (ht : t < 8) (ht' : t' < 16) (thres : BitVec 32) :
    (obj.mTarThreWrite (BitVec.ofNat 8 t) thres).2.threshold t' =
      if decide (t' = t) then (thres &&& 0x0000FFFF).toNat else obj.threshold t' := by
  -- the target passes through a `uint8_t`
  have hval : (BitVec.ofNat 8 t).toNat = t := by
    rw [BitVec.toNat_ofNat]
    exact Nat.mod_eq_of_lt (by omega)
  rw [mTarThreWrite, hval, if_neg (by omega)]
  unfold threshold
  by_cases h : t' = t
  · subst h
    simp [BitVec.and_assoc]
  · dsimp only
    rw [Function.update_of_ne (fun heq => h ((target_eq_iff (by omega) ht').mp heq))]
    simp [h]

theorem sprioRegs_mTarThreWrite (tar : BitVec 8) (thres : BitVec 32) :
    (obj.mTarThreWrite tar thres).2.sprioRegs = obj.sprioRegs := by
  unfold mTarThreWrite
  split_ifs <;> rfl

theorem teregs_mTarThreWrite (tar : BitVec 8) (thres : BitVec 32) :
    (obj.mTarThreWrite tar thres).2.teregs = obj.teregs := by
  unfold mTarThreWrite
  split_ifs <;> rfl

theorem pendingRegs_mTarThreWrite (tar : BitVec 8) (thres : BitVec 32) :
    (obj.mTarThreWrite tar thres).2.pendingRegs = obj.pendingRegs := by
  unfold mTarThreWrite
  split_ifs <;> rfl

end PlicRegDef

/-! ### The loops -/

namespace PlicState

/-- The table of instances is the one set-up leaves. -/
def Selected (st : PlicState) : Prop := st.plicInst = plicInstAfterSetup

theorem plicSelect_eq {st : PlicState} (selected : st.Selected) {hart : ℕ} (hh : hart < 8) :
    st.plicSelect hart = (some (hartBlock hart), hart) := by
  rw [plicSelect, if_pos hh, selected, hartBlock]
  by_cases h : hart < 2 <;> simp [h, plicInstAfterSetup]

/-- Some iteration of the loops on block `b` hits. -/
def setupHits (b : PlicBlock) (hitEnable hitPriority : ℕ → ℕ → IrqSourceId → Bool)
    (hitThreshold : ℕ → Bool) : Bool :=
  (List.range nrHarts).any fun t => (decide (hartBlock t = b) && hitThreshold t) ||
    (List.range nrHarts).any fun h => if h = t then false else
      supportedTypes.any fun ty =>
        (decide (hartBlock t = b) && hitEnable t h ty) ||
          (decide (hartBlock t = b) && hitPriority t h ty)

/-- What the register functions of the set-up do to an observation: the calls that hit it
combine it with `v`, the others leave it. -/
structure SetupEffects {β : Type*} (op : β → β → β) (φ : PlicRegDef → β) (v : β)
    (hitEnable hitPriority : ℕ → ℕ → IrqSourceId → Bool) (hitThreshold : ℕ → Bool) : Prop where
  enable : ∀ t < 8, ∀ h < 8, ∀ ty ∈ supportedTypes, ∀ obj : PlicRegDef,
    φ (obj.mTarEnable t (plicCalculateSourceId h t ty)).2 =
      if hitEnable t h ty then op (φ obj) v else φ obj
  priority : ∀ t < 8, ∀ h < 8, ∀ ty ∈ supportedTypes, ∀ obj : PlicRegDef,
    φ (obj.nPrioritySet (plicCalculateSourceId h t ty) ((setupPriority ty).setWidth 8)).2 =
      if hitPriority t h ty then op (φ obj) v else φ obj
  threshold : ∀ t < 8, ∀ obj : PlicRegDef,
    φ (obj.mTarThreWrite (BitVec.ofNat 8 t) 1).2 =
      if hitThreshold t then op (φ obj) v else φ obj

section Accumulation

variable {β : Type*} {op : β → β → β} [Std.Associative op] [Std.IdempotentOp op]
  {φ : PlicRegDef → β} {v : β} {b : PlicBlock}

omit [Std.Associative op] [Std.IdempotentOp op] in
/-- A register function applied to the block of a hart, seen through one block. -/
theorem accumulates_write {t : ℕ} (ht : t < 8) {hit : Bool} {f : PlicRegDef → ℤ × PlicRegDef}
    (effect : ∀ obj, φ (f obj).2 = if hit then op (φ obj) v else φ obj) :
    Accumulates Selected (fun st => φ (st.regs b)) op v (decide (hartBlock t = b) && hit)
      fun st => st.write (st.plicSelect t).1 f := by
  intro st selected
  simp only [plicSelect_eq selected ht]
  refine ⟨selected, ?_⟩
  by_cases h : hartBlock t = b
  · subst h
    simp [write, effect]
  · simp [write, h, Function.update_of_ne (Ne.symm h)]

variable (b) in
/-- What the loops do to an observation of one block: it is hit when any iteration on that
block hits it. -/
theorem accumulates_setup {hitEnable hitPriority : ℕ → ℕ → IrqSourceId → Bool}
    {hitThreshold : ℕ → Bool}
    (effects : SetupEffects op φ v hitEnable hitPriority hitThreshold) :
    Accumulates Selected (fun st => φ (st.regs b)) op v
      (setupHits b hitEnable hitPriority hitThreshold) plicSetupBidirectionalInterrupts := by
  -- over the targets, then the sources, then the types, as the code nests them
  refine Accumulates.foldl fun t ht => ?_
  have ht : t < 8 := List.mem_range.mp ht
  have hlocal : ∀ st : PlicState, (st.plicSelect t).2 = t := by
    intro st
    rw [plicSelect, if_pos ht]
  refine Accumulates.comp ?_ (Accumulates.foldl fun h hh => ?_)
  · simp only [plicSetThreshold, hlocal]
    exact accumulates_write ht (effects.threshold t ht)
  refine Accumulates.ite (fun _ => Accumulates.id) fun _ => Accumulates.foldl fun ty hty => ?_
  have hh : h < 8 := List.mem_range.mp hh
  have hpos : 0 < plicCalculateSourceId h t ty := (isSource_supported t hh hty).1
  simp only [setupType, if_pos hpos, plicEnableInterrupt, plicSetPriority, hlocal]
  exact Accumulates.comp (accumulates_write ht (effects.enable t ht h hh ty hty))
    (accumulates_write ht (effects.priority t ht h hh ty hty))

end Accumulation

theorem setupHits_iff {b : PlicBlock} {hitEnable hitPriority : ℕ → ℕ → IrqSourceId → Bool}
    {hitThreshold : ℕ → Bool} :
    setupHits b hitEnable hitPriority hitThreshold = true ↔
      ∃ t < 8, hartBlock t = b ∧ (hitThreshold t = true ∨ ∃ h < 8, h ≠ t ∧
        ∃ ty ∈ supportedTypes, hitEnable t h ty = true ∨ hitPriority t h ty = true) := by
  simp only [setupHits, List.any_eq_true, List.mem_range, nrHarts, Bool.or_eq_true,
    Bool.and_eq_true, decide_eq_true_eq]
  constructor
  · rintro ⟨t, ht, ⟨hb, hthres⟩ | ⟨h, hh, hany⟩⟩
    · exact ⟨t, ht, hb, Or.inl hthres⟩
    · split_ifs at hany with hself
      obtain ⟨ty, hty, hit⟩ := List.any_eq_true.mp hany
      simp only [Bool.or_eq_true, Bool.and_eq_true, decide_eq_true_eq] at hit
      rcases hit with ⟨hb, hit⟩ | ⟨hb, hit⟩
      · exact ⟨t, ht, hb, Or.inr ⟨h, hh, hself, ty, hty, Or.inl hit⟩⟩
      · exact ⟨t, ht, hb, Or.inr ⟨h, hh, hself, ty, hty, Or.inr hit⟩⟩
  · rintro ⟨t, ht, hb, hthres | ⟨h, hh, hself, ty, hty, hit⟩⟩
    · exact ⟨t, ht, Or.inl ⟨hb, hthres⟩⟩
    · refine ⟨t, ht, Or.inr ⟨h, hh, ?_⟩⟩
      rw [if_neg hself]
      refine List.any_eq_true.mpr ⟨ty, hty, ?_⟩
      simp only [Bool.or_eq_true, Bool.and_eq_true, decide_eq_true_eq]
      exact hit.imp (fun hit => ⟨hb, hit⟩) fun hit => ⟨hb, hit⟩

end PlicState

/-! ### The configuration -/

section Configuration

open PlicState PlicRegDef

variable {β : Type*} {st : PlicState} {b : PlicBlock} {h t s ty : ℕ}

theorem selected_plicSetup (selected : st.Selected) :
    (plicSetupBidirectionalInterrupts st).Selected := by
  have heffects : SetupEffects or (fun _ => false) true (fun _ _ _ => false) (fun _ _ _ => false)
      fun _ => false :=
    ⟨fun _ _ _ _ _ _ _ => rfl, fun _ _ _ _ _ _ _ => rfl, fun _ _ _ => rfl⟩
  exact (accumulates_setup .c0c1 heffects st selected).1

/-- The state set-up starts from: zeroed registers behind the instance table. -/
private theorem selected_zeroed : Selected { plicInst := plicInstAfterSetup } := rfl

theorem selected_plicAfterSetup : plicAfterSetup.Selected := selected_plicSetup selected_zeroed

/-- An observation of the block that set-up leaves. -/
private theorem observe_setup (selected : st.Selected) (b : PlicBlock) {op : β → β → β}
    [Std.Associative op] [Std.IdempotentOp op] {φ : PlicRegDef → β} {v : β}
    {hitEnable hitPriority : ℕ → ℕ → IrqSourceId → Bool} {hitThreshold : ℕ → Bool}
    (effects : SetupEffects op φ v hitEnable hitPriority hitThreshold) :
    φ ((plicSetupBidirectionalInterrupts st).regs b) =
      if setupHits b hitEnable hitPriority hitThreshold then op (φ (st.regs b)) v
      else φ (st.regs b) :=
  (accumulates_setup b effects st selected).2

/-- Set-up enables, for a target, the sources of all other harts, for every supported type,
in the block of the hart with its number. -/
theorem enabled_plicSetup (selected : st.Selected) (ht : t < 16) (hs : IsSource s) :
    ((plicSetupBidirectionalInterrupts st).regs b).enabled t s = true ↔
      (st.regs b).enabled t s = true ∨ (t < 8 ∧ hartBlock t = b ∧ ∃ h < 8, h ≠ t ∧
        ∃ ty ∈ supportedTypes, plicCalculateSourceId h t ty = s) := by
  -- seen through one entry of the matrix, only the enable calls matter
  have heffects : SetupEffects or (fun obj => obj.enabled t s) true
      (fun t' h ty => decide (t = t') && decide (s = plicCalculateSourceId h t' ty))
      (fun _ _ _ => false) fun _ => false :=
    { enable := fun t' ht' h hh ty hty _ =>
        enabled_mTarEnable (by omega) ht (isSource_supported t' hh hty) hs
      priority := fun _ _ _ _ _ _ _ => by simp [enabled, teregs_nPrioritySet]
      threshold := fun _ _ _ => by simp [enabled, teregs_mTarThreWrite] }
  have hobs := observe_setup selected b heffects
  have hhit : setupHits b
      (fun t' h ty => decide (t = t') && decide (s = plicCalculateSourceId h t' ty))
      (fun _ _ _ => false) (fun _ => false) = true ↔
        t < 8 ∧ hartBlock t = b ∧ ∃ h < 8, h ≠ t ∧
          ∃ ty ∈ supportedTypes, plicCalculateSourceId h t ty = s := by
    simp only [setupHits_iff, Bool.false_eq_true, false_or, or_false, Bool.and_eq_true,
      decide_eq_true_eq]
    constructor
    · rintro ⟨t', ht', hb, h, hh, hne, ty, hty, rfl, heq⟩
      exact ⟨ht', hb, h, hh, hne, ty, hty, heq.symm⟩
    · rintro ⟨ht', hb, h, hh, hne, ty, hty, heq⟩
      exact ⟨t, ht', hb, h, hh, hne, ty, hty, rfl, heq.symm⟩
  rw [hobs, ← hhit]
  split_ifs with hits <;> simp [hits]

/-- A target has the sources of all other harts enabled, for every supported type, in
the block of the hart with its number. -/
theorem enabled_setup (ht : t < 16) (hs : IsSource s) :
    (plicAfterSetup.regs b).enabled t s = true ↔
      t < 8 ∧ hartBlock t = b ∧ ∃ h < 8, h ≠ t ∧ ∃ ty ∈ supportedTypes,
        plicCalculateSourceId h t ty = s := by
  have hstart : PlicRegDef.enabled {} t s = false := WordRow.test_zero s
  rw [plicAfterSetup, enabled_plicSetup selected_zeroed ht hs, hstart]
  simp only [Bool.false_eq_true, false_or]

/-- Targets of harts get threshold `1`. -/
theorem threshold_plicSetup (selected : st.Selected) (ht : t < 8) :
    ((plicSetupBidirectionalInterrupts st).regs (hartBlock t)).threshold t = 1 := by
  have : Std.Associative fun _ v : ℕ => v := ⟨fun _ _ _ => rfl⟩
  have : Std.IdempotentOp fun _ v : ℕ => v := ⟨fun _ => rfl⟩
  -- the last write counts, and all writes are the same
  have heffects : SetupEffects (fun _ v => v) (fun obj => obj.threshold t) 1
      (fun _ _ _ => false) (fun _ _ _ => false) fun t' => decide (t = t') :=
    { enable := fun _ _ _ _ _ _ _ => by simp [threshold, tpcregs_mTarEnable]
      priority := fun _ _ _ _ _ _ _ => by simp [threshold, tpcregs_nPrioritySet]
      threshold := fun t' ht' _ => threshold_mTarThreWrite ht' (by omega) 1 }
  have hobs := observe_setup selected (hartBlock t) heffects
  rw [hobs, if_pos]
  exact setupHits_iff.mpr ⟨t, ht, rfl, Or.inl (decide_eq_true rfl)⟩

/-- Targets of harts have threshold `1`. -/
theorem threshold_setup (ht : t < 8) : (plicAfterSetup.regs (hartBlock t)).threshold t = 1 := by
  rw [plicAfterSetup, threshold_plicSetup selected_zeroed ht]

/-- No priority of the set-up is cut by the narrower types it passes through. -/
private theorem setupPriority_narrow : ∀ ty ∈ supportedTypes,
    ((setupPriority ty).setWidth 8).setWidth 32 = setupPriority ty ∧
      (0 ||| setupPriority ty) &&& 0xFF = setupPriority ty := by
  decide

/-- Set-up ORs the priority of its type into the register of a source from another hart. -/
theorem sprioRegs_plicSetup (selected : st.Selected) (hh : h < 8) (ht : t < 8) (hne : h ≠ t)
    (hty : ty ∈ supportedTypes) :
    ((plicSetupBidirectionalInterrupts st).regs (hartBlock t)).sprioRegs
        (prioIndex (plicCalculateSourceId h t ty)) =
      (st.regs (hartBlock t)).sprioRegs (prioIndex (plicCalculateSourceId h t ty)) |||
        setupPriority ty := by
  have hs := isSource_supported t hh hty
  have hrange := lt_of_mem_supportedTypes ty hty
  have effect : ∀ t' < 8, ∀ h' < 8, ∀ ty' ∈ supportedTypes, ∀ obj : PlicRegDef,
      (obj.nPrioritySet (plicCalculateSourceId h' t' ty')
          ((setupPriority ty').setWidth 8)).2.sprioRegs
          (prioIndex (plicCalculateSourceId h t ty)) =
        if decide (plicCalculateSourceId h t ty = plicCalculateSourceId h' t' ty') then
          obj.sprioRegs (prioIndex (plicCalculateSourceId h t ty)) ||| setupPriority ty
        else obj.sprioRegs (prioIndex (plicCalculateSourceId h t ty)) := by
    intro t' ht' h' hh' ty' hty' obj
    have hrange' := lt_of_mem_supportedTypes ty' hty'
    rw [sprioRegs_nPrioritySet (isSource_supported t' hh' hty') hs,
      (setupPriority_narrow ty' hty').1]
    by_cases hsame : plicCalculateSourceId h t ty = plicCalculateSourceId h' t' ty'
    · -- the types of the eight harts fall into disjoint ranges of 32 ids
      have htype : ty = ty' := by
        rw [plicCalculateSourceId_eq t hh (by omega),
          plicCalculateSourceId_eq t' hh' (by omega)] at hsame
        omega
      rw [htype]
    · simp [hsame]
  -- priorities accumulate by OR, and each source gets one value only
  have heffects : SetupEffects (fun p q : BitVec 32 => p ||| q)
      (fun obj => obj.sprioRegs (prioIndex (plicCalculateSourceId h t ty))) (setupPriority ty)
      (fun _ _ _ => false)
      (fun t' h' ty' => decide (plicCalculateSourceId h t ty = plicCalculateSourceId h' t' ty'))
      fun _ => false :=
    { enable := fun _ _ _ _ _ _ _ => by simp [sprioRegs_mTarEnable]
      priority := effect
      threshold := fun _ _ _ => by simp [sprioRegs_mTarThreWrite] }
  have hobs := observe_setup selected (hartBlock t) heffects
  rw [if_pos (setupHits_iff.mpr
    ⟨t, ht, rfl, Or.inr ⟨h, hh, hne, ty, hty, Or.inr (decide_eq_true rfl)⟩⟩)] at hobs
  exact hobs

/-- The source of a supported type from another hart has the priority of its type. -/
theorem priority_setup (hh : h < 8) (ht : t < 8) (hne : h ≠ t) (hty : ty ∈ supportedTypes) :
    (plicAfterSetup.regs (hartBlock t)).priority (plicCalculateSourceId h t ty) =
      (setupPriority ty).toNat := by
  unfold priority plicAfterSetup
  rw [sprioRegs_plicSetup selected_zeroed hh ht hne hty]
  exact congrArg BitVec.toNat (setupPriority_narrow ty hty).2

/-- Set-up makes no source pending and drops none. -/
theorem pending_plicSetup (selected : st.Selected) :
    ((plicSetupBidirectionalInterrupts st).regs b).pending s = (st.regs b).pending s := by
  have heffects : SetupEffects or (fun obj => obj.pending s) true
      (fun _ _ _ => false) (fun _ _ _ => false) fun _ => false :=
    { enable := fun _ _ _ _ _ _ _ => by simp [pending, pendingRegs_mTarEnable]
      priority := fun _ _ _ _ _ _ _ => by simp [pending, pendingRegs_nPrioritySet]
      threshold := fun _ _ _ => by simp [pending, pendingRegs_mTarThreWrite] }
  have hobs := observe_setup selected b heffects
  have hmiss : setupHits b (fun _ _ _ => false) (fun _ _ _ => false) (fun _ => false) = false := by
    rw [Bool.eq_false_iff, ne_eq, setupHits_iff]
    simp
  rw [hobs, hmiss]
  rfl

/-- No source is pending. -/
theorem pending_setup : (plicAfterSetup.regs b).pending s = false := by
  rw [plicAfterSetup, pending_plicSetup selected_zeroed]
  exact WordRow.test_zero s

end Configuration

end MeshNoc
