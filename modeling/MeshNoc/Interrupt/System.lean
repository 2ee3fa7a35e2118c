import MeshNoc.Interrupt.Setup
import MeshNoc.Lib.Transducer

/-!
# Runs of the interrupt controllers

A `PlicSystem` is a state of both register blocks together with the instance table that
set-up leaves, so that every hart has its block. Its operations are the calls the harts
make: triggers, claims and completions. Each is described by what it does to the pending
sources of each block, and a pending source is a flag of the runs: accepted triggers put
it, claims that return it take it.

## Main results

* `trigger_of_accepts`, `trigger_of_not_accepts` — when a trigger is accepted, and what
  it then does
* `pendingFlag` — the pending bit of a source as a flag of the runs
* `platformSetup_plic` — set-up leaves the system `setupSystem`
-/

namespace MeshNoc

open Lib PlicRegDef

/-- Both controllers, with the instance table that set-up leaves. -/
structure PlicSystem extends PlicState where
  selected : toPlicState.Selected

theorem PlicSystem.eq_of_toPlicState {sys sys' : PlicSystem}
    (h : sys.toPlicState = sys'.toPlicState) : sys = sys' := by
  cases sys
  cases sys'
  exact (PlicSystem.mk.injEq ..).mpr h

/-- `PLIC_trigger_typed_interrupt` accepts these arguments. -/
def Accepts (sourceHart targetHart : ℕ) (irqType : IrqSourceId) : Prop :=
  sourceHart < nrHarts ∧ targetHart < nrHarts ∧ sourceHart ≠ targetHart ∧
    plicCalculateSourceId sourceHart targetHart irqType ≠ 0

instance (h t ty : ℕ) : Decidable (Accepts h t ty) :=
  inferInstanceAs (Decidable (_ ∧ _ ∧ _ ∧ _))

namespace PlicState

variable {st : PlicState} {h t : ℕ} {ty : IrqSourceId}

/-- An accepted trigger writes the pending bit of its source id in the block of the
target hart. -/
theorem plicTriggerTypedInterrupt_of_accepts (selected : st.Selected) (accepts : Accepts h t ty) :
    st.plicTriggerTypedInterrupt h t ty = (1, { st with
      regs := Function.update st.regs (hartBlock t)
        ((st.regs (hartBlock t)).nSourcePendingWrite (plicCalculateSourceId h t ty)).2 }) := by
  obtain ⟨hh, ht, hne, hid⟩ := accepts
  have hrange : ¬ (nrHarts ≤ h ∨ nrHarts ≤ t) := by omega
  -- the search over the first instance finds it for every target
  have hfind : ([(0 : Fin 3)].find? fun i =>
      plicTargetBase i ≤ t ∧ t < plicTargetBase i + plicTargetCount i) = some 0 := by
    have ht' : t < 8 := ht
    simp [plicTargetBase, plicTargetCount, ht']
  have hresult : ((st.regs (hartBlock t)).nSourcePendingWrite _).1 = 1 :=
    nSourcePendingWrite_fst (isSource_of_plicCalculateSourceId_ne_zero hid)
  rw [plicTriggerTypedInterrupt, if_neg hrange, if_neg hne]
  simp only [if_neg hid, hfind, plicSelect_eq selected ht, hresult]

/-- A rejected trigger writes nothing and says so. -/
theorem plicTriggerTypedInterrupt_of_not_accepts (rejects : ¬ Accepts h t ty) :
    (st.plicTriggerTypedInterrupt h t ty).1 < 0 ∧
      (st.plicTriggerTypedInterrupt h t ty).2 = st := by
  rw [plicTriggerTypedInterrupt]
  by_cases hrange : nrHarts ≤ h ∨ nrHarts ≤ t
  · simp [hrange]
  by_cases hne : h = t
  · subst hne
    rw [if_neg hrange, if_pos rfl]
    exact ⟨Int.negSucc_lt_zero 1, rfl⟩
  -- with valid and different harts only the id can be refused
  have hid : plicCalculateSourceId h t ty = 0 := by
    by_contra hid
    exact rejects ⟨by omega, by omega, hne, hid⟩
  rw [if_neg hrange, if_neg hne]
  simp only [if_pos hid]
  exact ⟨Int.negSucc_lt_zero 2, trivial⟩

theorem selected_plicTriggerTypedInterrupt (selected : st.Selected) :
    (st.plicTriggerTypedInterrupt h t ty).2.Selected := by
  by_cases accepts : Accepts h t ty
  · rw [plicTriggerTypedInterrupt_of_accepts selected accepts]
    exact selected
  · rw [(plicTriggerTypedInterrupt_of_not_accepts accepts).2]
    exact selected

end PlicState

namespace PlicSystem

/-- Replace one register block. -/
def setBlock (sys : PlicSystem) (b : PlicBlock) (obj : PlicRegDef) : PlicSystem where
  regs := Function.update sys.regs b obj
  plicInst := sys.plicInst
  selected := sys.selected

/-- `PLIC_trigger_typed_interrupt`. -/
def trigger (sys : PlicSystem) (h t : ℕ) (ty : IrqSourceId) : ℤ × PlicSystem :=
  let result := sys.toPlicState.plicTriggerTypedInterrupt h t ty
  (result.1, ⟨result.2, PlicState.selected_plicTriggerTypedInterrupt sys.selected⟩)

/-- `PLIC_M_TAR_claim_read` on one block. -/
def claim (sys : PlicSystem) (b : PlicBlock) (target : ℕ) : ℤ × PlicSystem :=
  let result := (sys.regs b).mTarClaimRead target
  (result.1, sys.setBlock b result.2)

/-- `PLIC_M_TAR_comp_write` on one block. -/
def complete (sys : PlicSystem) (b : PlicBlock) (target interruptId : ℕ) : ℤ × PlicSystem :=
  let result := (sys.regs b).mTarCompWrite target interruptId
  (result.1, sys.setBlock b result.2)

/-- Source `s` is pending in block `b`. -/
def pending (sys : PlicSystem) (b : PlicBlock) (s : ℕ) : Bool := (sys.regs b).pending s

variable {sys : PlicSystem} {b b' : PlicBlock} {h t s s' : ℕ} {ty : IrqSourceId}

@[simp] theorem regs_setBlock_self (obj : PlicRegDef) : (sys.setBlock b obj).regs b = obj := by
  simp [setBlock]

theorem regs_setBlock_of_ne (obj : PlicRegDef) (hne : b' ≠ b) :
    (sys.setBlock b obj).regs b' = sys.regs b' := by
  simp [setBlock, hne]

/-! ### The operations on pending sources -/

theorem trigger_of_accepts (accepts : Accepts h t ty) :
    sys.trigger h t ty = (1, sys.setBlock (hartBlock t)
      ((sys.regs (hartBlock t)).nSourcePendingWrite (plicCalculateSourceId h t ty)).2) := by
  simp only [trigger, PlicState.plicTriggerTypedInterrupt_of_accepts sys.selected accepts, setBlock]

theorem trigger_of_not_accepts (rejects : ¬ Accepts h t ty) :
    (sys.trigger h t ty).1 < 0 ∧ (sys.trigger h t ty).2 = sys := by
  obtain ⟨hresult, hstate⟩ := sys.toPlicState.plicTriggerTypedInterrupt_of_not_accepts rejects
  refine ⟨hresult, ?_⟩
  simp only [trigger, hstate]

theorem trigger_fst_eq_one_iff : (sys.trigger h t ty).1 = 1 ↔ Accepts h t ty := by
  by_cases accepts : Accepts h t ty
  · simp [trigger_of_accepts accepts, accepts]
  · have : (sys.trigger h t ty).1 < 0 := (trigger_of_not_accepts accepts).1
    exact ⟨fun h => by omega, fun h => absurd h accepts⟩

/-- After an accepted trigger its source is pending, and in the word of that source no
other one is; everything else is as before. -/
theorem pending_trigger (accepts : Accepts h t ty) (hs' : IsSource s') :
    (sys.trigger h t ty).2.pending b s' =
      if b = hartBlock t ∧ s' / 32 = plicCalculateSourceId h t ty / 32 then
        decide (s' = plicCalculateSourceId h t ty)
      else sys.pending b s' := by
  have hs := isSource_of_plicCalculateSourceId_ne_zero accepts.2.2.2
  rw [trigger_of_accepts accepts, pending]
  by_cases hb : b = hartBlock t
  · subst hb
    rw [regs_setBlock_self, pending_nSourcePendingWrite hs hs']
    simp [pending]
  · rw [regs_setBlock_of_ne _ hb]
    simp [hb, pending]

/-- A claim returns a source exactly when that source is the first in arbitration order. -/
theorem claim_fst_eq_iff (hpos : 0 < s) :
    (sys.claim b t).1 = s ↔ t ≤ 15 ∧ (sys.regs b).bestSource t = some s :=
  mTarClaimRead_fst_eq_iff hpos

/-- A claim takes the source it returns and leaves every other one pending. -/
theorem pending_claim (hs' : IsSource s') : (sys.claim b t).2.pending b' s' =
    (sys.pending b' s' && !decide (b' = b ∧ (sys.claim b t).1 = s')) := by
  by_cases hb : b' = b
  · subst hb
    simp [pending, claim, pending_mTarClaimRead hs']
  · simp [pending, claim, regs_setBlock_of_ne _ hb, hb]

theorem pending_complete {id : ℕ} :
    (sys.complete b t id).2.pending b' s' = sys.pending b' s' := by
  by_cases hb : b' = b
  · subst hb
    simp [complete, pending, pending_mTarCompWrite]
  · simp [complete, pending, regs_setBlock_of_ne _ hb]

/-! ### The operations on the configuration -/

/-- Two systems with the same enables, priorities and thresholds. -/
def SameConfig (sys sys' : PlicSystem) : Prop :=
  ∀ b, PlicRegDef.SameConfig (sys.regs b) (sys'.regs b)

theorem SameConfig.refl (sys : PlicSystem) : SameConfig sys sys := fun _ => .refl _

theorem SameConfig.trans {sys sys' sys'' : PlicSystem} (h : SameConfig sys sys')
    (h' : SameConfig sys' sys'') : SameConfig sys sys'' := fun b => (h b).trans (h' b)

theorem sameConfig_setBlock {obj : PlicRegDef}
    (same : PlicRegDef.SameConfig (sys.regs b) obj) : SameConfig sys (sys.setBlock b obj) := by
  intro b'
  by_cases hb : b' = b
  · subst hb
    rwa [regs_setBlock_self]
  · rw [regs_setBlock_of_ne _ hb]
    exact .refl _

theorem sameConfig_trigger : SameConfig sys (sys.trigger h t ty).2 := by
  by_cases accepts : Accepts h t ty
  · rw [trigger_of_accepts accepts]
    exact sameConfig_setBlock sameConfig_nSourcePendingWrite
  · rw [(trigger_of_not_accepts accepts).2]
    exact .refl sys

theorem sameConfig_claim : SameConfig sys (sys.claim b t).2 :=
  sameConfig_setBlock sameConfig_mTarClaimRead

theorem sameConfig_complete {id : ℕ} : SameConfig sys (sys.complete b t id).2 :=
  sameConfig_setBlock sameConfig_mTarCompWrite

end PlicSystem

/-! ### Runs -/

/-- The calls that harts make on the controllers. -/
inductive PlicOp
  | trigger (sourceHart targetHart : ℕ) (irqType : IrqSourceId)
  | claim (plic : PlicBlock) (target : ℕ)
  | complete (plic : PlicBlock) (target interruptId : ℕ)
  deriving DecidableEq

/-- The claim a hart makes: on its own block, under its own number. -/
def PlicOp.hartClaim (hart : ℕ) : PlicOp := .claim (hartBlock hart) hart

namespace PlicSystem

/-- One call, with its result. -/
def exec (sys : PlicSystem) : PlicOp → ℤ × PlicSystem
  | .trigger h t ty => sys.trigger h t ty
  | .claim b t => sys.claim b t
  | .complete b t id => sys.complete b t id

/-- The state after a sequence of calls. -/
abbrev run (sys : PlicSystem) (ops : List PlicOp) : PlicSystem := runState exec sys ops

/-- The calls of a run with their results. -/
abbrev trace (sys : PlicSystem) (ops : List PlicOp) : List (PlicOp × ℤ) := runTrace exec sys ops

/-- An accepted trigger for source `s` in block `b`. -/
def triggered (b : PlicBlock) (s : ℕ) : PlicOp × ℤ → Bool
  | (.trigger h t ty, result) =>
    decide (result = 1 ∧ hartBlock t = b ∧ plicCalculateSourceId h t ty = s)
  | _ => false

/-- A claim on block `b` that returned source `s`. -/
def claimed (b : PlicBlock) (s : ℕ) : PlicOp × ℤ → Bool
  | (.claim b' _, result) => decide (b' = b ∧ result = s)
  | _ => false

variable {sys : PlicSystem} {b : PlicBlock} {s : ℕ}

/-- The pending bit of a source: accepted triggers put it, claims that return it take
it. A trigger of another source of its word may drop it. -/
def pendingFlag (b : PlicBlock) (hs : IsSource s) : Flag exec where
  up sys := sys.pending b s
  put := triggered b s
  take := claimed b s
  raised sys op down up := by
    cases op with
    | trigger h t ty =>
      simp only [exec] at up ⊢
      by_cases accepts : Accepts h t ty
      -- in the word of the trigger only its own source is up afterwards
      · rw [pending_trigger accepts hs] at up
        split_ifs at up with hword
        · rw [trigger_of_accepts accepts]
          simpa [triggered, hword.1.symm] using (of_decide_eq_true up).symm
        · exact absurd (down.symm.trans up) Bool.false_ne_true
      · rw [(trigger_of_not_accepts accepts).2, down] at up
        exact absurd up Bool.false_ne_true
    | claim b' t =>
      simp [exec, pending_claim hs, down] at up
    | complete b' t id =>
      simp [exec, pending_complete, down] at up
  take_up sys op taken := by
    cases op with
    | trigger | complete => exact absurd taken Bool.false_ne_true
    | claim b' t =>
      obtain ⟨rfl, hresult⟩ := of_decide_eq_true taken
      obtain ⟨-, hbest⟩ := (claim_fst_eq_iff hs.1).mp hresult
      exact (eligible_iff.mp (bestSource_eq_some_iff.mp hbest).2.1).1
  take_down sys op taken := by
    cases op with
    | trigger | complete => exact absurd taken Bool.false_ne_true
    | claim b' t =>
      obtain ⟨rfl, hresult⟩ := of_decide_eq_true taken
      simp only [exec] at hresult ⊢
      rw [pending_claim hs]
      simp [hresult]

end PlicSystem

/-! ### The system after set-up -/

/-- The controllers as `platform_setup` leaves them. -/
def setupSystem : PlicSystem := ⟨plicAfterSetup, selected_plicAfterSetup⟩

theorem platformSetup_plic : platformSetup.map (·.plic) = some setupSystem.toPlicState := by
  rw [platformSetup_eq]
  rfl

/-- Set-up leaves one state only. -/
theorem eq_setupSystem {sys : PlicSystem}
    (setup : platformSetup.map (·.plic) = some sys.toPlicState) : sys = setupSystem := by
  rw [platformSetup_plic] at setup
  exact PlicSystem.eq_of_toPlicState (Option.some.inj setup.symm)

theorem pending_setupSystem (b : PlicBlock) (s : ℕ) : setupSystem.pending b s = false := by
  simp only [PlicSystem.pending, setupSystem, pending_setup]

namespace PlicSystem

variable {sys : PlicSystem} {t s : ℕ}

/-- Under the configuration of set-up, what a hart may claim is what is pending in its
block with a source id of another hart and a supported type. -/
theorem eligible_iff_of_setup (same : SameConfig setupSystem sys) (ht : t < 8) (hs : IsSource s) :
    (sys.regs (hartBlock t)).eligible t s = true ↔ sys.pending (hartBlock t) s = true ∧
      ∃ h < 8, h ≠ t ∧ ∃ ty ∈ PlicState.supportedTypes, plicCalculateSourceId h t ty = s := by
  -- every priority of the set-up is above every threshold
  have hlow : ∀ ty ∈ PlicState.supportedTypes, 1 < (PlicState.setupPriority ty).toNat := by decide
  have henabled := (same (hartBlock t)).enabled t s
  have hpriority := (same (hartBlock t)).priority s
  have hthreshold := (same (hartBlock t)).threshold t
  simp only [setupSystem] at henabled hpriority hthreshold
  rw [eligible_iff, henabled, hpriority, hthreshold, enabled_setup (by omega) hs,
    threshold_setup ht]
  refine and_congr_right fun _ => ⟨fun helig => helig.1.2.2, ?_⟩
  rintro ⟨h, hh, hne, ty, hty, rfl⟩
  refine ⟨⟨ht, rfl, h, hh, hne, ty, hty, rfl⟩, ?_⟩
  rw [priority_setup hh ht hne hty]
  exact hlow ty hty

end PlicSystem

end MeshNoc
