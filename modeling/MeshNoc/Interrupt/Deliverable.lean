import MeshNoc.Interrupt.System

/-!
# Deliverable interrupts

Set-up enables the sources it supports, ORs a priority of at least 2 into their registers
and writes the threshold 1. ORing lowers no priority and clears no enable bit, so this makes
every supported interrupt deliverable from any content of the registers, and no later call of
a hart undoes it.

## Main results

* `deliverable_of_sameConfig` — under the configuration of a set-up, at any later point
* `setup_deliverable` — right after set-up
-/

namespace MeshNoc

open Lib PlicRegDef PlicState

namespace PlicRegDef

/-- Enabling sets one bit of one word and clears none. -/
theorem getLsbD_teregs_mTarEnable {obj : PlicRegDef} {t s : ℕ} (ht : t < 16) (hs : IsSource s)
    (t' : Fin 16) (i : Fin 32) (k : ℕ) :
    ((obj.mTarEnable t s).2.teregs t' i).getLsbD k =
      if decide (t' = Fin.ofNat 16 t) && decide (i = sourceIndex s) && decide (k = s % 32) then
        (obj.teregs t' i).getLsbD k || true
      else (obj.teregs t' i).getLsbD k := by
  have := hs.1
  have := hs.2
  rw [mTarEnable, if_neg (by omega)]
  dsimp only
  by_cases htarget : t' = Fin.ofNat 16 t
  · subst htarget
    rw [Function.update_self]
    by_cases hi : i = sourceIndex s
    · subst hi
      rw [Function.update_self, BitVec.getLsbD_or, getLsbD_sourceMask]
      by_cases hk : k = s % 32 <;> simp [hk]
    · rw [Function.update_of_ne hi]
      simp [hi]
  · rw [Function.update_of_ne htarget, decide_eq_false htarget]
    rfl

end PlicRegDef

namespace PlicSystem

variable {sys sys' : PlicSystem} {h t ty : ℕ}

/-- `PLIC_setup_bidirectional_interrupts`. -/
def setup (sys : PlicSystem) : PlicSystem where
  toPlicState := sys.toPlicState.plicSetupBidirectionalInterrupts
  selected := selected_plicSetup sys.selected

theorem regs_setup (sys : PlicSystem) (b : PlicBlock) :
    sys.setup.regs b = (sys.toPlicState.plicSetupBidirectionalInterrupts).regs b := by
  rw [setup]

/-- A trigger of type `ty` from hart `h` to hart `t` is accepted and makes its source pending,
enabled and above the threshold, and a claim by `t` that finds no other source pending
returns it. -/
structure Deliverable (sys : PlicSystem) (h t : ℕ) (ty : IrqSourceId) : Prop where
  accepted : (sys.trigger h t ty).1 = 1
  pending : (sys.trigger h t ty).2.pending (hartBlock t) (plicCalculateSourceId h t ty) = true
  enabled : ((sys.trigger h t ty).2.regs (hartBlock t)).enabled t
    (plicCalculateSourceId h t ty) = true
  above : ((sys.trigger h t ty).2.regs (hartBlock t)).threshold t <
    ((sys.trigger h t ty).2.regs (hartBlock t)).priority (plicCalculateSourceId h t ty)
  claimed : (∀ s, IsSource s → s ≠ plicCalculateSourceId h t ty →
      (sys.trigger h t ty).2.pending (hartBlock t) s = false) →
    ((sys.trigger h t ty).2.claim (hartBlock t) t).1 = plicCalculateSourceId h t ty

theorem accepts_supported (hh : h < 8) (ht : t < 8) (hne : h ≠ t) (hty : ty ∈ supportedTypes) :
    Accepts h t ty :=
  ⟨hh, ht, hne, Nat.ne_of_gt (isSource_supported t hh hty).1⟩

/-- Whatever a priority register held, set-up leaves at least the priority of the type. -/
theorem le_priority_setup (hh : h < 8) (ht : t < 8) (hne : h ≠ t) (hty : ty ∈ supportedTypes) :
    (setupPriority ty).toNat ≤
      (sys.setup.regs (hartBlock t)).priority (plicCalculateSourceId h t ty) := by
  have hbyte : ∀ ty ∈ supportedTypes, setupPriority ty &&& 0xFF = setupPriority ty := by decide
  rw [regs_setup]
  unfold priority
  rw [sprioRegs_plicSetup sys.selected hh ht hne hty, BitVec.and_comm, BitVec.and_or_distrib_left,
    BitVec.and_comm 0xFF (setupPriority ty), hbyte ty hty, BitVec.toNat_or]
  exact Nat.right_le_or

/-- Calls of the harts keep what set-up made deliverable. -/
theorem deliverable_of_sameConfig (same : SameConfig sys.setup sys') (hh : h < 8) (ht : t < 8)
    (hne : h ≠ t) (hty : ty ∈ supportedTypes) : sys'.Deliverable h t ty := by
  have hs := isSource_supported t hh hty
  have accepts := accepts_supported hh ht hne hty
  have hconfig := (same.trans sameConfig_trigger : SameConfig sys.setup (sys'.trigger h t ty).2)
    (hartBlock t)
  have hpending : (sys'.trigger h t ty).2.pending (hartBlock t) (plicCalculateSourceId h t ty) =
      true := by
    rw [pending_trigger accepts hs]
    simp
  have henabled : ((sys'.trigger h t ty).2.regs (hartBlock t)).enabled t
      (plicCalculateSourceId h t ty) = true := by
    have ht' : t < 16 := by omega
    rw [hconfig.enabled, regs_setup, enabled_plicSetup sys.selected ht' hs]
    exact Or.inr ⟨ht, rfl, h, hh, hne, ty, hty, rfl⟩
  have habove : ((sys'.trigger h t ty).2.regs (hartBlock t)).threshold t <
      ((sys'.trigger h t ty).2.regs (hartBlock t)).priority (plicCalculateSourceId h t ty) := by
    have hlow : ∀ ty ∈ supportedTypes, 1 < (setupPriority ty).toNat := by decide
    have hthreshold : (sys.setup.regs (hartBlock t)).threshold t = 1 := by
      rw [regs_setup, threshold_plicSetup sys.selected ht]
    rw [hconfig.threshold, hconfig.priority, hthreshold]
    exact (hlow ty hty).trans_le (le_priority_setup hh ht hne hty)
  refine ⟨trigger_fst_eq_one_iff.mpr accepts, hpending, henabled, habove, fun alone => ?_⟩
  -- the only pending source is the first of the eligible ones
  rw [claim_fst_eq_iff hs.1, bestSource_eq_some_iff]
  refine ⟨by omega, hs, eligible_iff.mpr ⟨hpending, henabled, habove⟩, fun s hs' helig hne' => ?_⟩
  exact absurd ((eligible_iff.mp helig).1.symm.trans (alone s hs' hne')) (by decide)

/-- Set-up clears no bit of an enable word. -/
theorem getLsbD_teregs_setup (b : PlicBlock) (t : Fin 16) (i : Fin 32) (k : ℕ)
    (hbit : ((sys.regs b).teregs t i).getLsbD k = true) :
    ((sys.setup.regs b).teregs t i).getLsbD k = true := by
  have heffects : SetupEffects or (fun obj => (obj.teregs t i).getLsbD k) true
      (fun t' h ty => decide (t = Fin.ofNat 16 t') &&
        decide (i = sourceIndex (plicCalculateSourceId h t' ty)) &&
          decide (k = plicCalculateSourceId h t' ty % 32))
      (fun _ _ _ => false) fun _ => false :=
    { enable := fun t' ht' h hh ty hty _ =>
        getLsbD_teregs_mTarEnable (by omega) (isSource_supported t' hh hty) t i k
      priority := fun _ _ _ _ _ _ _ => by simp [teregs_nPrioritySet]
      threshold := fun _ _ _ => by simp [teregs_mTarThreWrite] }
  have hobs := (accumulates_setup b heffects sys.toPlicState sys.selected).2
  -- whether a call hits the bit or not, it stays set
  simp only [hbit, Bool.or_true, ite_self] at hobs
  rw [regs_setup, hobs]

/-- After set-up every supported interrupt between two harts is deliverable, whatever the
registers held before, and no enable bit that was set is clear. -/
theorem setup_deliverable (sys : PlicSystem) :
    (∀ h t : Fin nrHarts, h ≠ t → ∀ ty ∈ supportedTypes, sys.setup.Deliverable h t ty) ∧
      ∀ (b : PlicBlock) (t : Fin 16) (i : Fin 32) (k : ℕ),
        ((sys.regs b).teregs t i).getLsbD k = true →
          ((sys.setup.regs b).teregs t i).getLsbD k = true := by
  constructor
  · intro h t hne ty hty
    exact deliverable_of_sameConfig (.refl _) h.isLt t.isLt (fun heq => hne (Fin.ext heq)) hty
  · exact fun b t i k => getLsbD_teregs_setup b t i k

end PlicSystem

end MeshNoc
