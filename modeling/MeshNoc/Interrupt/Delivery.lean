import MeshNoc.Interrupt.System

/-!
# What the controllers deliver

Three questions about every run of triggers, claims and completions: is an accepted
trigger kept until it is claimed, is every claimed interrupt one that was triggered, and
does it reach the hart it was addressed to.

A claim invents nothing, and takes a source at most once for each accepted trigger. The
other two properties fail in general. A pending write stores the bare mask of its source,
so a trigger drops what else is pending in its word; and source ids do not depend on the
target, so a hart can claim what was addressed to another hart of its block. Both are
characterised by a condition on the states the calls find.

## Main results

* `claims_le_triggers` — no spurious and no duplicated interrupts
* `noInterruptLost_iff` — runs that lose nothing are those whose triggers find their word
  free
* `onlyAddresseesClaim_iff` — runs that deliver to addressees only are those whose claims
  find every misaddressed source preceded by one of their own
-/

namespace MeshNoc

open Lib PlicRegDef

namespace PlicSystem

variable {sys : PlicSystem} {ops : List PlicOp} {b : PlicBlock} {s : ℕ}

/-- No source is pending in either block. -/
def NothingPending (sys : PlicSystem) : Prop := ∀ b s, IsSource s → sys.pending b s = false

theorem nothingPending_setupSystem : setupSystem.NothingPending :=
  fun b s _ => pending_setupSystem b s

/-! ### Spurious and duplicated interrupts -/

/-- A claimed source was pending, enabled for the claiming target, and of a priority above
its threshold. -/
theorem eligible_of_claim {t : ℕ} (hpos : 0 < s) (returned : (sys.claim b t).1 = s) :
    IsSource s ∧ (sys.regs b).eligible t s = true := by
  obtain ⟨-, hbest⟩ := (claim_fst_eq_iff hpos).mp returned
  obtain ⟨hs, helig, -⟩ := bestSource_eq_some_iff.mp hbest
  exact ⟨hs, helig⟩

/-- No run returns an id for which there is no source. -/
theorem countP_claimed_eq_zero (hpos : 0 < s) (hs : ¬ IsSource s) :
    (sys.trace ops).countP (claimed b s) = 0 := by
  induction ops generalizing sys with
  | nil => rfl
  | cons op rest ih =>
    rw [trace, runTrace_cons, List.countP_cons_of_neg, ← trace]
    · exact ih
    · cases op with
      | trigger | complete => exact Bool.false_ne_true
      | claim b' t =>
        intro taken
        exact hs (eligible_of_claim hpos (of_decide_eq_true taken).2).1

/-- From controllers with nothing pending, no run claims a source of a block more often
than it triggers it there, and every claimed source was pending, enabled for the claiming
target, and of a priority above its threshold. -/
theorem claims_le_triggers (clear : sys.NothingPending) (ops : List PlicOp) (b : PlicBlock)
    (hpos : 0 < s) :
    (sys.trace ops).countP (claimed b s) ≤ (sys.trace ops).countP (triggered b s) ∧
      ∀ earlier t, (earlier ++ [.claim b t]) <+: ops →
        ((sys.run earlier).exec (.claim b t)).1 = s →
          (sys.run earlier).pending b s = true ∧
            ((sys.run earlier).regs b).enabled t s = true ∧
              ((sys.run earlier).regs b).threshold t < ((sys.run earlier).regs b).priority s := by
  constructor
  · by_cases hs : IsSource s
    · have hcount := (pendingFlag b hs).countP_take_le sys ops
      have hdown : (pendingFlag b hs).up sys = false := clear b s hs
      rw [hdown, Bool.toNat_false] at hcount
      exact (Nat.le_add_right _ _).trans hcount
    · rw [countP_claimed_eq_zero hpos hs]
      exact Nat.zero_le _
  · intro earlier t _ returned
    exact eligible_iff.mp (eligible_of_claim hpos returned).2

/-- Triggered once, then claimed twice: the second claim returns nothing. -/
theorem claims_le_triggers_twice :
    let ops : List PlicOp := [.trigger 1 0 irqTaskComplete, .claim .c0c1 0, .claim .c0c1 0]
    (setupSystem.trace ops).countP (claimed .c0c1 86) ≤
        (setupSystem.trace ops).countP (triggered .c0c1 86) ∧
      ∀ earlier t, (earlier ++ [.claim .c0c1 t]) <+: ops →
        ((setupSystem.run earlier).exec (.claim .c0c1 t)).1 = (86 : ℕ) →
          (setupSystem.run earlier).pending .c0c1 86 = true ∧
            ((setupSystem.run earlier).regs .c0c1).enabled t 86 = true ∧
              ((setupSystem.run earlier).regs .c0c1).threshold t <
                ((setupSystem.run earlier).regs .c0c1).priority 86 :=
  claims_le_triggers nothingPending_setupSystem _ _ (by decide)

/-! ### Lost interrupts -/

/-- Every accepted trigger of the run leaves its source pending until a claim on its
block returns it. -/
def StaysPending (sys : PlicSystem) (ops : List PlicOp) : Prop :=
  ∀ earlier h t ty later, (earlier ++ .trigger h t ty :: later) <+: ops →
    ((sys.run earlier).exec (.trigger h t ty)).1 = 1 →
    (∀ e ∈ (sys.run (earlier ++ [.trigger h t ty])).trace later,
      claimed (hartBlock t) (plicCalculateSourceId h t ty) e = false) →
    (sys.run (earlier ++ .trigger h t ty :: later)).pending (hartBlock t)
      (plicCalculateSourceId h t ty) = true

/-- No trigger of the run clears a pending source. -/
def TriggersKeepPending (sys : PlicSystem) (ops : List PlicOp) : Prop :=
  ∀ earlier h t ty, (earlier ++ [.trigger h t ty]) <+: ops → ∀ b s, IsSource s →
    (sys.run earlier).pending b s = true →
    (sys.run (earlier ++ [.trigger h t ty])).pending b s = true

/-- No interrupt of the run is lost. -/
def NoInterruptLost (sys : PlicSystem) (ops : List PlicOp) : Prop :=
  sys.StaysPending ops ∧ sys.TriggersKeepPending ops

/-- Every accepted trigger of the run finds no other source of its word pending in its
block. -/
def TriggersFindWordFree (sys : PlicSystem) (ops : List PlicOp) : Prop :=
  ∀ earlier h t ty, (earlier ++ [.trigger h t ty]) <+: ops → Accepts h t ty →
    ∀ s, IsSource s → s / 32 = plicCalculateSourceId h t ty / 32 →
      s ≠ plicCalculateSourceId h t ty → (sys.run earlier).pending (hartBlock t) s = false

theorem run_concat (earlier : List PlicOp) (op : PlicOp) :
    sys.run (earlier ++ [op]) = ((sys.run earlier).exec op).2 := runState_append exec sys earlier _

theorem triggersKeepPending_iff :
    sys.TriggersKeepPending ops ↔ sys.TriggersFindWordFree ops := by
  constructor
  · intro keeps earlier h t ty hprefix accepts s hs hword hne
    by_contra hpending
    have hkept := keeps earlier h t ty hprefix (hartBlock t) s hs (by simpa using hpending)
    rw [run_concat, exec, pending_trigger accepts hs, if_pos ⟨rfl, hword⟩] at hkept
    exact hne (of_decide_eq_true hkept)
  · intro free earlier h t ty hprefix b s hs hpending
    rw [run_concat, exec]
    by_cases accepts : Accepts h t ty
    · rw [pending_trigger accepts hs]
      split_ifs with hword
      · obtain ⟨rfl, hword⟩ := hword
        by_contra hne
        have hclear := free earlier h t ty hprefix accepts s hs hword (by simpa using hne)
        exact Bool.false_ne_true (hclear.symm.trans hpending)
      · exact hpending
    · rwa [(trigger_of_not_accepts accepts).2]

/-- When triggers keep what is pending, a trigger stays pending through any calls that do
not claim it. -/
theorem staysPending_of_triggersKeepPending (keeps : sys.TriggersKeepPending ops) :
    sys.StaysPending ops := by
  intro earlier h t ty later hprefix accepted unclaimed
  have accepts := trigger_fst_eq_one_iff.mp accepted
  have hs := isSource_of_plicCalculateSourceId_ne_zero accepts.2.2.2
  -- over the calls after the trigger, of which only a claim of the source may clear it
  induction later using List.reverseRecOn with
  | nil =>
    rw [run_concat, exec, pending_trigger accepts hs, if_pos ⟨rfl, rfl⟩]
    exact decide_eq_true rfl
  | append_singleton later last ih =>
    rw [trace, runTrace_append] at unclaimed
    have hbefore : earlier ++ .trigger h t ty :: later <+: ops :=
      (List.prefix_append _ [last]).trans (by simpa using hprefix)
    have hpending := ih hbefore fun e he => unclaimed e (List.mem_append_left _ he)
    have hsplit : earlier ++ .trigger h t ty :: (later ++ [last]) =
        (earlier ++ .trigger h t ty :: later) ++ [last] := by simp
    rw [hsplit] at hprefix ⊢
    cases last with
    | trigger h' t' ty' => exact keeps _ h' t' ty' hprefix _ _ hs hpending
    | claim b' t' =>
      have hlast := unclaimed _ (List.mem_append_right _ (List.mem_singleton.mpr rfl))
      rw [← runState_append, List.append_assoc, List.singleton_append] at hlast
      rw [run_concat, exec, pending_claim hs, hpending, Bool.true_and, Bool.not_eq_true']
      exact decide_eq_false fun hclaim =>
        of_decide_eq_false hlast ⟨hclaim.1.symm, hclaim.2⟩
    | complete b' t' id =>
      rw [run_concat, exec, pending_complete]
      exact hpending

/-- From controllers with nothing pending, triggers that stay pending are triggers that
find their word free: what they find pending is an earlier trigger, which they drop. -/
theorem triggersFindWordFree_of_staysPending (clear : sys.NothingPending)
    (stays : sys.StaysPending ops) : sys.TriggersFindWordFree ops := by
  intro earlier h t ty hprefix accepts s hs hword hne
  by_contra hpending
  rw [Bool.not_eq_false] at hpending
  -- what the trigger finds pending was put by an earlier trigger and not claimed since
  obtain ⟨before, op, later, rfl, hput, huntaken⟩ :=
    (pendingFlag (hartBlock t) hs).exists_put (clear _ s hs) hpending
  cases op with
  | claim | complete => exact Bool.false_ne_true hput
  | trigger h' t' ty' =>
    obtain ⟨haccepted, hblock, rfl⟩ := of_decide_eq_true hput
    have hsplit : before ++ .trigger h' t' ty' :: later ++ [.trigger h t ty] =
        before ++ .trigger h' t' ty' :: (later ++ [.trigger h t ty]) := by simp
    rw [hsplit] at hprefix
    have hkept := stays before h' t' ty' _ hprefix haccepted ?_
    · rw [← hsplit, run_concat, exec, hblock, pending_trigger accepts hs,
        if_pos ⟨rfl, hword⟩] at hkept
      exact hne (of_decide_eq_true hkept)
    · intro e he
      rw [trace, runTrace_append, List.mem_append] at he
      rcases he with he | he
      · rw [hblock]
        exact huntaken e he
      · obtain rfl := List.mem_singleton.mp he
        rfl

theorem staysPending_iff (clear : sys.NothingPending) :
    sys.StaysPending ops ↔ sys.TriggersFindWordFree ops :=
  ⟨triggersFindWordFree_of_staysPending clear,
    fun free => staysPending_of_triggersKeepPending (triggersKeepPending_iff.mpr free)⟩

/-- After set-up, a run loses no interrupt exactly when each of its accepted triggers
finds no other source of its word pending. -/
theorem noInterruptLost_iff {sys : PlicSystem}
    (setup : platformSetup.map (·.plic) = some sys.toPlicState) (ops : List PlicOp) :
    sys.NoInterruptLost ops ↔ sys.TriggersFindWordFree ops := by
  obtain rfl := eq_setupSystem setup
  rw [NoInterruptLost, staysPending_iff nothingPending_setupSystem, triggersKeepPending_iff,
    and_self_iff]

/-- Hart 0 claims between two reports of hart 1. -/
theorem noInterruptLost_iff_claimed :
    let ops : List PlicOp :=
      [.trigger 1 0 irqTaskComplete, .claim .c0c1 0, .trigger 1 0 irqErrorReport]
    setupSystem.NoInterruptLost ops ↔ setupSystem.TriggersFindWordFree ops :=
  noInterruptLost_iff platformSetup_plic _

/-- A call of a hart of the platform: a trigger of a supported type, a claim on the
hart's own block under its own number, or a completion. -/
def HartCall : PlicOp → Prop
  | .trigger h t ty => h < nrHarts ∧ t < nrHarts ∧ ty ∈ PlicState.supportedTypes
  | .claim b t => ∃ hart < nrHarts, .claim b t = PlicOp.hartClaim hart
  | .complete _ _ _ => True

/-- Hart 1 reports a finished task and then an error to hart 0: the first is gone. -/
theorem interrupt_lost : ¬ ∀ ops : List PlicOp, (∀ op ∈ ops, HartCall op) →
    setupSystem.NoInterruptLost ops := by
  intro none_lost
  have hfree := triggersFindWordFree_of_staysPending nothingPending_setupSystem
    (none_lost [.trigger 1 0 irqTaskComplete, .trigger 1 0 irqErrorReport] ?_).1
  · have hclear := hfree [.trigger 1 0 irqTaskComplete] 1 0 irqErrorReport
      (List.prefix_refl _) (by decide) 86 (by decide) (by decide) (by decide)
    have hpending : (setupSystem.run [.trigger 1 0 irqTaskComplete]).pending (hartBlock 0) 86 =
        true := by
      change (setupSystem.trigger 1 0 irqTaskComplete).2.pending (hartBlock 0) 86 = true
      rw [pending_trigger (by decide) (by decide)]
      decide
    exact Bool.false_ne_true (hclear.symm.trans hpending)
  · intro op hop
    rcases List.mem_cons.mp hop with rfl | hop
    · exact ⟨by decide, by decide, by decide⟩
    · obtain rfl := List.mem_singleton.mp hop
      exact ⟨by decide, by decide, by decide⟩

/-! ### Misdelivered interrupts -/

/-- The run has an accepted trigger addressed to hart `u` whose source `s` no later claim
on the hart's block returned. -/
def UnclaimedFor (sys : PlicSystem) (ops : List PlicOp) (u s : ℕ) : Prop :=
  ∃ earlier h ty later, ops = earlier ++ .trigger h u ty :: later ∧
    ((sys.run earlier).exec (.trigger h u ty)).1 = 1 ∧ plicCalculateSourceId h u ty = s ∧
    ∀ e ∈ (sys.run (earlier ++ [.trigger h u ty])).trace later,
      claimed (hartBlock u) s e = false

/-- Every claim a hart makes in the run returns only sources that an unclaimed trigger
addressed to that hart. -/
def OnlyAddresseesClaim (sys : PlicSystem) (ops : List PlicOp) : Prop :=
  ∀ u < nrHarts, ∀ earlier, (earlier ++ [PlicOp.hartClaim u]) <+: ops → ∀ s : ℕ, 0 < s →
    ((sys.run earlier).exec (PlicOp.hartClaim u)).1 = s → sys.UnclaimedFor earlier u s

/-- Whenever a hart claims in the run, every source that is eligible for it without an
unclaimed trigger addressed to it is preceded, in arbitration order, by an eligible source
with one. -/
def OwnSourcesFirst (sys : PlicSystem) (ops : List PlicOp) : Prop :=
  ∀ u < nrHarts, ∀ earlier, (earlier ++ [PlicOp.hartClaim u]) <+: ops →
    ∀ s, IsSource s → ((sys.run earlier).regs (hartBlock u)).eligible u s = true →
      ¬ sys.UnclaimedFor earlier u s →
        ∃ s', IsSource s' ∧ ((sys.run earlier).regs (hartBlock u)).eligible u s' = true ∧
          sys.UnclaimedFor earlier u s' ∧
          ((sys.run earlier).regs (hartBlock u)).Precedes s' s

/-- From the configuration set-up leaves, harts claim only what was addressed to them
exactly in the runs whose claims find every misaddressed source preceded by one of the
claiming hart's own. -/
theorem onlyAddresseesClaim_iff {sys : PlicSystem}
    (setup : platformSetup.map (·.plic) = some sys.toPlicState) (ops : List PlicOp) :
    sys.OnlyAddresseesClaim ops ↔ sys.OwnSourcesFirst ops := by
  obtain rfl := eq_setupSystem setup
  constructor
  · intro delivered u hu earlier hprefix s hs helig hmisaddressed
    -- the claim returns the best source, so it has to be one of the own
    cases hbest : ((setupSystem.run earlier).regs (hartBlock u)).bestSource u with
    | none =>
      have hnone := bestSource_eq_none_iff.mp hbest s hs
      exact absurd (hnone.symm.trans helig) Bool.false_ne_true
    | some best =>
      obtain ⟨hbests, hbestelig, hfirst⟩ := bestSource_eq_some_iff.mp hbest
      have hu' : u < 8 := hu
      have hclaim : ((setupSystem.run earlier).claim (hartBlock u) u).1 = best :=
        (claim_fst_eq_iff hbests.1).mpr ⟨by omega, hbest⟩
      have hown := delivered u hu earlier hprefix best hbests.1 hclaim
      have hne : s ≠ best := by
        rintro rfl
        exact hmisaddressed hown
      exact ⟨best, hbests, hbestelig, hown, hfirst s hs helig hne⟩
  · intro ownFirst u hu earlier hprefix s hpos hclaim
    obtain ⟨-, hbest⟩ := (claim_fst_eq_iff hpos).mp hclaim
    obtain ⟨hs, helig, hfirst⟩ := bestSource_eq_some_iff.mp hbest
    by_contra hmisaddressed
    obtain ⟨s', hs', helig', -, hprecedes⟩ :=
      ownFirst u hu earlier hprefix s hs helig hmisaddressed
    exact hprecedes.asymm (hfirst s' hs' helig' hprecedes.ne)

/-- Hart 2 assigns a task to hart 0, which claims it. -/
theorem onlyAddresseesClaim_iff_addressee :
    let ops : List PlicOp := [.trigger 2 0 irqTaskAssign, PlicOp.hartClaim 0]
    setupSystem.OnlyAddresseesClaim ops ↔ setupSystem.OwnSourcesFirst ops :=
  onlyAddresseesClaim_iff platformSetup_plic _

/-- Hart 2 assigns a task to hart 0, and hart 1 claims it. -/
theorem interrupt_stolen : ¬ ∀ ops : List PlicOp, (∀ op ∈ ops, HartCall op) →
    setupSystem.OnlyAddresseesClaim ops := by
  intro none_stolen
  have accepts : Accepts 2 0 irqTaskAssign := by decide
  have hpending : ∀ s, IsSource s →
      (setupSystem.trigger 2 0 irqTaskAssign).2.pending (hartBlock 1) s = decide (s = 119) := by
    intro s hs
    rw [pending_trigger accepts hs, pending_setupSystem]
    split_ifs with hword
    · rfl
    · refine (decide_eq_false ?_).symm
      rintro rfl
      exact hword (by decide)
  have hbest : ((setupSystem.trigger 2 0 irqTaskAssign).2.regs (hartBlock 1)).bestSource 1 =
      some 119 := by
    refine bestSource_eq_some_iff.mpr ⟨by decide, ?_, fun s hs helig hne => ?_⟩
    · exact (eligible_iff_of_setup sameConfig_trigger (by decide) (by decide)).mpr
        ⟨hpending 119 (by decide), 2, by decide, by decide, irqTaskAssign, by decide, rfl⟩
    · have hs' := (eligible_iff.mp helig).1
      exact absurd (of_decide_eq_true ((hpending s hs).symm.trans hs')) hne
  have hclaim : ((setupSystem.trigger 2 0 irqTaskAssign).2.claim (hartBlock 1) 1).1 = (119 : ℕ) :=
    (claim_fst_eq_iff (by decide)).mpr ⟨by decide, hbest⟩
  have hstolen := none_stolen [.trigger 2 0 irqTaskAssign, PlicOp.hartClaim 1] ?_ 1 (by decide)
    [.trigger 2 0 irqTaskAssign] (List.prefix_refl _) 119 (by decide) hclaim
  · obtain ⟨earlier, h, ty, later, hsplit, -⟩ := hstolen
    have htarget : PlicOp.trigger h 1 ty ∈ [PlicOp.trigger 2 0 irqTaskAssign] := by
      rw [hsplit]
      simp
    simp at htarget
  · intro op hop
    rcases List.mem_cons.mp hop with rfl | hop
    · exact ⟨by decide, by decide, by decide⟩
    · obtain rfl := List.mem_singleton.mp hop
      exact ⟨1, by decide, rfl⟩

end PlicSystem

end MeshNoc
