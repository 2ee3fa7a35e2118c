import MeshNoc.C0Master.Interrupts
import MeshNoc.Lib.Drain
import Mathlib.Order.Interval.Finset.Nat

/-!
# The interrupt service of C0 drains its block

The loop invariant says what was claimed so far, with the id in hand counted as claimed,
and what is still eligible. A dispatch can put the response to hart 1 back into the block
while it drops the rest of a word, so the number of pending sources need not decrease; a
potential that counts the response once and every other source twice does.

## Main results

* `c0_drains` — from every state both service functions return, return the number of
  claims they made, and leave nothing eligible for hart 0; when hart 0 has none of the ids
  `32, …, 63` enabled, they claim exactly what was eligible on entry, in arbitration order
-/

namespace MeshNoc

open Lib PlicRegDef

/-- A service function, started in `c0`, returns `n` and leaves the state `c0'`. -/
def Serves (service : ℕ → C0State → Option (ℕ × C0State)) (c0 : C0State) (n : ℕ)
    (c0' : C0State) : Prop := ∃ fuel, service fuel c0 = some (n, c0')

namespace C0State

variable {c0 : C0State} {s : ℕ}

/-- Hart 0 may claim source `s`. -/
def Eligible (c0 : C0State) (s : ℕ) : Prop :=
  IsSource s ∧ (c0.plic.regs .c0c1).eligible 0 s = true

/-- The claim of hart 0. -/
def claim (c0 : C0State) : ℕ × C0State := c0.claimRead .c0c1 0

theorem claim_fst_eq : c0.claim.1 = ((c0.plic.regs .c0c1).bestSource 0).getD 0 := by
  rw [claim, claimRead, PlicSystem.claim, mTarClaimRead_eq (by decide)]
  cases hbest : (c0.plic.regs .c0c1).bestSource 0 with
  | none => rfl
  | some s =>
    have := (bestSource_eq_some_iff.mp hbest).1.2
    simp only [Option.getD_some]
    omega

theorem sameConfig_claim : PlicSystem.SameConfig c0.plic c0.claim.2.plic :=
  PlicSystem.sameConfig_claim

theorem bestSource_of_claim (hpos : 0 < c0.claim.1) :
    (c0.plic.regs .c0c1).bestSource 0 = some c0.claim.1 := by
  rw [claim_fst_eq] at hpos ⊢
  cases hbest : (c0.plic.regs .c0c1).bestSource 0 with
  | none => simp [hbest] at hpos
  | some s => rfl

theorem pending_claim {b : PlicBlock} (hs : IsSource s) : c0.claim.2.plic.pending b s =
    (c0.plic.pending b s && !decide (b = .c0c1 ∧ c0.claim.1 = s)) := by
  -- the claimed id as an `int` and as a `uint32_t`
  have hreturned : (c0.plic.claim .c0c1 0).1 = s ↔ c0.claim.1 = s := by
    rw [PlicSystem.claim_fst_eq_iff hs.1, and_iff_right (by decide)]
    constructor
    · intro hbest
      rw [claim_fst_eq, hbest]
      rfl
    · intro heq
      have hpos : 0 < c0.claim.1 := heq ▸ hs.1
      rw [bestSource_of_claim hpos, heq]
  have hclaim : (c0.plic.claim .c0c1 0).2.pending b s = _ := PlicSystem.pending_claim hs
  simp only [hreturned] at hclaim
  exact hclaim

/-- What hart 0 may claim after a claim: what it could claim before, less what it got. -/
theorem eligible_claim : c0.claim.2.Eligible s ↔ c0.Eligible s ∧ s ≠ c0.claim.1 := by
  have same : PlicRegDef.SameConfig _ (c0.claim.2.plic.regs .c0c1) := sameConfig_claim .c0c1
  unfold Eligible
  rw [and_assoc]
  refine and_congr_right fun hs => ?_
  have hpending : c0.claim.2.plic.pending .c0c1 s = _ := pending_claim hs
  rw [PlicSystem.pending, PlicSystem.pending] at hpending
  rw [eligible_iff, eligible_iff, hpending, same.enabled, same.priority, same.threshold]
  by_cases hclaim : c0.claim.1 = s
  · simp [hclaim]
  · simp [hclaim, Ne.symm hclaim]

theorem eligible_of_claim (hpos : 0 < c0.claim.1) : c0.Eligible c0.claim.1 ∧
    ∀ s, c0.Eligible s → s ≠ c0.claim.1 → (c0.plic.regs .c0c1).Precedes c0.claim.1 s := by
  obtain ⟨hs, helig, hfirst⟩ := bestSource_eq_some_iff.mp (bestSource_of_claim hpos)
  exact ⟨⟨hs, helig⟩, fun s hs => hfirst s hs.1 hs.2⟩

theorem not_eligible_of_claim (hzero : c0.claim.1 = 0) : ¬ c0.Eligible s := by
  intro ⟨hs, helig⟩
  rw [claim_fst_eq] at hzero
  cases hbest : (c0.plic.regs .c0c1).bestSource 0 with
  | none =>
    exact absurd ((bestSource_eq_none_iff.mp hbest s hs).symm.trans helig) Bool.false_ne_true
  | some s' =>
    have hpos := (bestSource_eq_some_iff.mp hbest).1.1
    rw [hbest, Option.getD_some] at hzero
    omega

/-- Sources that become or stop being pending without being enabled for hart 0 do not
change what it may claim. -/
theorem eligible_congr {c c' : C0State} (same : PlicSystem.SameConfig c.plic c'.plic)
    (hpending : (c.plic.regs .c0c1).enabled 0 s = true → IsSource s →
      c'.plic.pending .c0c1 s = c.plic.pending .c0c1 s) : c'.Eligible s ↔ c.Eligible s := by
  unfold Eligible
  refine and_congr_right fun hs => ?_
  rw [eligible_iff, eligible_iff, (same .c0c1).enabled, (same .c0c1).priority,
    (same .c0c1).threshold]
  by_cases henabled : (c.plic.regs .c0c1).enabled 0 s = true
  · have heq := hpending henabled hs
    rw [PlicSystem.pending, PlicSystem.pending] at heq
    rw [heq]
  · simp [henabled]

end C0State

/-! ### The loop invariant -/

/-- Hart 0 has none of the ids `32, …, 63` enabled. -/
def OwnIdsDisabled (c0 : C0State) : Prop :=
  ∀ s, s / 32 = 1 → (c0.plic.regs .c0c1).enabled 0 s = false

/-- The claimed id of a frame as a list: empty when the claim returned nothing. -/
def inHand (claimId : ℕ) : List ℕ := if claimId = 0 then [] else [claimId]

theorem mem_inHand {claimId s : ℕ} (hpos : 0 < s) : s ∈ inHand claimId ↔ claimId = s := by
  unfold inHand
  split_ifs with hzero
  · simp [hzero, hpos.ne]
  · simp [eq_comm]

/-- What holds at the loop head of a service started in `entry`. -/
structure DrainInv (event : ℕ → InterruptEvent) (entry : C0State) (f : DrainFrame)
    (ids : List ℕ) : Prop where
  config : PlicSystem.SameConfig entry.plic f.c0.plic
  logged : f.c0.log = entry.log ++ ids.map event
  counted : f.processed = ids.length
  stopped : f.claimId = 0 → ∀ s, ¬ f.c0.Eligible s
  draining : OwnIdsDisabled entry → Draining (entry.plic.regs .c0c1).Precedes entry.Eligible
    (ids ++ inHand f.claimId) f.c0.Eligible

section Invariant

variable {dispatch : C0State → ℕ → C0State} {event : ℕ → InterruptEvent} {entry c : C0State}
  {taken ids : List ℕ} {f f' : DrainFrame} {s : ℕ}

/-- One claim, from a state with the configuration of the entry state. -/
theorem draining_claim (same : PlicSystem.SameConfig entry.plic c.plic)
    (h : Draining (entry.plic.regs .c0c1).Precedes entry.Eligible taken c.Eligible) :
    Draining (entry.plic.regs .c0c1).Precedes entry.Eligible (taken ++ inHand c.claim.1)
      c.claim.2.Eligible := by
  -- either nothing is left to claim, or the first of what is left is taken
  rcases Nat.eq_zero_or_pos c.claim.1 with hzero | hpos
  · rw [inHand, if_pos hzero, List.append_nil]
    refine h.congr fun _ => C0State.eligible_claim.trans (and_iff_left_of_imp fun hs => ?_)
    rw [hzero]
    exact Nat.pos_iff_ne_zero.mp hs.1.1
  · rw [inHand, if_neg hpos.ne']
    obtain ⟨helig, hfirst⟩ := C0State.eligible_of_claim hpos
    refine h.take helig (fun s hs hne => ?_) fun _ => C0State.eligible_claim
    exact (same .c0c1).precedes_iff.mp (hfirst s hs hne)

theorem drainInv_start : DrainInv event entry ⟨entry.claim.2, entry.claim.1, 0⟩ [] where
  config := C0State.sameConfig_claim
  logged := (List.append_nil _).symm
  counted := rfl
  stopped hzero _ hs := C0State.not_eligible_of_claim hzero (C0State.eligible_claim.mp hs).1
  draining _ := draining_claim (.refl _) .start

/-- The state from which the loop body claims. -/
def served (dispatch : C0State → ℕ → C0State) (f : DrainFrame) : C0State :=
  (dispatch f.c0 f.claimId).compWrite .c0c1 0 f.claimId

theorem drainBody_eq_some_iff : drainBody .c0c1 0 dispatch f = some f' ↔
    0 < f.claimId ∧ f' = ⟨(served dispatch f).claim.2, (served dispatch f).claim.1,
      f.processed + 1⟩ := by
  unfold drainBody
  by_cases hpos : 0 < f.claimId
  · simp [hpos, served, C0State.claim, eq_comm]
  · simp [hpos]

theorem pending_served {b : PlicBlock} :
    (served dispatch f).plic.pending b s = (dispatch f.c0 f.claimId).plic.pending b s :=
  PlicSystem.pending_complete

theorem sameConfig_served (lawful : LawfulDispatch dispatch event) :
    PlicSystem.SameConfig f.c0.plic (served dispatch f).plic :=
  (lawful.config f.c0 f.claimId).trans PlicSystem.sameConfig_complete

/-- One iteration of the loop. -/
theorem drainInv_step (lawful : LawfulDispatch dispatch event) (inv : DrainInv event entry f ids)
    (continues : drainBody .c0c1 0 dispatch f = some f') :
    DrainInv event entry f' (ids ++ [f.claimId]) := by
  obtain ⟨hpos, rfl⟩ := drainBody_eq_some_iff.mp continues
  have same := inv.config.trans (sameConfig_served lawful (f := f))
  refine ⟨same.trans C0State.sameConfig_claim, ?_, ?_, ?_, fun disabled => ?_⟩
  · change (dispatch f.c0 f.claimId).log = _
    rw [lawful.records, inv.logged, List.map_append, List.append_assoc]
    rfl
  · simp [inv.counted]
  · exact fun hzero s hs =>
      C0State.not_eligible_of_claim hzero (C0State.eligible_claim.mp hs).1
  · have hdraining := inv.draining disabled
    rw [inHand, if_neg hpos.ne'] at hdraining
    refine draining_claim same (hdraining.congr fun s => ?_)
    -- what the dispatch changes in word 1 is not enabled for hart 0
    refine C0State.eligible_congr (sameConfig_served lawful) fun henabled hs => ?_
    rw [pending_served]
    refine lawful.other_words f.c0 f.claimId s hs fun hword => ?_
    rw [(inv.config .c0c1).enabled, disabled s hword] at henabled
    exact Bool.false_ne_true henabled

end Invariant

/-! ### Termination -/

/-- The response to hart 1 counts once, every other source twice. -/
def sourceWeight (s : ℕ) : ℕ := if s = responseToHart1 then 1 else 2

/-- The sources pending in the drained block. -/
def pendingPool (c0 : C0State) : Finset ℕ :=
  (Finset.Icc 1 1023).filter fun s => c0.plic.pending .c0c1 s = true

/-- The potential of a frame: the pending sources, and the one in hand. -/
def potential (f : DrainFrame) : ℕ :=
  ∑ s ∈ pendingPool f.c0, sourceWeight s + ((inHand f.claimId).map sourceWeight).sum

section Termination

variable {dispatch : C0State → ℕ → C0State} {event : ℕ → InterruptEvent} {c : C0State}
  {f f' : DrainFrame} {s : ℕ}

theorem mem_pendingPool :
    s ∈ pendingPool c ↔ IsSource s ∧ c.plic.pending .c0c1 s = true := by
  rw [pendingPool, Finset.mem_filter, Finset.mem_Icc, IsSource]

/-- A claim moves a source from the pool into the hand. -/
theorem potential_claim (processed : ℕ) :
    potential ⟨c.claim.2, c.claim.1, processed⟩ = ∑ s ∈ pendingPool c, sourceWeight s := by
  have hpool : pendingPool c.claim.2 = (pendingPool c).erase c.claim.1 := by
    ext s
    rw [Finset.mem_erase, mem_pendingPool, mem_pendingPool, and_left_comm]
    refine and_congr_right fun hs => ?_
    rw [C0State.pending_claim hs, Bool.and_eq_true, Bool.not_eq_true',
      decide_eq_false_iff_not, and_comm, and_iff_right rfl]
    exact and_congr_left fun _ => ne_comm
  simp only [potential, hpool]
  rcases Nat.eq_zero_or_pos c.claim.1 with hzero | hpos
  -- a claim that returns nothing leaves the pool as it is
  · rw [inHand, if_pos hzero, Finset.erase_eq_of_notMem]
    · rfl
    · intro hmem
      have := (mem_pendingPool.mp hmem).1.1
      omega
  · have helig := (C0State.eligible_of_claim hpos).1
    have hmem : c.claim.1 ∈ pendingPool c :=
      mem_pendingPool.mpr ⟨helig.1, (eligible_iff.mp helig.2).1⟩
    rw [inHand, if_neg hpos.ne', List.map_singleton, List.sum_singleton]
    exact Finset.sum_erase_add _ _ hmem

/-- A dispatch puts back less than the weight of the source it handles. -/
theorem sum_pendingPool_served_lt (lawful : LawfulDispatch dispatch event) :
    ∑ s ∈ pendingPool (served dispatch f), sourceWeight s <
      ∑ s ∈ pendingPool f.c0, sourceWeight s + sourceWeight f.claimId := by
  have hadds : ∀ s ∈ pendingPool (served dispatch f),
      s ∈ pendingPool f.c0 ∨ (s = responseToHart1 ∧ f.claimId ≠ responseToHart1) := by
    intro s hs
    obtain ⟨hsource, hpending⟩ := mem_pendingPool.mp hs
    rw [pending_served] at hpending
    exact (lawful.adds f.c0 f.claimId s hsource hpending).imp_left
      fun h => mem_pendingPool.mpr ⟨hsource, h⟩
  -- the response itself is paid back with nothing, any other id with the response
  by_cases hresponse : f.claimId = responseToHart1
  · have hsub : pendingPool (served dispatch f) ⊆ pendingPool f.c0 := fun s hs =>
      (hadds s hs).resolve_right fun h => h.2 hresponse
    have hle := Finset.sum_le_sum_of_subset (f := sourceWeight) hsub
    rw [sourceWeight, if_pos hresponse]
    omega
  · have hsub : pendingPool (served dispatch f) ⊆ insert responseToHart1 (pendingPool f.c0) :=
      fun s hs => Finset.mem_insert.mpr ((hadds s hs).symm.imp_left fun h => h.1)
    have hle := potential_le_of_subset_insert sourceWeight hsub
    rw [sourceWeight, if_neg hresponse]
    rw [sourceWeight, if_pos rfl] at hle
    omega

theorem potential_lt (lawful : LawfulDispatch dispatch event)
    (continues : drainBody .c0c1 0 dispatch f = some f') : potential f' < potential f := by
  obtain ⟨hpos, rfl⟩ := drainBody_eq_some_iff.mp continues
  rw [potential_claim, potential, inHand, if_neg hpos.ne', List.map_singleton,
    List.sum_singleton]
  exact sum_pendingPool_served_lt lawful

end Termination

/-! ### The service functions -/

/-- The service drains the block: it returns the number of claims it made, records their
events, leaves nothing eligible for hart 0, and when hart 0 has none of the ids
`32, …, 63` enabled it claims exactly what was eligible on entry, each once and in
arbitration order. -/
def DrainsFrom (service : ℕ → C0State → Option (ℕ × C0State)) (event : ℕ → InterruptEvent)
    (entry : C0State) : Prop :=
  ∃ (n : ℕ) (c0' : C0State) (ids : List ℕ), Serves service entry n c0' ∧ n = ids.length ∧
    c0'.log = entry.log ++ ids.map event ∧ (∀ s, ¬ c0'.Eligible s) ∧
    (OwnIdsDisabled entry → (∀ s, s ∈ ids ↔ entry.Eligible s) ∧ ids.Nodup ∧
      ids.Pairwise (entry.plic.regs .c0c1).Precedes)

theorem drainInterrupts_eq (dispatch : C0State → ℕ → C0State) (fuel : ℕ) (c0 : C0State) :
    drainInterrupts dispatch fuel c0 =
      (loop (drainBody .c0c1 0 dispatch) fuel ⟨c0.claim.2, c0.claim.1, 0⟩).map fun f =>
        (f.processed, f.c0) := by
  have hselect : c0.plic.plicSelect 0 = (some .c0c1, 0) :=
    PlicState.plicSelect_eq c0.plic.selected (by decide)
  simp only [drainInterrupts, hselect]
  rfl

/-- A service returns at most one result. -/
theorem Serves.unique {dispatch : C0State → ℕ → C0State} {c0 c0' c0'' : C0State} {n n' : ℕ}
    (first : Serves (drainInterrupts dispatch) c0 n c0')
    (second : Serves (drainInterrupts dispatch) c0 n' c0'') : n = n' ∧ c0' = c0'' := by
  obtain ⟨fuel, hfirst⟩ := first
  obtain ⟨fuel', hsecond⟩ := second
  rw [drainInterrupts_eq, Option.map_eq_some_iff] at hfirst hsecond
  obtain ⟨f, hf, hresult⟩ := hfirst
  obtain ⟨f', hf', hresult'⟩ := hsecond
  obtain rfl := Exits.unique ⟨fuel, hf⟩ ⟨fuel', hf'⟩
  exact Prod.mk.inj (hresult.symm.trans hresult')

section Service

variable {dispatch : C0State → ℕ → C0State} {event : ℕ → InterruptEvent}

/-- The service returns, and in the frame it stops in hold the loop invariant and any
other property that every iteration preserves. -/
theorem exists_final_frame (lawful : LawfulDispatch dispatch event) (entry : C0State)
    {J : DrainFrame → List ℕ → Prop} (start : J ⟨entry.claim.2, entry.claim.1, 0⟩ [])
    (step : ∀ f f' ids, DrainInv event entry f ids → J f ids →
      drainBody .c0c1 0 dispatch f = some f' → J f' (ids ++ [f.claimId])) :
    ∃ f ids, Serves (drainInterrupts dispatch) entry f.processed f.c0 ∧ f.claimId = 0 ∧
      DrainInv event entry f ids ∧ J f ids := by
  -- the potential bounds the iterations, then the invariants hold where the loop stops
  obtain ⟨f, fuel, hf⟩ : ∃ f, Exits (drainBody .c0c1 0 dispatch)
      ⟨entry.claim.2, entry.claim.1, 0⟩ f :=
    exists_exits_of_measure (I := fun _ => True) potential (fun _ _ _ _ => trivial)
      (fun _ _ _ continues => potential_lt lawful continues) trivial
  obtain ⟨⟨ids, inv, hJ⟩, hstop⟩ :=
    Exits.rule (I := fun f => ∃ ids, DrainInv event entry f ids ∧ J f ids)
      (fun f f' ⟨ids, inv, hJ⟩ continues =>
        ⟨_, drainInv_step lawful inv continues, step f f' ids inv hJ continues⟩)
      ⟨[], drainInv_start, start⟩ ⟨fuel, hf⟩
  refine ⟨f, ids, ⟨fuel, ?_⟩, ?_, inv, hJ⟩
  · rw [drainInterrupts_eq, hf]
    rfl
  · by_contra hne
    have hcontinues : drainBody .c0c1 0 dispatch f = some _ :=
      drainBody_eq_some_iff.mpr ⟨Nat.pos_of_ne_zero hne, rfl⟩
    rw [hstop] at hcontinues
    exact absurd hcontinues (by simp)

theorem drainInterrupts_drains (lawful : LawfulDispatch dispatch event) (entry : C0State) :
    DrainsFrom (drainInterrupts dispatch) event entry := by
  obtain ⟨f, ids, hserves, hzero, inv, -⟩ := exists_final_frame lawful entry
    (J := fun _ _ => True) trivial fun _ _ _ _ _ _ => trivial
  refine ⟨f.processed, f.c0, ids, hserves, inv.counted, inv.logged, inv.stopped hzero,
    fun disabled => ?_⟩
  have hdraining := inv.draining disabled
  rw [inHand, if_pos hzero, List.append_nil] at hdraining
  refine ⟨fun s => hdraining.mem_iff (inv.stopped hzero), ?_, hdraining.ordered⟩
  exact hdraining.ordered.imp Precedes.ne

end Service

/-- From every content of the registers both service functions of C0 terminate and
drain. -/
theorem c0_drains (entry : C0State) :
    DrainsFrom c0ProcessPlicInterrupts plicEvent entry ∧
      DrainsFrom c0ProcessEnhancedPlicInterrupts enhancedEvent entry :=
  ⟨drainInterrupts_drains C0State.lawfulDispatch_dispatchPlic entry,
    drainInterrupts_drains C0State.lawfulDispatch_dispatchEnhanced entry⟩

end MeshNoc
