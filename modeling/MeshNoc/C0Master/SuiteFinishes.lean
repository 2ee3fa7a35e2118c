import MeshNoc.C0Master.SuitePasses
import MeshNoc.C0Master.Progress

/-!
# The whole run finishes

Every run in which `malloc` succeeds and whose resets are quiet can be continued until C0 has
finished, and then all tests have passed, but for a parallel test that has waited in vain.

## Main results

* `suite_executes` — what has been executed, in every state of a run
* `suite_session_kept` — the test functions exclude each other, and none gets stuck
* `suite_finishes` — no run comes to a dead end
* `suite_passes` — the summary of a finished run
-/

namespace MeshNoc

open Lib
open TaskSystem

namespace SuiteRun

variable {r : SuiteRun} {u : Uninitialised} {id : ℕ} {first : Bool} {st : HalSystem}

/-- A test function that holds the session is on its way to its expected value: C0's own tests
are over. -/
theorem SuiteInv.good_of_held (inv : SuiteInv r) {thread : ℕ × TestFunc} {c : HalClient ℤ}
    (held : r.session.holder = some (thread, c)) :
    r.session.Good HalRequest.exec HalReady ReturnsExpected := by
  have passed := inv.prologue
  have hover : r.prologue = .behind := by
    by_contra hbefore
    have hfree := inv.session.free (passed.untouched hbefore).polls
    exact absurd (hfree.symm.trans held).symm (Option.some_ne_none _)
  unfold ProloguePassed at passed
  rw [hover] at passed
  exact passed.2.2

/-- What the steps of a run have to meet. -/
def Meets (r : SuiteRun) (actor : SuiteActor) : Prop :=
  actor.uninitialised.Allocates ∧ ∀ first u, actor = .c0 first u → r.Quiet

theorem meets_tile (r : SuiteRun) (id : ℕ) (first : Bool) :
    r.Meets (.tile id first .zeroed) :=
  ⟨Uninitialised.allocates_zeroed, fun _ _ h => nomatch h⟩

theorem meets_c0 (quiet : r.Quiet) (first : Bool) : r.Meets (.c0 first .zeroed) :=
  ⟨Uninitialised.allocates_zeroed, fun _ _ _ => quiet⟩

/-- The invariant of the run, with what its progress needs. -/
structure ProgressInv (r : SuiteRun) : Prop extends SuiteInv r where
  progress : HalRun.ProgressInv halTests r.run

@[simp] theorem advanceC0_run (rest : HalClient ℤ) (first : Bool) (back : HalClient ℤ → Prologue) :
    (r.advanceC0 rest first back).run = r.run := by
  unfold advanceC0
  split <;> rfl

/-- A step of a tile is one of the distributed run, or none of it. -/
theorem stepTile_frame (r : SuiteRun) (id : ℕ) (first : Bool) (u : Uninitialised) :
    ∃ run session, r.stepTile id first u = { r with run := run, session := session } ∧
      (run = r.run ∨ ∃ value, run = r.run.step halTests (.tile id value)) := by
  unfold SuiteRun.stepTile
  split
  · unfold SuiteRun.enter
    split
    · exact ⟨r.run, r.session, rfl, Or.inl rfl⟩
    · dsimp only
      split
      · exact ⟨_, _, rfl, Or.inr ⟨0, rfl⟩⟩
      · exact ⟨_, r.session, rfl, Or.inr ⟨0, rfl⟩⟩
  · unfold SuiteRun.proceed
    split_ifs
    · split
      · next value _ => exact ⟨_, r.session, rfl, Or.inr ⟨value, rfl⟩⟩
      · exact ⟨r.run, _, rfl, Or.inl rfl⟩
    · exact ⟨r.run, r.session, rfl, Or.inl rfl⟩
  · exact ⟨_, _, rfl, Or.inr ⟨0, rfl⟩⟩
  · exact ⟨_, r.session, rfl, Or.inr ⟨0, rfl⟩⟩

/-- What a step of C0 is for the distributed run. -/
theorem stepC0_run (inv : SuiteInv r) (quiet : r.Quiet) (first : Bool) (u : Uninitialised) :
    (r.stepC0 first u).run = r.run ∨
      (r.stepC0 first u).run = r.run.stepC0 halTests ∧ r.run.Quiet := by
  unfold SuiteRun.stepC0
  split
  · exact Or.inl rfl
  · exact Or.inl (advanceC0_run ..)
  · exact Or.inl rfl
  · exact Or.inl (advanceC0_run ..)
  · exact Or.inl rfl
  · exact Or.inl (advanceC0_run ..)
  · rcases stepRun_run inv.parallel quiet with hrun | hrun
    · exact Or.inr hrun
    · exact Or.inl hrun.1

namespace ProgressInv

theorem start (ready : HalReady st) (u : Uninitialised) : ProgressInv (SuiteRun.start st u) where
  toSuiteInv := .start ready u
  progress := .start halTests

theorem step (inv : ProgressInv r) {actor : SuiteActor} (meets : r.Meets actor) :
    ProgressInv (r.step actor) := by
  refine ⟨inv.toSuiteInv.step meets.1 meets.2, ?_⟩
  have hprogress := inv.progress
  cases actor with
  | c0 first u =>
    rcases stepC0_run inv.toSuiteInv (meets.2 first u rfl) first u with hrun | ⟨hrun, hquiet⟩
    · exact hrun ▸ hprogress
    · exact hrun ▸ hprogress.stepC0 (by decide) hquiet
  | tile id first u =>
    simp only [SuiteRun.step]
    split_ifs
    · obtain ⟨run, session, heq, hrun⟩ := r.stepTile_frame id first u
      rw [heq]
      rcases hrun with rfl | ⟨value, rfl⟩
      · exact hprogress
      · exact hprogress.stepTile id value
    · exact hprogress

end ProgressInv

/-! ### The tiles come to rest -/

/-- How far C0 is. -/
def c0Rank (r : SuiteRun) : ℕ := 3 * r.run.c0Rank halTests + r.parallel.unread

/-- Behind the tests of C0, which is at a certain point. -/
structure BehindInv (rank : ℕ) (r : SuiteRun) : Prop extends ProgressInv r where
  behind : r.prologue = .behind
  c0Rank : r.c0Rank = rank

/-- A step of a tile leaves C0 where it is. -/
theorem BehindInv.step_tile {rank : ℕ} (inv : BehindInv rank r) (id : ℕ) (first : Bool) :
    BehindInv rank (r.step (.tile id first .zeroed)) := by
  refine ⟨inv.toProgressInv.step (r.meets_tile id first), ?_, ?_⟩
  · simp only [SuiteRun.step]
    split_ifs
    · obtain ⟨run, session, heq, -⟩ := r.stepTile_frame id first .zeroed
      rw [heq]
      exact inv.behind
    · exact inv.behind
  · simp only [SuiteRun.step]
    split_ifs with hvalid
    · obtain ⟨run, session, heq, hrun⟩ := r.stepTile_frame id first .zeroed
      rw [heq, ← inv.c0Rank]
      rcases hrun with rfl | ⟨value, rfl⟩
      · rfl
      · simp only [SuiteRun.c0Rank, HalRun.c0Rank, HalRun.step, TaskSystem.step, if_pos hvalid,
          (stepTile_leaves ..).c0]
    · exact inv.c0Rank

/-- Only tiles with a thread have a task. -/
theorem ProgressInv.valid_of_busy (inv : ProgressInv r) (busy : (r.run.sys.tiles id).pc ≠ .poll) :
    1 ≤ id ∧ id < r.run.sys.nodeCount := by
  refine ⟨Nat.one_le_iff_ne_zero.mpr fun hzero => busy ?_, Nat.lt_of_not_le fun hge => busy ?_⟩
  · rw [hzero]
    exact inv.progress.master
  · exact inv.run.outside id hge

/-- A step of a tile that has a task, or finds one, lowers the work. -/
theorem work_lt (inv : SuiteInv r) (valid : 1 ≤ id ∧ id < r.run.sys.nodeCount) (value : ℤ)
    {r' : SuiteRun} (run : r'.run = r.run.step halTests (.tile id value))
    (works : (r.run.sys.tiles id).pc ≠ .poll ∨ ∃ slot, r.run.sys.Eligible id slot) :
    r'.run.sys.work < r.run.sys.work := by
  rw [run]
  simp only [HalRun.step, TaskSystem.step, if_pos valid]
  exact work_stepTile inv.run.dispatch valid.2 works

/-- The next state of the work: less is left to do. -/
def Lowers (rank : ℕ) (r r' : SuiteRun) : Prop :=
  BehindInv rank r' ∧ r'.run.sys.work < r.run.sys.work

/-- With the session free a tile that has a task, or finds one, takes its step. -/
theorem BehindInv.lowers_of_free {rank : ℕ} (inv : BehindInv rank r)
    (valid : 1 ≤ id ∧ id < r.run.sys.nodeCount) (free : r.session.holder = none)
    (works : (r.run.sys.tiles id).pc ≠ .poll ∨ ∃ slot, r.run.sys.Eligible id slot) :
    CanReach SuiteRun.step Meets (Lowers rank r) r := by
  refine CanReach.one (r.meets_tile id true) ⟨inv.step_tile id true, ?_⟩
  refine work_lt inv.toSuiteInv valid 0 ?_ works
  have houtside : (r.run.sys.tiles id).pc.inSession = false := by
    by_contra hinside
    obtain ⟨func, c, hheld⟩ := inv.session.occupied id (Bool.not_eq_false _ ▸ hinside)
    exact absurd (free.symm.trans hheld).symm (Option.some_ne_none _)
  simp only [SuiteRun.step, if_pos valid, SuiteRun.stepTile]
  cases hpc : (r.run.sys.tiles id).pc with
  | call slot =>
    obtain ⟨own, -, func, -, -, hparams, hplatform, -⟩ := inv.own_of_call hpc
    simp only [SuiteRun.enter, free, hparams, hplatform]
  | running slot task | storeResult slot value => simp [hpc, TilePc.inSession] at houtside
  | _ => rfl

/-- The tile that has ended its test function stores the result, or returns first. -/
theorem BehindInv.lowers_of_ended {rank : ℕ} {func : TestFunc} {value : ℤ} (inv : BehindInv rank r)
    (held : r.session.holder = some ((id, func), .done value))
    (valid : 1 ≤ id ∧ id < r.run.sys.nodeCount) :
    CanReach SuiteRun.step Meets (Lowers rank r) r := by
  have hended : r.session.ended = some ((id, func), value) := by rw [Session.ended, held]
  have hholder : r.holderTile = some id := by rw [holderTile, held]; rfl
  refine CanReach.one (r.meets_tile id true) ⟨inv.step_tile id true, ?_⟩
  have hinside := inv.session.inSession held
  have hbusy : (r.run.sys.tiles id).pc ≠ .poll := by
    intro hpoll
    rw [hpoll] at hinside
    exact Bool.false_ne_true hinside
  simp only [SuiteRun.step, if_pos valid, SuiteRun.stepTile]
  cases hpc : (r.run.sys.tiles id).pc with
  | running slot task =>
    refine work_lt inv.toSuiteInv valid value ?_ (Or.inl hbusy)
    simp only [SuiteRun.proceed, if_pos hholder, hended]
  | storeResult slot value => exact work_lt inv.toSuiteInv valid 0 rfl (Or.inl hbusy)
  | _ => simp [hpc, TilePc.inSession] at hinside

/-- The tile that holds the session gets on: its test function comes to its end, and behind
it the result is stored. -/
theorem BehindInv.lowers_of_held {rank : ℕ} {func : TestFunc} {c : HalClient ℤ}
    {shared : HalSystem} {Q : ℤ → HalSystem → Prop} (verified : c.wp HalRequest.exec Q shared)
    (inv : BehindInv rank r) (session : r.session = ⟨some ((id, func), c), shared⟩)
    (valid : 1 ≤ id ∧ id < r.run.sys.nodeCount) :
    CanReach SuiteRun.step Meets (Lowers rank r) r := by
  let motive (c : HalClient ℤ) (shared : HalSystem) : Prop :=
    ∀ r : SuiteRun, BehindInv rank r → r.session = ⟨some ((id, func), c), shared⟩ →
      id < r.run.sys.nodeCount → CanReach SuiteRun.step Meets (Lowers rank r) r
  refine Client.wp_follow (motive := motive) verified ?_ ?_ r inv session valid.2
  · intro value shared _ r inv hsession hlt
    exact inv.lowers_of_ended (by rw [hsession]) ⟨valid.1, hlt⟩
  · intro c shared c' shared' hadvance hnext r inv hsession hlt
    have hheld : r.session.holder = some ((id, func), c) := by rw [hsession]
    have hended : r.session.ended = none := by
      unfold Session.ended
      rw [hheld]
      cases c with
      | done value => exact absurd hadvance.symm (Option.some_ne_none _)
      | call input next => rfl
      | race first second => rfl
      | undefined => rfl
    have hinside := inv.session.inSession hheld
    have hrunning : ∃ slot task, (r.run.sys.tiles id).pc = .running slot task := by
      obtain ⟨own, -, -, ⟨slot, hpc⟩ | ⟨slot, value, -, v, rfl⟩⟩ := inv.session.holder _ _ hheld
      · exact ⟨slot, _, hpc⟩
      · exact absurd hadvance.symm (Option.some_ne_none _)
    obtain ⟨slot, task, hpc⟩ := hrunning
    have hstep : r.step (.tile id true .zeroed) =
        { r with session := ⟨some ((id, func), c'), shared'⟩ } := by
      have hholder : r.holderTile = some id := by rw [holderTile, hheld]; rfl
      have hvalid : 1 ≤ id ∧ id < r.run.sys.nodeCount := ⟨valid.1, hlt⟩
      have hsessionStep : r.session.advance HalRequest.exec true =
          ⟨some ((id, func), c'), shared'⟩ := by
        simp only [Session.advance, hsession, hadvance]
      simp only [SuiteRun.step, if_pos hvalid, SuiteRun.stepTile, hpc, SuiteRun.proceed,
        if_pos hholder, hended, hsessionStep]
    refine CanReach.cons (r.meets_tile id true) ?_
    have hinv := inv.step_tile id true
    rw [hstep] at hinv ⊢
    exact hnext _ hinv rfl hlt

/-- The tiles come to rest. -/
theorem BehindInv.can_drain {rank : ℕ} (inv : BehindInv rank r) :
    CanReach SuiteRun.step Meets (fun r' => BehindInv rank r' ∧ r'.run.sys.Drained) r := by
  refine canReach_of_measure (fun r => r.run.sys.work) (fun r inv => ?_) inv
  cases hheld : r.session.holder with
  | some holder =>
    obtain ⟨⟨id, func⟩, c⟩ := holder
    have hbusy : (r.run.sys.tiles id).pc ≠ .poll := by
      intro hpoll
      have hinside := inv.session.inSession hheld
      rw [hpoll] at hinside
      exact Bool.false_ne_true hinside
    have hsession : r.session = ⟨some ((id, func), c), r.session.shared⟩ := by rw [← hheld]
    exact Or.inr (inv.lowers_of_held ((inv.good_of_held hheld).wp hheld) hsession
      (inv.valid_of_busy hbusy))
  | none =>
    by_cases hbusy : ∃ id, (r.run.sys.tiles id).pc ≠ .poll
    · obtain ⟨id, hpc⟩ := hbusy
      exact Or.inr (inv.lowers_of_free (inv.valid_of_busy hpc) hheld (Or.inl hpc))
    by_cases hfinds : ∃ id, 1 ≤ id ∧ id < r.run.sys.nodeCount ∧
        ∃ slot, r.run.sys.Eligible id slot
    · obtain ⟨id, hpos, hlt, hslot⟩ := hfinds
      exact Or.inr (inv.lowers_of_free ⟨hpos, hlt⟩ hheld (Or.inr hslot))
    · push Not at hbusy hfinds
      exact Or.inl ⟨fun tile _ => hbusy tile, fun tile hpos hlt => hfinds tile hpos hlt⟩

/-! ### C0 comes to its end -/

theorem quiet_of_drained (drained : r.run.sys.Drained) : r.Quiet := fun _ =>
  ⟨fun _ tile hlt => by rw [drained.polls tile hlt]; rfl,
    fun _ tile hlt => by rw [drained.polls tile hlt]; rfl⟩

/-- C0 has no reset before it. -/
theorem quiet_of_finished (finished : r.run.phase = .finished) : r.Quiet := fun _ =>
  ⟨fun h => HalPhase.noConfusion (finished.symm.trans h),
    fun h => HalPhase.noConfusion (finished.symm.trans h)⟩

/-- With all tiles at rest C0 takes its next step. -/
theorem BehindInv.lowers_of_drained {rank : ℕ} (inv : BehindInv rank r)
    (drained : r.run.sys.Drained) (running : r.run.phase ≠ .finished) :
    ∃ rank' < rank, CanReach SuiteRun.step Meets (BehindInv rank') r := by
  have hquiet := quiet_of_drained drained
  have hstep : r.step (.c0 true .zeroed) = r.stepRun := by
    simp only [SuiteRun.step, SuiteRun.stepC0, inv.behind]
  have hinv := inv.toProgressInv.step (meets_c0 hquiet true)
  have hover : r.stepRun.prologue = .behind := by
    rw [stepRun_frame]
    exact inv.behind
  rw [hstep] at hinv
  have hreach : CanReach SuiteRun.step Meets (BehindInv r.stepRun.c0Rank) r := by
    refine CanReach.one (meets_c0 hquiet true) ?_
    rw [hstep]
    exact ⟨hinv, hover, rfl⟩
  refine ⟨r.stepRun.c0Rank, ?_, hreach⟩
  have hunread (verdict : Verdict) : verdict.unread ≤ 2 := by
    cases verdict <;> simp [Verdict.unread]
  rw [← inv.c0Rank]
  unfold SuiteRun.c0Rank
  rcases stepRun_run inv.parallel hquiet with ⟨hrun, -⟩ | ⟨hrun, hless⟩
  · have hrank := HalRun.rank_stepC0 inv.run
      (fun hwait => inv.progress.completed_of_drained drained hwait) running
    rw [hrun]
    have hle := hunread r.stepRun.parallel
    omega
  · rw [hrun]
    omega

/-- Behind C0's own tests the run can be finished. -/
theorem BehindInv.can_finish {rank : ℕ} (inv : BehindInv rank r) :
    CanReach SuiteRun.step Meets (fun r' => ProgressInv r' ∧ r'.run.phase = .finished) r := by
  induction rank using Nat.strongRecOn generalizing r with
  | ind rank ih =>
    refine inv.can_drain.bind fun r' ⟨inv', drained⟩ => ?_
    by_cases hphase : r'.run.phase = .finished
    · exact CanReach.here ⟨inv'.toProgressInv, hphase⟩
    · obtain ⟨rank', hlt, hreach⟩ := inv'.lowers_of_drained drained hphase
      exact hreach.bind fun r'' inv'' => ih rank' hlt inv''

/-! ### C0's own tests come to their end -/

theorem ProgressInv.quiet_before (inv : ProgressInv r) (before : r.prologue ≠ .behind) :
    r.Quiet := by
  have hparallel := inv.parallel
  unfold ParallelInv at hparallel
  rw [(inv.prologue.untouched before).phase] at hparallel
  intro hknown
  rw [hparallel.1] at hknown
  exact absurd hknown Bool.false_ne_true

/-- The tests that run on C0. -/
inductive OwnTest : (HalClient ℤ → Prologue) → Prop
  | gather : OwnTest .gather
  | distribute : OwnTest .distribute
  | clear : OwnTest .clear

theorem OwnTest.before {back : HalClient ℤ → Prologue} (own : OwnTest back) (c : HalClient ℤ) :
    back c ≠ .behind := by
  cases own <;> exact fun h => nomatch h

/-- C0 makes the next request of the test it is in. -/
theorem OwnTest.stepC0 {back : HalClient ℤ → Prologue} (own : OwnTest back)
    {c c' : HalClient ℤ} {shared' : HalSystem} (prologue : r.prologue = back c)
    (advance : c.advance HalRequest.exec first r.session.shared = some (c', shared')) :
    r.stepC0 first u =
      { r with prologue := back c', session := ⟨r.session.holder, shared'⟩ } := by
  have hadvance : r.advanceC0 c first back =
      { r with prologue := back c', session := ⟨r.session.holder, shared'⟩ } := by
    simp only [advanceC0, advance]
  cases c with
  | done value => exact absurd advance.symm (Option.some_ne_none _)
  | undefined => exact absurd advance.symm (Option.some_ne_none _)
  | call input next => cases own <;> simpa only [SuiteRun.stepC0, prologue] using hadvance
  | race c d => cases own <;> simpa only [SuiteRun.stepC0, prologue] using hadvance

/-- A test on C0 comes to its end, and C0 goes on behind it. -/
theorem ProgressInv.can_end {back : HalClient ℤ → Prologue} (own : OwnTest back)
    {c : HalClient ℤ} {shared : HalSystem} {Q : ℤ → HalSystem → Prop} {P : SuiteRun → Prop}
    (verified : c.wp HalRequest.exec Q shared) (inv : ProgressInv r)
    (prologue : r.prologue = back c) (session : r.session.shared = shared)
    (next : ∀ r : SuiteRun, ∀ value, ProgressInv (r.stepC0 true .zeroed) →
      r.prologue = back (.done value) → CanReach SuiteRun.step Meets P (r.stepC0 true .zeroed)) :
    CanReach SuiteRun.step Meets P r := by
  let motive (c : HalClient ℤ) (shared : HalSystem) : Prop :=
    ∀ r : SuiteRun, ProgressInv r → r.prologue = back c → r.session.shared = shared →
      CanReach SuiteRun.step Meets P r
  refine Client.wp_follow (motive := motive) verified ?_ ?_ r inv prologue session
  · intro value shared _ r inv hprologue _
    have hmeets := meets_c0 (inv.quiet_before (hprologue ▸ own.before (.done value))) true
    exact CanReach.cons hmeets (next r value (inv.step hmeets) hprologue)
  · intro c shared c' shared' hadvance hnext r inv hprologue hshared
    have hmeets := meets_c0 (inv.quiet_before (hprologue ▸ own.before c)) true
    have hstep : r.step (.c0 true .zeroed) = _ := own.stepC0 hprologue (hshared ▸ hadvance)
    have hinv := inv.step hmeets
    refine CanReach.cons hmeets ?_
    rw [hstep] at hinv ⊢
    exact hnext _ hinv rfl rfl

/-- From every state of the invariant the run can be finished. -/
theorem ProgressInv.can_finish (inv : ProgressInv r) :
    CanReach SuiteRun.step Meets (fun r' => ProgressInv r' ∧ r'.run.phase = .finished) r := by
  have hclear (r : SuiteRun) (rest : HalClient ℤ) (inv : ProgressInv r)
      (hprologue : r.prologue = .clear rest) :
      CanReach SuiteRun.step Meets (fun r' => ProgressInv r' ∧ r'.run.phase = .finished) r := by
    have passed := inv.prologue
    unfold ProloguePassed at passed
    rw [hprologue] at passed
    refine inv.can_end .clear passed.2.2.2 hprologue rfl fun r value inv' hdone => ?_
    simp only [SuiteRun.stepC0, hdone] at inv' ⊢
    exact BehindInv.can_finish ⟨inv', rfl, rfl⟩
  have hdistribute (r : SuiteRun) (rest : HalClient ℤ) (inv : ProgressInv r)
      (hprologue : r.prologue = .distribute rest) :
      CanReach SuiteRun.step Meets (fun r' => ProgressInv r' ∧ r'.run.phase = .finished) r := by
    have passed := inv.prologue
    unfold ProloguePassed at passed
    rw [hprologue] at passed
    refine inv.can_end .distribute passed.2.2 hprologue rfl fun r value inv' hdone => ?_
    simp only [SuiteRun.stepC0, hdone] at inv' ⊢
    exact hclear _ _ inv' rfl
  cases hprologue : r.prologue with
  | gather rest =>
    have passed := inv.prologue
    unfold ProloguePassed at passed
    rw [hprologue] at passed
    refine inv.can_end .gather passed.2 hprologue rfl fun r value inv' hdone => ?_
    simp only [SuiteRun.stepC0, hdone] at inv' ⊢
    exact hdistribute _ _ inv' rfl
  | distribute rest => exact hdistribute r rest inv hprologue
  | clear rest => exact hclear r rest inv hprologue
  | behind => exact BehindInv.can_finish ⟨inv, hprologue, rfl⟩

/-- A run all of whose steps meet what they have to. -/
theorem of_eachStep {actors : List SuiteActor} (each : EachStep SuiteRun.step Meets r actors) :
    (∀ actor ∈ actors, actor.uninitialised.Allocates) ∧ r.ResetsQuiet actors := by
  induction actors generalizing r with
  | nil => exact ⟨fun actor h => absurd h List.not_mem_nil, trivial⟩
  | cons actor rest ih =>
    obtain ⟨hallocates, hquiet⟩ := ih each.2
    refine ⟨List.forall_mem_cons.mpr ⟨each.1.1, hallocates⟩, ?_⟩
    cases actor with
    | c0 first u => exact ⟨each.1.2 first u rfl, hquiet⟩
    | tile id first u => exact hquiet

theorem resetsQuiet_append {before after : List SuiteActor} (quiet : r.ResetsQuiet before)
    (rest : (r.runFrom before).ResetsQuiet after) : r.ResetsQuiet (before ++ after) := by
  induction before generalizing r with
  | nil => exact rest
  | cons actor before ih =>
    cases actor with
    | c0 first u => exact ⟨quiet.1, ih quiet.2 rest⟩
    | tile id first u => exact ih (r := r.step (.tile id first u)) quiet rest

theorem ProgressInv.run_from {actors : List SuiteActor} (inv : ProgressInv r)
    (allocates : ∀ actor ∈ actors, actor.uninitialised.Allocates)
    (quiet : ResetsQuiet r actors) : ProgressInv (r.runFrom actors) := by
  induction actors generalizing r with
  | nil => exact inv
  | cons actor rest ih =>
    obtain ⟨hactor, hrest⟩ := List.forall_mem_cons.mp allocates
    cases actor with
    | c0 first u => exact ih (inv.step ⟨hactor, fun _ _ _ => quiet.1⟩) hrest quiet.2
    | tile id first u => exact ih (inv.step ⟨hactor, fun _ _ h => nomatch h⟩) hrest quiet

/-- Some run finishes. -/
theorem exists_finished (ready : HalReady st) (u : Uninitialised) :
    ∃ actors, (∀ actor ∈ actors, actor.uninitialised.Allocates) ∧
      (SuiteRun.start st u).ResetsQuiet actors ∧
        ((SuiteRun.start st u).runFrom actors).run.phase = .finished := by
  obtain ⟨actors, heach, -, hfinished⟩ := (ProgressInv.start ready u).can_finish
  obtain ⟨hallocates, hquiet⟩ := of_eachStep heach
  exact ⟨actors, hallocates, hquiet, hfinished⟩

/-! ### What holds in every state -/

/-- What was executed, and what was stored. -/
structure Executed (r : SuiteRun) : Prop where
  executed : ∀ e ∈ r.run.sys.history.executed, ∃ c ∈ r.run.sys.history.created,
    c.task = e.task ∧ ∃ func, c.test.testFunc = some func ∧ e.value = expectedValue func
  results : ∀ ptr, r.run.sys.results ptr = 0 ∨ r.run.sys.results ptr = expectedResult ptr

/-- In every run in which `malloc` succeeds and whose resets are quiet, whatever the schedule
and whatever memory holds at its start, each task that was executed returned the value expected
of its function, and each result that was stored is the expected one. -/
theorem suite_executes (ready : HalReady st) (u : Uninitialised) {actors : List SuiteActor}
    (allocates : ∀ actor ∈ actors, actor.uninitialised.Allocates)
    (quiet : (start st u).ResetsQuiet actors) : ((start st u).runFrom actors).Executed := by
  have inv := (SuiteInv.start ready u).run_from allocates quiet
  refine ⟨fun e he => ?_, inv.values.results⟩
  obtain ⟨c, hc, htask, hvalue⟩ := inv.values.executed e he
  obtain ⟨func, -, ptr, hfunc, -⟩ := suiteTests_expected (inv.values.created c hc)
  exact ⟨c, hc, htask, func, hfunc, hvalue func hfunc⟩

/-- In a run that has finished. -/
theorem suite_executes_finished : ∃ st actors, HalReady st ∧
    ((SuiteRun.start st .zeroed).runFrom actors).run.phase = .finished ∧
      ((SuiteRun.start st .zeroed).runFrom actors).Executed := by
  have ready := halReady_afterSetup platformSetup_eq
  obtain ⟨actors, hallocates, hquiet, hfinished⟩ := exists_finished ready .zeroed
  exact ⟨_, actors, ready, hfinished, suite_executes ready .zeroed hallocates hquiet⟩

/-- The print session keeps the tests apart. -/
structure SessionKept (r : SuiteRun) : Prop where
  /-- One tile at a time is in a test function, or has its result still to store. -/
  alone : ∀ tile other, (r.run.sys.tiles tile).pc.inSession = true →
    (r.run.sys.tiles other).pc.inSession = true → tile = other
  /-- Behind C0's own tests, and between two test functions, the platform is ready. -/
  ready : r.prologue = .behind → r.session.holder = none → HalReady r.session.shared
  /-- A test function has returned the value expected of it, or its next request is defined. -/
  proceeds : ∀ thread c, r.session.holder = some (thread, c) → ∀ first,
    c = .done (expectedValue thread.2) ∨
      ∃ c' shared', c.advance HalRequest.exec first r.session.shared = some (c', shared')

/-- In every run in which `malloc` succeeds and whose resets are quiet the test functions of the
tiles exclude each other; the platform is ready whenever none of them runs, once C0 is behind
its own tests; and none of them gets stuck. -/
theorem suite_session_kept (ready : HalReady st) (u : Uninitialised) {actors : List SuiteActor}
    (allocates : ∀ actor ∈ actors, actor.uninitialised.Allocates)
    (quiet : (start st u).ResetsQuiet actors) : ((start st u).runFrom actors).SessionKept := by
  have inv := (SuiteInv.start ready u).run_from allocates quiet
  refine ⟨fun tile other hinside hother => ?_, fun hover hfree => ?_,
    fun thread c hheld first => ?_⟩
  · obtain ⟨func, c, hheld⟩ := inv.session.occupied tile hinside
    exact inv.session.holder_of_inSession hheld hother
  · have passed := inv.prologue
    unfold ProloguePassed at passed
    rw [hover] at passed
    exact passed.2.2.invariant hfree
  · have good := inv.good_of_held hheld
    rcases Client.advance_defined (good.wp hheld) first with ⟨value, rfl, hvalue⟩ | hstep
    · exact Or.inl (congrArg Client.done hvalue.1)
    · exact Or.inr hstep

theorem suite_session_kept_finished : ∃ st actors, HalReady st ∧
    ((SuiteRun.start st .zeroed).runFrom actors).run.phase = .finished ∧
      ((SuiteRun.start st .zeroed).runFrom actors).SessionKept := by
  have ready := halReady_afterSetup platformSetup_eq
  obtain ⟨actors, hallocates, hquiet, hfinished⟩ := exists_finished ready .zeroed
  exact ⟨_, actors, ready, hfinished, suite_session_kept ready .zeroed hallocates hquiet⟩

/-! ### The end of the run -/

/-- Every run in which `malloc` succeeds and whose resets are quiet can be continued, by steps of
the same kind, until C0 has finished: no schedule leads to a dead end. -/
theorem suite_finishes (ready : HalReady st) (u : Uninitialised) {actors : List SuiteActor}
    (allocates : ∀ actor ∈ actors, actor.uninitialised.Allocates)
    (quiet : (SuiteRun.start st u).ResetsQuiet actors) :
    ∃ rest, (∀ actor ∈ rest, actor.uninitialised.Allocates) ∧
      (SuiteRun.start st u).ResetsQuiet (actors ++ rest) ∧
        ((SuiteRun.start st u).runFrom (actors ++ rest)).run.phase = .finished := by
  have inv := (ProgressInv.start ready u).run_from allocates quiet
  obtain ⟨rest, heach, -, hfinished⟩ := inv.can_finish
  obtain ⟨hallocates, hquiet⟩ := of_eachStep heach
  refine ⟨rest, hallocates, resetsQuiet_append quiet hquiet, ?_⟩
  rw [runFrom, List.foldl_append]
  exact hfinished

/-- After C0's first request. -/
theorem suite_finishes_gather : ∃ st rest, HalReady st ∧
    ((SuiteRun.start st .zeroed).runFrom
      (.c0 true .zeroed :: rest)).run.phase = .finished := by
  have ready := halReady_afterSetup platformSetup_eq
  have hquiet (st : HalSystem) : (SuiteRun.start st .zeroed).ResetsQuiet [.c0 true .zeroed] :=
    ⟨fun hknown => absurd hknown Bool.false_ne_true, trivial⟩
  have hallocates : ∀ actor ∈ [SuiteActor.c0 true .zeroed], actor.uninitialised.Allocates :=
    List.forall_mem_singleton.mpr Uninitialised.allocates_zeroed
  obtain ⟨rest, -, -, hfinished⟩ := suite_finishes ready .zeroed hallocates (hquiet _)
  exact ⟨_, rest, ready, hfinished⟩

/-- The summary: C0's tests and the tests of the tiles pass, and the parallel test does
unless its loop came to the timeout. -/
structure Passed (r : SuiteRun) : Prop where
  gather : r.gatherResult = 1
  distribute : r.distributeResult = 1
  hal : ∀ i < halTests.length, r.run.sys.results (.halTest i) = 1
  parallel : r.parallelResult = 0 ∨ r.parallelResult = 1
  in_time : r.waitCycles < maxWaitCycles → r.parallelResult = 1
  total : r.totalPassed = 18 + r.parallelResult

theorem SuiteInv.results_finished (inv : SuiteInv r) (finished : r.run.phase = .finished) :
    ∀ i < halTests.length, r.run.sys.results (.halTest i) = 1 := by
  obtain ⟨hcreated, hdone⟩ := inv.run.batchIsolated.waited finished
  intro i hi
  have hmem : halTest i halTests[i] ∈ r.run.sys.history.created.map Creation.test := by
    rw [← List.mem_reverse, hcreated]
    exact List.mem_of_getElem? (batchTests_getElem? (List.getElem?_eq_getElem hi))
  obtain ⟨c, hc, htest⟩ := List.mem_map.mp hmem
  obtain ⟨e, he, htask, hresult⟩ := (hdone c hc).2 (.halTest i) (by rw [htest]; rfl)
  -- the value was returned by the function of the row
  obtain ⟨c', hc', htask', hvalue⟩ := inv.values.executed e he
  obtain rfl := List.inj_on_of_nodup_map inv.run.dispatch.created_once hc' hc
    (htask'.trans htask)
  rw [hresult, hvalue halTests[i].1 (by rw [htest]; rfl)]
  exact (halTests_expected _ (List.getElem_mem hi)).2

theorem SuiteInv.passed (inv : SuiteInv r) (finished : r.run.phase = .finished) : r.Passed := by
  have hhal := inv.results_finished finished
  -- C0 is behind its own tests
  have hover : r.prologue = .behind := by
    by_contra hbefore
    have hphase := (inv.prologue.untouched hbefore).phase
    rw [finished] at hphase
    exact nomatch hphase
  have passed := inv.prologue
  unfold ProloguePassed at passed
  rw [hover] at passed
  have hparallel := inv.parallel
  unfold ParallelInv at hparallel
  rw [finished] at hparallel
  obtain ⟨success, hverdict⟩ : ∃ success, r.parallel = .known success := by
    cases hverdict : r.parallel with
    | known success => exact ⟨success, rfl⟩
    | pending | second =>
      rw [hverdict] at hparallel
      exact absurd hparallel.1 Bool.false_ne_true
  have hsound := hparallel.2
  have hresult : r.parallelResult = success := by simp only [parallelResult, hverdict]
  rw [hverdict] at hsound
  refine ⟨passed.1, passed.2.1, hhal, hresult ▸ hsound.1, hresult ▸ hsound.2, ?_⟩
  have hsum : r.halPassed = 16 := by
    unfold halPassed
    rw [Finset.sum_congr rfl fun i hi => hhal i (Finset.mem_range.mp hi)]
    rfl
  rw [totalPassed, passed.1, passed.2.1, hsum]
  omega

/-- When C0 has finished, its summary counts 19 of 19 tests as passed, or 18 if the parallel
test has waited 300 cycles: in every run in which `malloc` succeeds and whose resets are quiet,
whatever the schedule and whatever memory holds at its start. -/
theorem suite_passes (ready : HalReady st) (u : Uninitialised) {actors : List SuiteActor}
    (allocates : ∀ actor ∈ actors, actor.uninitialised.Allocates)
    (quiet : (SuiteRun.start st u).ResetsQuiet actors)
    (finished : ((SuiteRun.start st u).runFrom actors).run.phase = .finished) :
    ((SuiteRun.start st u).runFrom actors).Passed :=
  ((SuiteInv.start ready u).run_from allocates quiet).passed finished

/-- From the platform as set up. -/
theorem suite_passes_afterSetup : ∃ st actors, HalReady st ∧
    ((SuiteRun.start st .zeroed).runFrom actors).run.phase = .finished ∧
      ((SuiteRun.start st .zeroed).runFrom actors).Passed := by
  have ready := halReady_afterSetup platformSetup_eq
  obtain ⟨actors, hallocates, hquiet, hfinished⟩ := exists_finished ready .zeroed
  exact ⟨_, actors, ready, hfinished, suite_passes ready .zeroed hallocates hquiet hfinished⟩

end SuiteRun

end MeshNoc
