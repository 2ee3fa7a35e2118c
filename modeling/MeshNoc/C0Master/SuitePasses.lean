import MeshNoc.C0Master.SuiteInvariants
import MeshNoc.C0Master.Progress

/-!
# The whole run passes

In every run of C0 and the tiles whose resets are quiet, whatever the schedule, every test
function is called on a platform that is ready, returns the value expected of it, and
leaves the platform ready for the next one.

## Main results

* `ParallelInv.stepRun` — what C0 knows of the parallel test
* `SuiteInv.step`, `SuiteInv.run_from` — what a step of the run keeps, and a run
-/

namespace MeshNoc

open Lib
open TaskSystem

/-- The value is the one expected of the function the thread runs. -/
def ReturnsExpected (thread : ℕ × TestFunc) (value : ℤ) : Prop := value = expectedValue thread.2

/-! ### The tests of C0 -/

/-- The rest of a test on C0: it passes, and leaves the platform ready. -/
def PassesOnC0 (rest : HalClient ℤ) (st : HalSystem) : Prop :=
  rest.wp HalRequest.exec (fun value st' => value = 1 ∧ HalReady st') st

theorem passesOnC0_gather {st : HalSystem} (ready : HalReady st) (u : Uninitialised) :
    PassesOnC0 (testC0Gather u platformAfterSetup) st :=
  Client.wp_mono (c0_tests_spec ready).1 fun _ _ placed => ⟨placed.passed, placed.ready⟩

theorem passesOnC0_distribute {st : HalSystem} (ready : HalReady st) (u : Uninitialised) :
    PassesOnC0 (testC0Distribute u platformAfterSetup) st :=
  Client.wp_mono (c0_tests_spec ready).2 fun _ _ placed => ⟨placed.passed, placed.ready⟩

theorem wp_clearParallelDestination_ready {st : HalSystem} (ready : HalReady st) :
    clearParallelDestination.wp HalRequest.exec (fun _ => HalReady) st := by
  refine Client.wp_mono (ready.wp wp_clearParallelDestination) ?_
  rintro value st' ⟨mem, holds, -⟩
  exact holds.ready

/-! ### The parallel test -/

/-- The verdict is a truth value, and true unless the waiting loop came to its timeout. -/
def Verdict.Sound (verdict : Verdict) (s : TaskSystem) (cycles : ℕ) : Prop :=
  match verdict with
  | pending | second =>
    cycles < maxWaitCycles → s.results .result1 ≠ 0 ∧ s.results .result2 ≠ 0
  | known success => (success = 0 ∨ success = 1) ∧ (cycles < maxWaitCycles → success = 1)

/-- How many results C0 has still to read. -/
def Verdict.unread : Verdict → ℕ
  | pending => 2
  | second => 1
  | known _ => 0

/-- A verdict that is known does not look at the results any more. -/
theorem Verdict.Sound.of_known {verdict : Verdict} {s s' : TaskSystem} {cycles : ℕ}
    (sound : verdict.Sound s cycles) (isKnown : verdict.isKnown = true) :
    verdict.Sound s' cycles := by
  cases verdict with
  | pending | second => exact absurd isKnown Bool.false_ne_true
  | known success => exact sound

namespace TaskSystem

variable {s : TaskSystem} {n tile : ℕ} {value : ℤ}

/-- What C0 knows of the parallel test at each point of the run. -/
def ParallelInv (s : TaskSystem) (verdict : Verdict) (cycles : ℕ) : HalPhase → Prop
  | .createA => verdict = .pending ∧ s.Between ∧ s.count = 0
  | .createB => verdict = .pending ∧ s.Creating 0
  | .queueA task1 => verdict = .pending ∧ task1 ≠ none ∧ s.Creating 1
  | .queueB _ | .waitA _ => verdict = .pending
  | .waitB _ => verdict = .pending ∧ s.Between ∧ s.results .result1 ≠ 0
  | .resetStorage => s.Between ∧ verdict.Sound s cycles
  | .resetCounters | .create _ | .queue _ | .wait | .finished =>
    verdict.isKnown = true ∧ verdict.Sound s cycles

variable {verdict : Verdict} {cycles : ℕ} {phase : HalPhase} {s' : TaskSystem}

/-- Whatever leaves C0's call alone, and the results that are there. -/
theorem ParallelInv.frame (inv : s.ParallelInv verdict cycles phase) (c0 : s'.c0 = s.c0)
    (count : s'.count = s.count) (results : ∀ ptr, s.results ptr ≠ 0 → s'.results ptr ≠ 0) :
    s'.ParallelInv verdict cycles phase := by
  have hsound (h : verdict.Sound s cycles) : verdict.Sound s' cycles := by
    cases verdict with
    | pending | second => exact fun hlt => ⟨results _ (h hlt).1, results _ (h hlt).2⟩
    | known success => exact h
  cases phase with
  | createA => exact ⟨inv.1, inv.2.1.congr c0, count.trans inv.2.2⟩
  | createB => exact ⟨inv.1, inv.2.congr c0 count⟩
  | queueA task1 => exact ⟨inv.1, inv.2.1, inv.2.2.congr c0 count⟩
  | queueB task2 | waitA cycle => exact inv
  | waitB cycle => exact ⟨inv.1, inv.2.1.congr c0, results _ inv.2.2⟩
  | resetStorage => exact ⟨inv.1.congr c0, hsound inv.2⟩
  | resetCounters | create i | queue i | wait | finished => exact ⟨inv.1, hsound inv.2⟩

end TaskSystem

namespace SuiteRun

variable {r : SuiteRun} {u : Uninitialised} {id : ℕ} {first : Bool} {st : HalSystem}

/-- What C0 knows of the parallel test. -/
abbrev ParallelInv (r : SuiteRun) : Prop :=
  r.run.sys.ParallelInv r.parallel r.waitCycles r.run.phase

/-- In a call the run goes on as the distributed run does. -/
theorem stepRun_of_busy (busy : ¬ r.run.sys.Between) :
    r.stepRun = { r with run := { r.run with sys := r.run.sys.stepC0 } } := by
  have hstep : r.run.stepC0 halTests = { r.run with sys := r.run.sys.stepC0 } := by
    unfold HalRun.stepC0
    split
    · next returned h => exact absurd ⟨returned, h⟩ busy
    · rfl
  unfold stepRun
  split
  · next returned _ h _ => exact absurd ⟨returned, h⟩ busy
  · next returned _ h _ => exact absurd ⟨returned, h⟩ busy
  · next returned _ h _ => exact absurd ⟨returned, h⟩ busy
  · next returned h _ => exact absurd ⟨returned, h⟩ busy
  · rw [hstep]

theorem stepC0_of_between {returned : Option ℕ} (between : r.run.sys.c0 = .idle returned) :
    r.run.stepC0 halTests = r.run.stepIdle halTests returned := by
  simp only [HalRun.stepC0, between]

/-- The waiting loop of the parallel test has read a result that is not there. -/
theorem parallelInv_waitCycle {s : TaskSystem} {cycles : ℕ} (between : s.Between)
    {run : HalRun} (sys : run.sys = s) :
    (run.waitCycle cycles).sys.ParallelInv .pending cycles (run.waitCycle cycles).phase := by
  rw [HalRun.waitCycle, sys]
  dsimp only
  split_ifs with hlt
  · rfl
  · exact ⟨between, fun h => absurd h hlt⟩

/-- A step of C0 in the run. -/
theorem ParallelInv.stepRun (inv : r.ParallelInv) (v : r.run.sys.ValueInv) :
    r.stepRun.ParallelInv := by
  unfold ParallelInv at inv
  by_cases hbetween : r.run.sys.Between
  · obtain ⟨returned, hidle⟩ := hbetween
    have hstep := stepC0_of_between hidle
    cases hphase : r.run.phase with
    | createA =>
      rw [hphase] at inv
      simp only [ParallelInv, SuiteRun.stepRun, hidle, hphase, hstep, HalRun.stepIdle]
      exact ⟨inv.1, creating_beginCreate inv.2.2 (by decide)⟩
    | createB =>
      rw [hphase] at inv
      obtain ⟨hreturned, hcount⟩ := inv.2.returned hidle
      simp only [ParallelInv, SuiteRun.stepRun, hidle, hphase, hstep, HalRun.stepIdle]
      exact ⟨inv.1, hreturned, creating_beginCreate hcount (by decide)⟩
    | queueA task1 =>
      rw [hphase] at inv
      obtain ⟨task1, rfl⟩ := Option.ne_none_iff_exists'.mp inv.2.1
      obtain ⟨task2, rfl⟩ := Option.ne_none_iff_exists'.mp (inv.2.2.returned hidle).1
      simp only [ParallelInv, SuiteRun.stepRun, hidle, hphase, hstep, HalRun.stepIdle]
      exact inv.1
    | queueB task2 =>
      rw [hphase] at inv
      simp only [ParallelInv, SuiteRun.stepRun, hidle, hphase, hstep, HalRun.stepIdle]
      exact inv
    | waitA cycles =>
      rw [hphase] at inv
      simp only [ParallelInv, SuiteRun.stepRun, hidle, hphase, hstep, HalRun.stepIdle]
      rw [inv]
      split_ifs with hresult
      · exact parallelInv_waitCycle ⟨returned, hidle⟩ rfl
      · exact ⟨rfl, ⟨returned, hidle⟩, hresult⟩
    | waitB cycles =>
      rw [hphase] at inv
      simp only [ParallelInv, SuiteRun.stepRun, hidle, hphase, hstep, HalRun.stepIdle]
      rw [inv.1]
      split_ifs with hresult
      · exact parallelInv_waitCycle ⟨returned, hidle⟩ rfl
      · exact ⟨⟨returned, hidle⟩, fun _ => ⟨inv.2.2, hresult⟩⟩
    | resetStorage =>
      rw [hphase] at inv
      obtain ⟨hbetween, hsound⟩ := inv
      simp only [ParallelInv, SuiteRun.stepRun, hidle, hphase, hstep, HalRun.stepIdle]
      cases hverdict : r.parallel with
      | pending =>
        rw [hverdict] at hsound
        simp only [hphase]
        split_ifs with hpos
        · exact ⟨hbetween, hsound⟩
        · -- a result that is there is positive
          refine ⟨hbetween, Or.inl rfl, fun hlt => absurd ?_ hpos⟩
          exact v.results_pos (hsound hlt).1
      | second =>
        rw [hverdict] at hsound
        simp only [hphase]
        refine ⟨hbetween, ?_, fun hlt => ?_⟩
        · unfold truth
          cases decide (0 < r.run.sys.results .result2) <;> simp
        · rw [truth, decide_eq_true (v.results_pos (hsound hlt).2)]
          rfl
      | known success =>
        rw [hverdict] at hsound
        exact ⟨rfl, hsound⟩
    | resetCounters | finished =>
      rw [hphase] at inv
      simp only [ParallelInv, SuiteRun.stepRun, hidle, hphase, hstep, HalRun.stepIdle]
      exact ⟨inv.1, inv.2.of_known inv.1⟩
    | create i | queue i =>
      rw [hphase] at inv
      simp only [ParallelInv, SuiteRun.stepRun, hidle, hphase, hstep, HalRun.stepIdle]
      split <;> exact ⟨inv.1, inv.2.of_known inv.1⟩
    | wait =>
      rw [hphase] at inv
      simp only [ParallelInv, SuiteRun.stepRun, hidle, hphase, hstep, HalRun.stepIdle]
      split_ifs
      · exact ⟨inv.1, inv.2.of_known inv.1⟩
      · simp only [hphase]
        exact inv
  · rw [stepRun_of_busy hbetween]
    unfold ParallelInv
    cases hphase : r.run.phase with
    | createA =>
      rw [hphase] at inv
      exact absurd inv.2.1 hbetween
    | createB =>
      rw [hphase] at inv
      exact ⟨inv.1, inv.2.stepC0 (by decide)⟩
    | queueA task1 =>
      rw [hphase] at inv
      exact ⟨inv.1, inv.2.1, inv.2.2.stepC0 (by decide)⟩
    | queueB task2 | waitA cycles =>
      rw [hphase] at inv
      exact inv
    | waitB cycles =>
      rw [hphase] at inv
      exact absurd inv.2.1 hbetween
    | resetStorage =>
      rw [hphase] at inv
      exact absurd inv.1 hbetween
    | resetCounters | create i | queue i | wait | finished =>
      rw [hphase] at inv
      exact ⟨inv.1, inv.2.of_known inv.1⟩

/-- C0 goes on with the distributed run, where no tile is in the way of a reset, or it reads
a result. -/
theorem stepRun_run (inv : r.ParallelInv) (quiet : r.Quiet) :
    r.stepRun.run = r.run.stepC0 halTests ∧ r.run.Quiet ∨
      r.stepRun.run = r.run ∧ r.stepRun.parallel.unread < r.parallel.unread := by
  by_cases hknown : r.parallel.isKnown = true
  · -- the results have been read
    refine Or.inl ⟨?_, quiet hknown⟩
    unfold stepRun
    split
    · split_ifs <;> rfl
    · rfl
    · rfl
    · split
      · next h =>
        rw [h] at hknown
        exact absurd hknown Bool.false_ne_true
      · next h =>
        rw [h] at hknown
        exact absurd hknown Bool.false_ne_true
      · rfl
    · rfl
  · unfold ParallelInv at inv
    have hquiet : r.run.phase ≠ .resetStorage → r.run.Quiet := by
      refine fun hphase => ⟨fun h => absurd h hphase, fun h => ?_⟩
      rw [h] at inv
      exact absurd inv.1 hknown
    by_cases hphase : r.run.phase = .resetStorage
    · rw [hphase] at inv
      obtain ⟨returned, hidle⟩ := inv.1
      simp only [stepRun, hidle, hphase]
      cases hverdict : r.parallel with
      | pending =>
        refine Or.inr ⟨rfl, ?_⟩
        dsimp only
        split_ifs <;> decide
      | second => exact Or.inr ⟨rfl, Nat.zero_lt_one⟩
      | known success => exact absurd (by rw [hverdict]; rfl) hknown
    · refine Or.inl ⟨?_, hquiet hphase⟩
      unfold stepRun
      split
      · split_ifs <;> rfl
      · rfl
      · rfl
      · next h => exact absurd h hphase
      · rfl

/-- Only the run, what C0 knows of the parallel test and the cycles it has waited change. -/
theorem stepRun_frame (r : SuiteRun) : r.stepRun = { r with
    run := r.stepRun.run, waitCycles := r.stepRun.waitCycles, parallel := r.stepRun.parallel } := by
  unfold stepRun
  split
  · split_ifs <;> rfl
  · rfl
  · rfl
  · split <;> rfl
  · rfl

/-! ### The invariant of the run -/

/-- What holds of C0's own tests, and of the platform. -/
def ProloguePassed (r : SuiteRun) : Prop :=
  match r.prologue with
  | .gather rest => HalRun.Untouched r.run ∧ PassesOnC0 rest r.session.shared
  | .distribute rest =>
    r.gatherResult = 1 ∧ HalRun.Untouched r.run ∧ PassesOnC0 rest r.session.shared
  | .clear rest => r.gatherResult = 1 ∧ r.distributeResult = 1 ∧ HalRun.Untouched r.run ∧
      rest.wp HalRequest.exec (fun _ => HalReady) r.session.shared
  | .behind => r.gatherResult = 1 ∧ r.distributeResult = 1 ∧
      r.session.Good HalRequest.exec HalReady ReturnsExpected

theorem ProloguePassed.untouched (passed : r.ProloguePassed) (before : r.prologue ≠ .behind) :
    HalRun.Untouched r.run := by
  unfold ProloguePassed at passed
  cases hprologue : r.prologue with
  | gather rest =>
    rw [hprologue] at passed
    exact passed.1
  | distribute rest =>
    rw [hprologue] at passed
    exact passed.2.1
  | clear rest =>
    rw [hprologue] at passed
    exact passed.2.2.1
  | behind => exact absurd hprologue before

/-- A step of a tile that has no task. -/
theorem ProloguePassed.of_run (passed : r.ProloguePassed) {run : HalRun}
    (untouched : HalRun.Untouched r.run → HalRun.Untouched run) :
    ProloguePassed { r with run := run } := by
  unfold ProloguePassed at passed ⊢
  cases hprologue : r.prologue with
  | gather rest =>
    rw [hprologue] at passed
    exact ⟨untouched passed.1, passed.2⟩
  | distribute rest =>
    rw [hprologue] at passed
    exact ⟨passed.1, untouched passed.2.1, passed.2.2⟩
  | clear rest =>
    rw [hprologue] at passed
    exact ⟨passed.1, passed.2.1, untouched passed.2.2.1, passed.2.2.2⟩
  | behind =>
    rw [hprologue] at passed
    exact passed

/-- The invariant of the whole run. -/
structure SuiteInv (r : SuiteRun) : Prop where
  run : HalRun.RunInv halTests r.run
  values : r.run.sys.ValueInv
  session : SessionInv r.run.sys r.session
  parallel : r.ParallelInv
  prologue : r.ProloguePassed

namespace SuiteInv

theorem start (ready : HalReady st) (u : Uninitialised) : SuiteInv (SuiteRun.start st u) where
  run := .start halTests
  values := valueInv_start
  session := .start st
  parallel := ⟨rfl, ⟨none, rfl⟩, rfl⟩
  prologue := ⟨.start, passesOnC0_gather ready u⟩

/-- C0 goes on with a test of its own. -/
theorem advanceC0_eq {rest : HalClient ℤ} {back : HalClient ℤ → Prologue}
    {Q : ℤ → HalSystem → Prop} (at_ : r.prologue = back rest)
    (verified : rest.wp HalRequest.exec Q r.session.shared) (first : Bool) :
    ∃ rest' shared', r.advanceC0 rest first back =
        { r with prologue := back rest', session := ⟨r.session.holder, shared'⟩ } ∧
      rest'.wp HalRequest.exec Q shared' := by
  unfold advanceC0
  cases hstep : rest.advance HalRequest.exec first r.session.shared with
  | none => exact ⟨rest, r.session.shared, by rw [← at_], verified⟩
  | some out => exact ⟨out.1, out.2, rfl, Client.wp_advance verified hstep⟩

/-- C0 before its first task: the run and who is in the session stay as they are. -/
theorem setPrologue (inv : SuiteInv r) {r' : SuiteRun} (run : r'.run = r.run)
    (holder : r'.session.holder = r.session.holder) (parallel : r'.parallel = r.parallel)
    (waitCycles : r'.waitCycles = r.waitCycles) (passed : r'.ProloguePassed) :
    SuiteInv r' where
  run := run ▸ inv.run
  values := run ▸ inv.values
  session := by
    rw [run]
    exact inv.session.congr holder
  parallel := by
    unfold ParallelInv
    rw [run, parallel, waitCycles]
    exact inv.parallel
  prologue := passed

/-- A step of C0. -/
theorem stepC0 (inv : SuiteInv r) (quiet : r.Quiet) (first : Bool) (u : Uninitialised) :
    SuiteInv (r.stepC0 first u) := by
  have passed := inv.prologue
  unfold ProloguePassed at passed
  unfold SuiteRun.stepC0
  split
  · next value hprologue =>
    rw [hprologue] at passed
    obtain ⟨huntouched, hvalue, hready⟩ := passed
    exact inv.setPrologue rfl rfl rfl rfl ⟨hvalue, huntouched, passesOnC0_distribute hready u⟩
  · next rest _ hprologue =>
    rw [hprologue] at passed
    obtain ⟨rest', shared', heq, hrest⟩ := advanceC0_eq hprologue passed.2 first
    rw [heq]
    exact inv.setPrologue rfl rfl rfl rfl ⟨passed.1, hrest⟩
  · next value hprologue =>
    rw [hprologue] at passed
    obtain ⟨hgather, huntouched, hvalue, hready⟩ := passed
    exact inv.setPrologue rfl rfl rfl rfl
      ⟨hgather, hvalue, huntouched, wp_clearParallelDestination_ready hready⟩
  · next rest _ hprologue =>
    rw [hprologue] at passed
    obtain ⟨rest', shared', heq, hrest⟩ := advanceC0_eq hprologue passed.2.2 first
    rw [heq]
    exact inv.setPrologue rfl rfl rfl rfl ⟨passed.1, passed.2.1, hrest⟩
  · next value hprologue =>
    rw [hprologue] at passed
    obtain ⟨hgather, hdistribute, huntouched, hready⟩ := passed
    refine inv.setPrologue rfl rfl rfl rfl ⟨hgather, hdistribute, ?_⟩
    exact Session.Good.of_free (inv.session.free huntouched.polls) hready
  · next rest _ hprologue =>
    rw [hprologue] at passed
    obtain ⟨rest', shared', heq, hrest⟩ := advanceC0_eq hprologue passed.2.2.2 first
    rw [heq]
    exact inv.setPrologue rfl rfl rfl rfl ⟨passed.1, passed.2.1, passed.2.2.1, hrest⟩
  · next hprologue =>
    rw [hprologue] at passed
    have hprologue' : r.stepRun.ProloguePassed := by
      rw [stepRun_frame, ProloguePassed]
      dsimp only
      rw [hprologue]
      exact passed
    have hparallel := inv.parallel.stepRun inv.values
    have hsession : r.stepRun.session = r.session := by rw [stepRun_frame]
    rcases stepRun_run inv.parallel quiet with ⟨hrun, hquiet⟩ | hrun
    · have hdid := C0Did.stepC0 inv.run.dispatch
      refine ⟨hrun ▸ inv.run.stepC0 hquiet, ?_, ?_, hparallel, hprologue'⟩
      · rw [hrun]
        exact inv.values.c0_step hdid
      · rw [hrun, hsession]
        refine inv.session.c0_step hdid fun hphase tile => ?_
        rcases Nat.lt_or_ge tile r.run.sys.nodeCount with hlt | hge
        · exact hquiet.1 hphase tile hlt
        · rw [inv.run.outside tile hge]
          rfl
    · refine ⟨hrun.1 ▸ inv.run, hrun.1 ▸ inv.values, ?_, hparallel, hprologue'⟩
      rw [hrun.1, hsession]
      exact inv.session

/-- A step of a tile, whatever becomes of the session. -/
theorem tileStep (inv : SuiteInv r) (valid : 1 ≤ id ∧ id < r.run.sys.nodeCount) (value : ℤ)
    (returns : ∀ slot task, (r.run.sys.tiles id).pc = .running slot task →
      ∃ c ∈ r.run.sys.history.created, c.task = task ∧
        ∀ func, c.test.testFunc = some func → value = expectedValue func)
    {r' : SuiteRun} (run : r'.run = r.run.step halTests (.tile id value))
    (session : SessionInv (r.run.sys.stepTile id value) r'.session)
    (parallel : r'.parallel = r.parallel) (waitCycles : r'.waitCycles = r.waitCycles)
    (passed : r'.ProloguePassed) : SuiteInv r' := by
  have hsys : (r.run.step halTests (.tile id value)).sys = r.run.sys.stepTile id value := by
    simp only [HalRun.step, TaskSystem.step, if_pos valid]
  have e := inv.run.execution
  have h := inv.run.dispatch
  refine ⟨run ▸ inv.run.stepTile id value, ?_, ?_, ?_, passed⟩
  · rw [run, hsys]
    exact inv.values.stepTile e h returns
  · rw [run, hsys]
    exact session
  · unfold ParallelInv
    rw [run, parallel, waitCycles, hsys]
    exact inv.parallel.frame (stepTile_leaves ..).c0 (stepTile_keeps ..).count
      fun ptr => inv.values.results_ne_zero e h

/-- With a session of another kind the platform is as ready as before. -/
theorem passed_of_session (inv : SuiteInv r) {r' : SuiteRun} (behind : r.prologue = .behind)
    (prologue : r'.prologue = r.prologue) (gather : r'.gatherResult = r.gatherResult)
    (distribute : r'.distributeResult = r.distributeResult)
    (good : r.session.Good HalRequest.exec HalReady ReturnsExpected →
      r'.session.Good HalRequest.exec HalReady ReturnsExpected) : r'.ProloguePassed := by
  have passed := inv.prologue
  unfold ProloguePassed at passed ⊢
  rw [behind] at passed prologue
  rw [prologue, gather, distribute]
  exact ⟨passed.1, passed.2.1, good passed.2.2⟩

/-- The own task of a tile that is about to call its test function. -/
theorem own_of_call (inv : SuiteInv r) {slot : ℕ} (call : (r.run.sys.tiles id).pc = .call slot) :
    ∃ own ∈ r.run.sys.history.created, ∃ func ∈ testNames,
      own.test.testFunc = some func ∧
        (r.run.sys.storage slot).params.testFunc = some func ∧
          (r.run.sys.storage slot).platform = true ∧
            (r.run.sys.storage slot).taskId = own.task := by
  have hheld : (r.run.sys.tiles id).pc.held = some slot := by rw [call]; rfl
  obtain ⟨own, hown, hcore⟩ := inv.run.dispatch.carries_of_held hheld
  have hparams : (r.run.sys.storage slot).params = own.test :=
    congrArg (fun core => core.2.2.1) hcore
  obtain ⟨func, hname, ptr, hfunc, -⟩ := suiteTests_expected (inv.values.created own hown)
  exact ⟨own, hown, func, hname, hfunc, by rw [hparams, hfunc],
    congrArg (fun core => core.2.2.2) hcore, congrArg Prod.fst hcore⟩

/-- A tile takes the session, or waits for it. -/
theorem enter (inv : SuiteInv r) (behind : r.prologue = .behind)
    (valid : 1 ≤ id ∧ id < r.run.sys.nodeCount) {slot : ℕ}
    (call : (r.run.sys.tiles id).pc = .call slot) (allocates : u.Allocates) :
    SuiteInv (r.enter id slot u) := by
  cases hholder : r.session.holder with
  | some holder =>
    simp only [SuiteRun.enter, hholder]
    exact inv
  | none =>
    obtain ⟨own, hown, func, hname, hfunc, hparams, hplatform, htask⟩ := inv.own_of_call call
    have hmove : Move r.run.sys (r.run.sys.stepTile id 0) id (.running slot own.task) := by
      have hcalls : (r.run.sys.storage slot).params.testFunc ≠ none ∧
          (r.run.sys.storage slot).platform = true :=
        ⟨by rw [hparams]; exact Option.some_ne_none func, hplatform⟩
      simp only [TaskSystem.stepTile, call, callTest, if_pos hcalls, htask]
      exact setTile_move ..
    have htile : id < 8 := Nat.lt_of_lt_of_eq valid.2 inv.values.nodeCount
    simp only [SuiteRun.enter, hholder, hparams, hplatform]
    refine inv.tileStep valid 0 (fun _ _ hpc => ?_) rfl
      (inv.session.enter hholder hmove hown hfunc _) rfl rfl
      (inv.passed_of_session behind rfl rfl rfl fun good => ?_)
    · rw [call] at hpc
      exact TilePc.noConfusion hpc
    · exact good.enter fun st ready => testClient_spec ready allocates ⟨id, htile⟩ hname

/-- The test function of a tile goes on, or returns the expected value. -/
theorem proceed (inv : SuiteInv r) (behind : r.prologue = .behind)
    (valid : 1 ≤ id ∧ id < r.run.sys.nodeCount) {slot task : ℕ}
    (running : (r.run.sys.tiles id).pc = .running slot task) (first : Bool) :
    SuiteInv (r.proceed id first) := by
  unfold SuiteRun.proceed
  split_ifs with hholder
  · obtain ⟨⟨⟨tile, func⟩, c⟩, hheld, htile⟩ := Option.map_eq_some_iff.mp hholder
    obtain rfl : tile = id := htile
    cases hended : r.session.ended with
    | none =>
      have passed : ProloguePassed { r with
          session := r.session.advance HalRequest.exec first } :=
        inv.passed_of_session behind rfl rfl rfl fun good => good.advance first
      exact ⟨inv.run, inv.values, inv.session.advance hheld hended first, inv.parallel, passed⟩
    | some result =>
      obtain ⟨thread, value⟩ := result
      obtain ⟨rfl, rfl⟩ : thread = (tile, func) ∧ c = .done value := by
        have hdone := Session.holder_of_ended hended
        rw [hheld, Option.some.injEq, Prod.mk.injEq] at hdone
        exact ⟨hdone.1.symm, hdone.2⟩
      have hgood := inv.prologue
      unfold ProloguePassed at hgood
      rw [behind] at hgood
      have hvalue : value = expectedValue func := (hgood.2.2.leave hended).1
      have hmove : Move r.run.sys (r.run.sys.stepTile tile value) tile
          (.storeResult slot value) := by
        have hstep : r.run.sys.stepTile tile value =
            r.run.sys.testReturned tile slot task value := by
          simp only [TaskSystem.stepTile, running]
          rfl
        rw [hstep]
        exact testReturned_move ..
      refine inv.tileStep valid value (fun slot' task' hpc => ?_) rfl
        (inv.session.returned hheld hmove) rfl rfl
        (inv.passed_of_session behind rfl rfl rfl id)
      obtain ⟨own, hown, hfunc, ⟨k, hrunning⟩ | ⟨k, v, hstoring, -⟩⟩ :=
        inv.session.holder _ _ hheld
      · rw [hrunning] at hpc
        obtain ⟨-, rfl⟩ := TilePc.running.inj hpc
        refine ⟨own, hown, rfl, fun func' hfunc' => ?_⟩
        rw [hfunc, Option.some.injEq] at hfunc'
        rw [hvalue, ← hfunc']
      · rw [hstoring] at hpc
        exact TilePc.noConfusion hpc
  · exact inv

/-- A tile stores its result and gives the session back. -/
theorem storeResult (inv : SuiteInv r) (behind : r.prologue = .behind)
    (valid : 1 ≤ id ∧ id < r.run.sys.nodeCount) {slot : ℕ} {value : ℤ}
    (storing : (r.run.sys.tiles id).pc = .storeResult slot value) :
    SuiteInv { r with run := r.run.step halTests (.tile id 0), session := r.session.leave } := by
  have hinside : (r.run.sys.tiles id).pc.inSession = true := by rw [storing]; rfl
  obtain ⟨func, c, hheld⟩ := inv.session.occupied id hinside
  have hdone : ∃ v, c = .done v := by
    obtain ⟨own, -, -, ⟨k, hrunning⟩ | ⟨k, v, -, hdone⟩⟩ := inv.session.holder _ _ hheld
    · rw [storing] at hrunning
      exact TilePc.noConfusion hrunning
    · exact hdone
  obtain ⟨v, rfl⟩ := hdone
  have hended : r.session.ended = some ((id, func), v) := by rw [Session.ended, hheld]
  have hmove : Move r.run.sys (r.run.sys.stepTile id 0) id (.setResult slot value) := by
    have hstep : r.run.sys.stepTile id 0 = r.run.sys.resultStored id slot value := by
      simp only [TaskSystem.stepTile, storing]
      rfl
    rw [hstep]
    exact resultStored_move ..
  refine inv.tileStep valid 0 (fun k task hpc => ?_) rfl (inv.session.leave hmove hinside rfl)
    rfl rfl (inv.passed_of_session behind rfl rfl rfl fun good => (good.leave hended).2)
  rw [storing] at hpc
  exact TilePc.noConfusion hpc

/-- A step of a tile. -/
theorem stepTile (inv : SuiteInv r) (valid : 1 ≤ id ∧ id < r.run.sys.nodeCount)
    (allocates : u.Allocates) (first : Bool) : SuiteInv (r.stepTile id first u) := by
  have hover : (r.run.sys.tiles id).pc ≠ .poll → r.prologue = .behind := fun hpc =>
    by_contra fun hbefore => hpc ((inv.prologue.untouched hbefore).polls id)
  unfold SuiteRun.stepTile
  split
  · next slot hpc => exact inv.enter (hover (by simp [hpc])) valid hpc allocates
  · next slot task hpc => exact inv.proceed (hover (by simp [hpc])) valid hpc first
  · next slot value hpc => exact inv.storeResult (hover (by simp [hpc])) valid hpc
  · next hcall hrunning hstoring =>
    obtain ⟨pc, m⟩ := (stepTile_cases inv.run.dispatch id 0).exists_move
    have hbefore : (r.run.sys.tiles id).pc.inSession = false := by
      cases hpc : (r.run.sys.tiles id).pc with
      | running slot task => exact absurd hpc (hrunning slot task)
      | storeResult slot value => exact absurd hpc (hstoring slot value)
      | _ => rfl
    have hafter : pc.inSession = false := m.arrives ▸ inSession_stepTile hbefore hcall
    refine inv.tileStep valid 0 (fun slot task hpc => absurd hpc (hrunning slot task)) rfl
      (inv.session.elsewhere m hbefore hafter) rfl rfl ?_
    exact inv.prologue.of_run fun untouched => untouched.stepTile id 0

/-- A step of the run. -/
theorem step (inv : SuiteInv r) {actor : SuiteActor} (allocates : actor.uninitialised.Allocates)
    (quiet : ∀ first u, actor = .c0 first u → r.Quiet) : SuiteInv (r.step actor) := by
  cases actor with
  | c0 first u => exact inv.stepC0 (quiet first u rfl) first u
  | tile id first u =>
    simp only [SuiteRun.step]
    split_ifs with hvalid
    · exact inv.stepTile hvalid allocates first
    · exact inv

/-- A run whose resets are quiet, in which every `malloc` succeeds. -/
theorem run_from {actors : List SuiteActor} (inv : SuiteInv r)
    (allocates : ∀ actor ∈ actors, actor.uninitialised.Allocates)
    (quiet : ResetsQuiet r actors) : SuiteInv (r.runFrom actors) := by
  induction actors generalizing r with
  | nil => exact inv
  | cons actor rest ih =>
    obtain ⟨hactor, hrest⟩ := List.forall_mem_cons.mp allocates
    cases actor with
    | c0 first u => exact ih (inv.stepC0 quiet.1 first u) hrest quiet.2
    | tile id first u => exact ih (inv.step hactor fun _ _ h => nomatch h) hrest quiet

end SuiteInv

end SuiteRun

end MeshNoc
