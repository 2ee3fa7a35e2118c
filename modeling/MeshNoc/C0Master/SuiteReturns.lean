import MeshNoc.C0Master.SuiteSignals
import MeshNoc.C0Master.SuiteWaits

/-!
# The suite comes to its end

C0 can always get to its end, whatever has happened before: it starts the threads, makes the
distributed run with them, and joins them, or runs the tests alone.

## Main results

* `suite_begins`, `suite_ends` — how long C0 waits for the threads
* `suite_can_end` — no state is a dead end
* `suite_returned`, `suite_ran_alone` — what C0 leaves behind
-/

namespace MeshNoc

open Lib

namespace TestSuite

variable {t : TestSuite} {id : ℕ}

/-- C0 has come to its end, with the threads or alone. -/
def Ended (t : TestSuite) : Prop :=
  t.point = .returned ∨ ∃ count, t.point = .alone (.done count)

theorem meets_tile (t : TestSuite) (id : ℕ) (first : Bool) : t.Meets (.tile id first .zeroed) :=
  ⟨Uninitialised.allocates_zeroed, fun _ _ _ h => ThreadActor.noConfusion h⟩

theorem meets_c0 (quiet : t.Quiet) (granted first : Bool) :
    t.Meets (.c0 granted first fun _ => .zeroed) :=
  ⟨fun _ => Uninitialised.allocates_zeroed, fun _ _ _ _ => quiet⟩

theorem quiet_of_not_tests (elsewhere : t.point ≠ .tests) : t.Quiet := fun h => absurd h elsewhere

/-! ### The distributed run is followed -/

/-- A thread comes to its loop, and the suite stays where it is. -/
theorem LifeInv.can_loop (inv : LifeInv t) (tests : t.point = .tests)
    (valid : 1 ≤ id ∧ id < numTiles) :
    CanReach TestSuite.step Meets (fun t' => LifeInv t' ∧ t'.point = .tests ∧
      t'.suite = t.suite ∧ (t'.threads id).point = .loop) t := by
  have hlive : (t.threads id).Live := by
    have hexpects := inv.threads.threads id valid.1 valid.2
    rwa [tests] at hexpects
  have hmeets := t.meets_tile id true
  have hinv := inv.step hmeets
  simp only [TestSuite.step] at hinv
  have hself (thread : ProcessorThread) : Function.update t.threads id thread id = thread :=
    Function.update_self ..
  cases point : (t.threads id).point with
  | loop => exact .here ⟨inv, tests, rfl, point⟩
  | registering | signal =>
    simp only [TestSuite.stepThread, point] at hinv
    refine .one hmeets ?_
    simp only [TestSuite.step, TestSuite.stepThread, point]
    exact ⟨hinv, tests, rfl, congrArg ProcessorThread.point (hself _)⟩
  | check =>
    simp only [TestSuite.stepThread, point, if_pos hlive.running] at hinv
    refine .one hmeets ?_
    simp only [TestSuite.step, TestSuite.stepThread, point, if_pos hlive.running]
    exact ⟨hinv, tests, rfl, congrArg ProcessorThread.point (hself _)⟩
  | absent | created | leaving | notifying | exited =>
    have hloop := hlive.inLoop
    rw [point] at hloop
    exact absurd hloop Bool.false_ne_true

/-- A step of the distributed run is made by the threads of the suite. -/
theorem LifeInv.can_follow {r : SuiteRun} {actor : SuiteActor}
    (related : LifeInv t ∧ t.point = .tests ∧ t.suite = r) (running : r.run.phase ≠ .finished)
    (meets : r.Meets actor) :
    CanReach TestSuite.step Meets
      (fun t' => LifeInv t' ∧ t'.point = .tests ∧ t'.suite = r.step actor) t := by
  obtain ⟨inv, tests, rfl⟩ := related
  cases actor with
  | c0 first u =>
    have hmeets : t.Meets (.c0 true first fun _ => u) :=
      ⟨fun _ => meets.1, fun _ _ _ _ _ => meets.2 first u rfl⟩
    have hinv := inv.step hmeets
    refine .one hmeets ?_
    simp only [TestSuite.step, TestSuite.stepC0, tests, if_neg running] at hinv ⊢
    exact ⟨hinv, trivial, rfl⟩
  | tile id first u =>
    by_cases hvalid : 1 ≤ id ∧ id < t.suite.run.sys.nodeCount
    · have hnodes := inv.suite.nodeCount
      refine (inv.can_loop tests (hnodes ▸ hvalid)).bind fun t' hreached => ?_
      obtain ⟨inv', tests', hsuite, hloop⟩ := hreached
      have hmeets : t'.Meets (.tile id first u) :=
        ⟨meets.1, fun _ _ _ h => ThreadActor.noConfusion h⟩
      have hinv := inv'.step hmeets
      refine .one hmeets ?_
      simp only [TestSuite.step, TestSuite.stepThread, hloop] at hinv ⊢
      exact ⟨hinv, tests', by rw [← hsuite]; rfl⟩
    · have hsame : t.suite.step (.tile id first u) = t.suite := by
        simp only [SuiteRun.step, if_neg hvalid]
      exact .here ⟨inv, tests, hsame.symm⟩

/-- What the distributed run can reach, the suite can reach in it. -/
theorem LifeInv.can_reach {P : SuiteRun → Prop} (inv : LifeInv t) (tests : t.point = .tests)
    (goal : ∀ r : SuiteRun, r.ProgressInv → r.run.phase = .finished → P r)
    (reach : CanReach SuiteRun.step SuiteRun.Meets P t.suite) :
    CanReach TestSuite.step Meets
      (fun t' => (LifeInv t' ∧ t'.point = .tests) ∧ P t'.suite) t := by
  refine (reach.follow (R := fun r t => LifeInv t ∧ t.point = .tests ∧ t.suite = r)
    (fun r t' actor related short meets => ?_) ⟨inv, tests, rfl⟩).mono ?_
  · refine LifeInv.can_follow related (fun finished => short ?_) meets
    obtain ⟨inv', tests', rfl⟩ := related
    exact goal t'.suite (inv'.suite.during tests') finished
  · rintro t' ⟨r, ⟨inv', tests', rfl⟩, hP⟩
    exact ⟨⟨inv', tests'⟩, hP⟩

/-! ### From one stage to the next -/

/-- C0 has not given up the threads. -/
def Together (t : TestSuite) : Prop := ∀ rest, t.point ≠ .alone rest

/-- C0 gives up only the threads it is not granted. -/
theorem together_stepC0 {first : Bool} {w : ℕ → Uninitialised} (together : t.Together) :
    (t.stepC0 true first w).Together := by
  intro rest
  cases point : t.point with
  | alone rest' => exact absurd point (together rest')
  | start | create i | supervise cycles | tests | stop i =>
    simp only [TestSuite.stepC0, point, TestSuite.startTileThreads]
    split_ifs <;> exact SuitePoint.noConfusion
  | await i | join i =>
    simp only [TestSuite.stepC0, point]
    split_ifs
    · exact SuitePoint.noConfusion
    · exact together rest
    · exact SuitePoint.noConfusion
  | service cycles drain =>
    cases drain <;> simp only [TestSuite.stepC0, point] <;> exact SuitePoint.noConfusion
  | enable | disable | returned =>
    simp only [TestSuite.stepC0, point]
    exact SuitePoint.noConfusion

/-- Granted what it asks for, C0 can get to the distributed run. -/
theorem LifeInv.can_begin (inv : LifeInv t) (together : t.Together) :
    CanReach TestSuite.step Meets (fun t' => LifeInv t' ∧ t'.point.Began) t := by
  refine (helped_start.canReach (J := Together) (fun t inv together pos => ?_) inv together).mono ?_
  · have hbefore := startRank_pos_iff.mp pos
    have hquiet : t.Quiet := quiet_of_not_tests fun h => by
      rw [h] at hbefore
      exact absurd hbefore Bool.false_ne_true
    cases waits : t.awaited with
    | none => exact ⟨_, rfl, meets_c0 hquiet true true, together_stepC0 together⟩
    | some id =>
      refine ⟨_, rfl, t.meets_tile id true, fun rest => ?_⟩
      simp only [TestSuite.step]
      rw [point_stepThread]
      exact together rest
  · rintro t' ⟨⟨inv', together'⟩, hzero⟩
    refine ⟨inv', ?_⟩
    have hpast : ¬ t'.point.before = true := fun h => absurd hzero (startRank_pos_iff.mpr h).ne'
    cases point : t'.point with
    | start | create i | await i | enable | supervise cycles | service cycles drain =>
      rw [point] at hpast
      exact absurd rfl hpast
    | tests => exact Or.inl rfl
    | disable | stop i | join i | returned => exact Or.inr rfl
    | alone rest => exact absurd point (together' rest)

/-- C0 can finish the distributed run. -/
theorem LifeInv.can_leave (inv : LifeInv t) (tests : t.point = .tests) :
    CanReach TestSuite.step Meets (fun t' => LifeInv t' ∧ t'.point.behind = true) t := by
  refine (inv.can_reach tests (fun _ progress finished => ⟨progress, finished⟩)
    (inv.suite.during tests).can_finish).bind ?_
  rintro t' ⟨⟨inv', tests'⟩, -, finished⟩
  have hmeets := meets_c0 (fun _ => SuiteRun.quiet_of_finished finished) true true
  refine .one hmeets ⟨inv'.step hmeets, ?_⟩
  simp only [TestSuite.step, TestSuite.stepC0, tests', if_pos finished]
  rfl

/-- Behind the distributed run C0 can return. -/
theorem LifeInv.can_return (inv : LifeInv t) (behind : t.point.behind = true) :
    CanReach TestSuite.step Meets (fun t' => LifeInv t' ∧ t'.point = .returned) t := by
  refine (helped_end.canReach (J := fun _ => True) (fun t inv _ _ => ?_) ⟨inv, behind⟩
    trivial).mono ?_
  · have hquiet : t.Quiet := quiet_of_not_tests fun h => by
      rw [h] at inv
      exact absurd inv.2 Bool.false_ne_true
    cases waits : t.awaited with
    | none => exact ⟨_, rfl, meets_c0 hquiet true true, trivial⟩
    | some id => exact ⟨_, rfl, t.meets_tile id true, trivial⟩
  · rintro t' ⟨⟨⟨inv', behind'⟩, -⟩, hzero⟩
    exact ⟨inv', returned_of_endRank behind' hzero⟩

/-- Alone C0 can get to the end of its tests, whatever the threads it leaves. -/
theorem LifeInv.can_end_alone {rest : HalClient (ℤ × ℤ)} (inv : LifeInv t)
    (alone : t.point = .alone rest) :
    CanReach TestSuite.step Meets (fun t' => LifeInv t' ∧ t'.threads = t.threads ∧
      ∃ count, t'.point = .alone (.done count)) t := by
  obtain ⟨-, -, verified⟩ := inv.suite.alone rest alone
  let motive (c : HalClient (ℤ × ℤ)) (shared : HalSystem) : Prop :=
    ∀ t : TestSuite, LifeInv t → t.point = .alone c → t.suite.session.shared = shared →
      CanReach TestSuite.step Meets (fun t' => LifeInv t' ∧ t'.threads = t.threads ∧
        ∃ count, t'.point = .alone (.done count)) t
  refine Client.wp_follow (motive := motive) verified ?_ ?_ t inv alone rfl
  · intro count shared _ t inv alone _
    exact .here ⟨inv, rfl, count, alone⟩
  · intro c shared c' shared' hadvance hnext t inv alone hshared
    have hmeets := meets_c0 (quiet_of_not_tests fun h =>
      SuitePoint.noConfusion (alone.symm.trans h)) true true
    have hinv := inv.step hmeets
    refine .cons hmeets ?_
    simp only [TestSuite.step, TestSuite.stepC0, alone, hshared, hadvance] at hinv ⊢
    exact hnext _ hinv rfl rfl

/-- The suite can get to its return once it has begun the distributed run. -/
theorem LifeInv.can_return_of_began (inv : LifeInv t) (began : t.point.Began) :
    CanReach TestSuite.step Meets (fun t' => LifeInv t' ∧ t'.point = .returned) t := by
  rcases began with htests | hbehind
  · exact (inv.can_leave htests).bind fun t' ⟨inv', behind'⟩ => inv'.can_return behind'
  · exact inv.can_return hbehind

/-! ### Schedules -/

/-- C0 can always come to a state in which its next step meets what it has to. -/
theorem LifeInv.can_quiet (inv : LifeInv t) :
    CanReach TestSuite.step Meets (fun t' => LifeInv t' ∧ t'.Quiet) t := by
  by_cases quiet : t.Quiet
  · exact .here ⟨inv, quiet⟩
  have tests : t.point = .tests := by
    by_contra elsewhere
    exact quiet (quiet_of_not_tests elsewhere)
  have hprogress := inv.suite.during tests
  have hbehind : t.suite.prologue = .behind := by
    by_contra before
    exact quiet fun _ => hprogress.quiet_before before
  have hreach : CanReach SuiteRun.step SuiteRun.Meets SuiteRun.Quiet t.suite :=
    (SuiteRun.BehindInv.can_drain ⟨hprogress, hbehind, rfl⟩).mono fun _ h =>
      SuiteRun.quiet_of_drained h.2
  refine (inv.can_reach tests (fun _ _ => SuiteRun.quiet_of_finished) hreach).mono ?_
  exact fun t' h => ⟨h.1.1, fun _ => h.2⟩

/-- From every state there is a round whose steps meet what they have to. -/
theorem LifeInv.exists_round (inv : LifeInv t) :
    ∃ round, SuiteRound round ∧ EachStep TestSuite.step Meets t round := by
  let tiles := (List.range' 1 7).map fun id => ThreadActor.tile id true .zeroed
  have htiles : EachStep TestSuite.step Meets t tiles := by
    refine eachStep_of_forall fun actor hactor t' => ?_
    obtain ⟨id, -, rfl⟩ := List.mem_map.mp hactor
    exact t'.meets_tile id true
  obtain ⟨actors, heach, -, hquiet⟩ := (inv.run_from htiles).can_quiet
  refine ⟨tiles ++ (actors ++ [.c0 true true fun _ => .zeroed]), fun thread hthread => ?_, ?_⟩
  · cases thread with
    | none =>
      refine ⟨.c0 true true fun _ => .zeroed, ?_, rfl⟩
      exact List.mem_append_right _ (List.mem_append_right _ (List.mem_singleton_self _))
    | some id =>
      obtain ⟨hpos, hlt⟩ := hthread id rfl
      refine ⟨.tile id true .zeroed, List.mem_append_left _ (List.mem_map.mpr ⟨id, ?_, rfl⟩), rfl⟩
      exact List.mem_range'_1.mpr ⟨hpos, hlt⟩
  · rw [eachStep_append, eachStep_append]
    exact ⟨htiles, heach, meets_c0 hquiet true true, trivial⟩

theorem LifeInv.exists_rounds (inv : LifeInv t) (n : ℕ) : ∃ rounds : List (List ThreadActor),
    rounds.length = n ∧ (∀ round ∈ rounds, SuiteRound round) ∧
      EachStep TestSuite.step Meets t rounds.flatten := by
  induction n generalizing t with
  | zero => exact ⟨[], rfl, fun _ h => absurd h List.not_mem_nil, trivial⟩
  | succ n ih =>
    obtain ⟨round, hround, heach⟩ := inv.exists_round
    obtain ⟨rounds, hlength, hrounds, hrest⟩ := ih (inv.run_from heach)
    refine ⟨round :: rounds, congrArg Nat.succ hlength,
      List.forall_mem_cons.mpr ⟨hround, hrounds⟩, ?_⟩
    rw [List.flatten_cons, eachStep_append]
    exact ⟨heach, hrest⟩

/-! ### Runs from the platform as set up -/

variable {st : HalSystem} {actors : List ThreadActor} {rounds : List (List ThreadActor)}

/-- Whatever the order of the steps, 41 rounds take C0 through the start of the threads and its
wait for them: it is in the distributed run or behind it, or runs the tests alone. -/
theorem suite_begins (ready : HalReady st)
    (each : EachStep TestSuite.step Meets (afterSetup st) (actors ++ rounds.flatten))
    (complete : ∀ round ∈ rounds, SuiteRound round) (enough : 41 ≤ rounds.length) :
    ((afterSetup st).runFrom (actors ++ rounds.flatten)).point.before = false := by
  rw [eachStep_append] at each
  have hrounds := helped_start.rounds ((lifeInv_afterSetup ready).run_from each.1) each.2 complete
  have hstart := startRank_le ((afterSetup st).runFrom actors)
  have hzero : ((afterSetup st).runFrom (actors ++ rounds.flatten)).startRank = 0 := by
    rw [runFrom, List.foldl_append]
    change _ ≤ ((afterSetup st).runFrom actors).startRank - rounds.length at hrounds
    exact Nat.le_zero.mp (hrounds.trans (by omega))
  by_contra before
  exact absurd hzero (startRank_pos_iff.mpr (Bool.not_eq_false _ ▸ before)).ne'

theorem suite_begins_afterSetup : ∃ (st : HalSystem) (rounds : List (List ThreadActor)),
    HalReady st ∧ rounds.length = 41 ∧ (∀ round ∈ rounds, SuiteRound round) ∧
      ((afterSetup st).runFrom ([] ++ rounds.flatten)).point.before = false := by
  have ready := halReady_afterSetup platformSetup_eq
  obtain ⟨rounds, hlength, hcomplete, heach⟩ := (lifeInv_afterSetup ready).exists_rounds 41
  exact ⟨_, rounds, ready, hlength, hcomplete, suite_begins ready heach hcomplete hlength.ge⟩

/-- Whatever the order of the steps, 59 rounds behind the distributed run take C0 through its
wait for the threads: all of them have ended, and it has returned. -/
theorem suite_ends (ready : HalReady st)
    (each : EachStep TestSuite.step Meets (afterSetup st) (actors ++ rounds.flatten))
    (behind : ((afterSetup st).runFrom actors).point.behind = true)
    (complete : ∀ round ∈ rounds, SuiteRound round) (enough : 59 ≤ rounds.length) :
    ((afterSetup st).runFrom (actors ++ rounds.flatten)).point = .returned := by
  rw [eachStep_append] at each
  have hinv := (lifeInv_afterSetup ready).run_from each.1
  have hrun := helped_end.run ⟨hinv, behind⟩ each.2
  have hrounds := helped_end.rounds ⟨hinv, behind⟩ each.2 complete
  have hstart := endRank_le ((afterSetup st).runFrom actors)
  rw [runFrom, List.foldl_append]
  refine returned_of_endRank hrun.1.2 (Nat.le_zero.mp (hrounds.trans ?_))
  change ((afterSetup st).runFrom actors).endRank - rounds.length ≤ 0
  omega

/-- From the platform as set up a run leads behind the distributed run. -/
theorem exists_behind (ready : HalReady st) : ∃ actors,
    EachStep TestSuite.step Meets (afterSetup st) actors ∧
      ((afterSetup st).runFrom actors).point.behind = true := by
  have hbegin := (lifeInv_afterSetup ready).can_begin fun _ => SuitePoint.noConfusion
  have hreach : CanReach TestSuite.step Meets (fun t => LifeInv t ∧ t.point.behind = true)
      (afterSetup st) := by
    refine hbegin.bind fun t ⟨inv, began⟩ => ?_
    rcases began with htests | hbehind
    · exact inv.can_leave htests
    · exact .here ⟨inv, hbehind⟩
  obtain ⟨actors, heach, -, hbehind⟩ := hreach
  exact ⟨actors, heach, hbehind⟩

theorem suite_ends_afterSetup :
    ∃ (st : HalSystem) (actors : List ThreadActor) (rounds : List (List ThreadActor)),
      HalReady st ∧ ((afterSetup st).runFrom actors).point.behind = true ∧
        rounds.length = 59 ∧ (∀ round ∈ rounds, SuiteRound round) ∧
          ((afterSetup st).runFrom (actors ++ rounds.flatten)).point = .returned := by
  have ready := halReady_afterSetup platformSetup_eq
  obtain ⟨actors, heach, hbehind⟩ := exists_behind ready
  obtain ⟨rounds, hlength, hcomplete, hrest⟩ :=
    ((lifeInv_afterSetup ready).run_from heach).exists_rounds 59
  exact ⟨_, actors, rounds, ready, hbehind, hlength, hcomplete,
    suite_ends ready (eachStep_append.mpr ⟨heach, hrest⟩) hbehind hcomplete hlength.ge⟩

/-- From the platform as set up a run leads to a state with a tile in its test. -/
theorem exists_running_afterSetup (ready : HalReady st) : ∃ actors,
    EachStep TestSuite.step Meets (afterSetup st) actors ∧ ∃ tile task own,
      (((afterSetup st).runFrom actors).suite.run.sys.tiles tile).pc = .running task own := by
  have inv := lifeInv_afterSetup ready
  obtain ⟨actors, heach, hbehind⟩ := exists_behind ready
  -- behind the distributed run the table has been executed, so a tile was in its test before
  have hexecuted : ((afterSetup st).runFrom actors).suite.run.sys.history.executed ≠ [] := by
    obtain ⟨hprogress, finished⟩ := (inv.run_from heach).suite.behind hbehind
    have htotal := (hprogress.rowsExecuted finished).total
    intro hnone
    rw [hnone] at htotal
    exact absurd htotal (by decide)
  obtain ⟨before, after, rfl, hrunning⟩ := inv.exists_inTest heach rfl hexecuted
  exact ⟨before, (eachStep_append.mp heach).1, hrunning⟩

/-- No state is a dead end: every run can be continued until C0 has come to its end, with the
threads or alone. -/
theorem suite_can_end (ready : HalReady st)
    (each : EachStep TestSuite.step Meets (afterSetup st) actors) :
    CanReach TestSuite.step Meets Ended ((afterSetup st).runFrom actors) := by
  have hinv := (lifeInv_afterSetup ready).run_from each
  by_cases together : ((afterSetup st).runFrom actors).Together
  · refine ((hinv.can_begin together).bind fun t' h => h.1.can_return_of_began h.2).mono ?_
    exact fun t' h => Or.inl h.2
  · unfold Together at together
    push Not at together
    obtain ⟨rest, alone⟩ := together
    exact (hinv.can_end_alone alone).mono fun t' h => Or.inr h.2.2

theorem suite_can_end_inTest : ∃ st actors, HalReady st ∧
    (∃ tile task own,
      (((afterSetup st).runFrom actors).suite.run.sys.tiles tile).pc = .running task own) ∧
      CanReach TestSuite.step Meets Ended ((afterSetup st).runFrom actors) := by
  have ready := halReady_afterSetup platformSetup_eq
  obtain ⟨actors, heach, hrunning⟩ := exists_running_afterSetup ready
  exact ⟨_, actors, ready, hrunning, suite_can_end ready heach⟩

/-! ### What the suite leaves behind -/

/-- C0 has returned: the tests have passed on the tiles of their rows; every thread has ended, and
no tile has a task; the signal of every tile is pending, and nothing else, as C0 has served
nothing. -/
structure Returned (t : TestSuite) : Prop where
  passed : t.suite.Passed
  rows : t.suite.RowsExecuted
  ended : ∀ tile, 1 ≤ tile ∧ tile < numTiles →
    (t.threads tile).point = .exited ∧ (t.threads tile).running = false
  polls : ∀ tile, (t.suite.run.sys.tiles tile).pc = .poll
  pending_iff : ∀ b s, PlicRegDef.IsSource s → (t.plic.pending b s = true ↔ b = .c0c1 ∧
    ∃ tile, (1 ≤ tile ∧ tile < numTiles) ∧ s = plicCalculateSourceId tile 0 irqMeshNode)
  unserved : t.log = [] ∧ t.plicInterruptsProcessed = 0
  unsent : ∀ tile, t.interruptsSent tile = 0

theorem LifeInv.returned (inv : LifeInv t) (signals : SignalInv t) (point : t.point = .returned) :
    Returned t := by
  have hbehind : t.point.behind = true := by rw [point]; rfl
  obtain ⟨hprogress, finished⟩ := inv.suite.behind hbehind
  have hended : ∀ tile, 1 ≤ tile ∧ tile < numTiles →
      (t.threads tile).Stopping ∧ (t.threads tile).point = .exited := by
    intro tile hvalid
    have hexpects := inv.threads.threads tile hvalid.1 hvalid.2
    rwa [point] at hexpects
  have hpolls : ∀ tile, (t.suite.run.sys.tiles tile).pc = .poll := by
    intro tile
    have htask := inv.threads.tasks tile
    by_cases hvalid : 1 ≤ tile ∧ tile < numTiles
    · rwa [(hended tile hvalid).2] at htask
    · rwa [inv.threads.outside tile hvalid] at htask
  exact
    { passed := hprogress.passed finished
      rows := hprogress.rowsExecuted finished
      ended := fun tile hvalid => ⟨(hended tile hvalid).2, (hended tile hvalid).1.stopped⟩
      polls := hpolls
      pending_iff := fun b s hs =>
        signals.pending_iff inv hbehind (fun tile _ => hpolls tile) b hs
      unserved := ⟨inv.irq.log, inv.irq.processed⟩
      unsent := inv.irq.unsent }

/-- C0 has run the tests alone: they have passed, and the platform is ready. No tile has had a
task, and nothing has signalled; the threads that were created are in their loops, or on the way
to them, for good. -/
structure RanAlone (t : TestSuite) (count : ℤ × ℤ) : Prop where
  passed : count = (8, 8)
  ready : HalReady t.suite.session.shared
  untouched : t.suite.run = {}
  clear : ∀ b s, PlicRegDef.IsSource s → t.plic.pending b s = false
  left : ∀ tile, t.threads tile = {} ∨ (t.threads tile).Starting

/-- C0 starts the thread of tile 1, which comes into its loop, and is not granted the next. -/
def secondRefused : List ThreadActor :=
  [.c0 true true fun _ => .zeroed, .c0 true true fun _ => .zeroed, .tile 1 true .zeroed,
    .tile 1 true .zeroed, .c0 false true fun _ => .zeroed]

theorem eachStep_secondRefused (st : HalSystem) :
    EachStep TestSuite.step Meets (afterSetup st) secondRefused :=
  ⟨meets_c0 (quiet_of_not_tests SuitePoint.noConfusion) true true,
    meets_c0 (quiet_of_not_tests SuitePoint.noConfusion) true true, meets_tile _ 1 true,
    meets_tile _ 1 true, meets_c0 (quiet_of_not_tests SuitePoint.noConfusion) false true, trivial⟩

/-- C0 then gets to the end of its tests, with tile 1 in its loop. -/
theorem exists_alone (ready : HalReady st) : ∃ actors count,
    EachStep TestSuite.step Meets (afterSetup st) actors ∧
      ((afterSetup st).runFrom actors).point = .alone (.done count) ∧
        ((afterSetup st).runFrom actors).threads 1 = ⟨.loop, true, true⟩ := by
  have heach := eachStep_secondRefused st
  obtain ⟨actors, hrest, -, hthreads, count, hpoint⟩ :=
    ((lifeInv_afterSetup ready).run_from heach).can_end_alone rfl
  refine ⟨secondRefused ++ actors, count, eachStep_append.mpr ⟨heach, hrest⟩, ?_, ?_⟩ <;>
    rw [runFrom, List.foldl_append]
  · exact hpoint
  · exact congrFun hthreads 1

/-- Without its threads C0 passes the tests all the same, and leaves those it has created. -/
theorem suite_ran_alone (ready : HalReady st)
    (each : EachStep TestSuite.step Meets (afterSetup st) actors) {count : ℤ × ℤ}
    (alone : ((afterSetup st).runFrom actors).point = .alone (.done count)) :
    RanAlone ((afterSetup st).runFrom actors) count := by
  have inv := (lifeInv_afterSetup ready).run_from each
  obtain ⟨huntouched, -, hcount, hready⟩ := inv.suite.alone _ alone
  have hunbegun : ¬ ((afterSetup st).runFrom actors).point.Began := by
    rw [alone]
    exact SuitePoint.not_began_alone
  refine ⟨hcount, hready, huntouched, inv.irq.clear hunbegun, fun tile => ?_⟩
  by_cases hvalid : 1 ≤ tile ∧ tile < numTiles
  · have hexpects := inv.threads.threads tile hvalid.1 hvalid.2
    rwa [alone] at hexpects
  · exact Or.inl (inv.threads.outside tile hvalid)

theorem suite_ran_alone_secondRefused : ∃ st actors count, HalReady st ∧
    ((afterSetup st).runFrom actors).point = .alone (.done count) ∧
      ((afterSetup st).runFrom actors).threads 1 = ⟨.loop, true, true⟩ ∧
        RanAlone ((afterSetup st).runFrom actors) count := by
  have ready := halReady_afterSetup platformSetup_eq
  obtain ⟨actors, count, heach, hpoint, hthread⟩ := exists_alone ready
  exact ⟨_, actors, count, ready, hpoint, hthread, suite_ran_alone ready heach hpoint⟩

end TestSuite

end MeshNoc
