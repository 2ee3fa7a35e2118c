import Mathlib.Algebra.BigOperators.Intervals
import MeshNoc.C0Master.SuiteReturns

/-!
# The execution report

`tile_stats` counts, for each tile, the tasks it has begun and the calls of test functions it
has made. Both agree with what the tile has executed at every point of its loop, and so the
report that is printed behind the distributed run shows the test functions each tile has run.

## Main results

* `executionStats_loop` — what a step in the loop means for the counters
* `suite_report` — what the report shows
-/

namespace MeshNoc

open Lib
open TaskSystem

/-- The thread has reset the statistics of its tile. -/
def ThreadPoint.registered : ThreadPoint → Bool
  | absent | created | registering => false
  | loop | signal | check | leaving | notifying | exited => true

/-- The tiles of the two tasks of the parallel test. -/
def parallelTiles : List ℕ := [1, 2]

/-- How many rows of the table a tile executes. -/
def rowShare (tile : ℕ) : ℕ := ((List.range halTests.length).map rowTile).count tile

/-- The report shows nothing for C0; every tile as active, with as many calls as tasks: its rows of
the table and at most its task of the parallel test. -/
structure VerificationReport.Right (report : VerificationReport) : Prop where
  master : report.rows[0]? = some ({} : TileStats)
  tiles : ∀ tile, 1 ≤ tile ∧ tile < numTiles → ∃ row, report.rows[tile]? = some row ∧
    row.tileId = tile ∧ row.active = true ∧ row.tasksExecuted = row.halCallsMade ∧
      rowShare tile ≤ row.halCallsMade ∧
        row.halCallsMade ≤ rowShare tile + parallelTiles.count tile
  active : report.activeTiles = 7
  halActive : report.halActiveTiles = 7
  total : 16 ≤ (report.rows.map TileStats.halCallsMade).sum ∧
    (report.rows.map TileStats.halCallsMade).sum ≤ 18

namespace TaskSystem

variable {s s' : TaskSystem} {tile : ℕ} {value : ℤ}

/-- How many tasks the tile has executed since the storage was last reset. -/
def executions (s : TaskSystem) (tile : ℕ) : ℕ :=
  s.history.executed.countP fun e => e.tile = tile

/-- The other tiles have executed what they had. -/
theorem LoopStep.others (step : LoopStep s s' tile) {other : ℕ} (ne : other ≠ tile) :
    s'.executions other = s.executions other := by
  unfold executions
  cases step with
  | begins task before after executed => rw [executed]
  | calls task id before after executed => rw [executed]
  | returns task id value before after executed =>
    rw [executed]
    exact List.countP_cons_of_neg fun h => ne (of_decide_eq_true h).symm
  | plain before after executed => rw [executed]

end TaskSystem

/-- At the reset the tiles have executed at most the tasks of the parallel test. -/
theorem HalRun.ProgressInv.executions_le {tests : HalTable} {r : HalRun}
    (inv : ProgressInv tests r) (nodes : r.sys.nodeCount = numTiles)
    (phase : r.phase = .resetStorage) (tile : ℕ) :
    r.sys.executions tile ≤ parallelTiles.count tile := by
  have hlength : r.sys.history.chosen.length = 2 := by
    have h := inv.rows
    rwa [phase] at h
  have hchosen : r.sys.history.chosen.map Prod.snd = parallelTiles.reverse := by
    have h := inv.round.chosen.chosen
    rw [phase, nodes, List.length_map, hlength] at h
    rw [h]
    decide
  have hcount := inv.executed_subperm.countP_le fun p => p.2 == tile
  have hright : r.sys.history.chosen.countP (fun p => p.2 == tile) = parallelTiles.count tile := by
    rw [← List.count_reverse, ← hchosen, List.count, List.countP_map]
    rfl
  rw [hright, List.countP_map] at hcount
  exact hcount

namespace TestSuite

variable {t t' : TestSuite} {id tile : ℕ} {first granted : Bool} {u : Uninitialised}
  {w : ℕ → Uninitialised}

/-- The statistics of a tile, as its thread is to find them when it has reset them. -/
def recorded (t : TestSuite) (tile : ℕ) : TileStats :=
  if (t.threads tile).point.registered then t.stats tile else { tileId := tile, active := true }

/-- How many tasks of a tile may have gone with the storage when it was reset: those of the
parallel test. -/
def forgotten (t : TestSuite) (tile : ℕ) : ℕ :=
  if t.suite.run.phase.inBatch then parallelTiles.count tile else 0

/-- The counters of a tile agree with what it has executed. -/
structure Counts (t : TestSuite) (tile : ℕ) : Prop where
  tileId : (t.recorded tile).tileId = tile
  active : (t.recorded tile).active = true
  tasks : (t.recorded tile).tasksExecuted =
    (t.recorded tile).halCallsMade + (t.suite.run.sys.tiles tile).pc.calling.toNat
  calls : ∃ earlier ≤ t.forgotten tile, (t.recorded tile).halCallsMade =
    earlier + t.suite.run.sys.executions tile + (t.suite.run.sys.tiles tile).pc.inTest.toNat

theorem Counts.congr (counts : t.Counts tile) (recorded : t'.recorded tile = t.recorded tile)
    (pc : (t'.suite.run.sys.tiles tile).pc = (t.suite.run.sys.tiles tile).pc)
    (executions : t'.suite.run.sys.executions tile = t.suite.run.sys.executions tile)
    (inBatch : t'.suite.run.phase.inBatch = t.suite.run.phase.inBatch) : t'.Counts tile where
  tileId := by rw [recorded, counts.tileId]
  active := by rw [recorded, counts.active]
  tasks := by rw [recorded, pc, counts.tasks]
  calls := by
    unfold forgotten
    rw [recorded, pc, executions, inBatch]
    exact counts.calls

theorem recorded_of_registered (registered : (t.threads tile).point.registered = true) :
    t.recorded tile = t.stats tile := if_pos registered

theorem registered_loopPoint (before after : TilePc) :
    (loopPoint before after).registered = true := by
  unfold loopPoint
  split <;> rfl

theorem executionStats_plain {before after : TilePc} (notCalling : before.calling = false)
    (notCalling' : after.calling = false) : t.executionStats id before after = t.stats id := by
  unfold executionStats
  split
  · exact absurd notCalling' Bool.true_eq_false.mp
  · exact absurd notCalling Bool.true_eq_false.mp
  · rfl

/-- The counters of a tile before and after a step in its loop. -/
theorem executionStats_loop {before after : TaskSystem} {earlier : ℕ}
    (tileId : (t.stats id).tileId = id) (active : (t.stats id).active = true)
    (tasks : (t.stats id).tasksExecuted =
      (t.stats id).halCallsMade + (before.tiles id).pc.calling.toNat)
    (calls : (t.stats id).halCallsMade =
      earlier + before.executions id + (before.tiles id).pc.inTest.toNat)
    (step : after = before ∨ LoopStep before after id) {stats : TileStats}
    (eq : stats = t.executionStats id (before.tiles id).pc (after.tiles id).pc) :
    stats.tileId = id ∧ stats.active = true ∧
      stats.tasksExecuted = stats.halCallsMade + (after.tiles id).pc.calling.toNat ∧
        stats.halCallsMade = earlier + after.executions id + (after.tiles id).pc.inTest.toNat := by
  have hexecutions (same : after.history.executed = before.history.executed) :
      after.executions id = before.executions id := by
    unfold executions
    rw [same]
  rcases step with rfl | step
  · have hself : t.executionStats id (after.tiles id).pc (after.tiles id).pc = t.stats id := by
      cases (after.tiles id).pc <;> rfl
    rw [eq, hself]
    exact ⟨tileId, active, tasks, calls⟩
  cases step with
  | begins task pc pc' executed =>
    rw [pc] at tasks calls
    rw [eq, pc, pc', hexecutions executed]
    exact ⟨rfl, rfl, congrArg Nat.succ tasks, calls⟩
  | calls task slot pc pc' executed =>
    rw [pc] at tasks calls
    rw [eq, pc, pc', hexecutions executed]
    exact ⟨tileId, active, tasks, congrArg Nat.succ calls⟩
  | returns task slot value pc pc' executed =>
    rw [pc] at tasks calls
    have hmore : after.executions id = before.executions id + 1 := by
      unfold executions
      rw [executed]
      exact List.countP_cons_of_pos (decide_eq_true rfl)
    rw [eq, pc, pc', hmore]
    exact ⟨tileId, active, tasks, calls⟩
  | plain pc pc' executed =>
    rw [pc.1] at tasks
    rw [pc.2] at calls
    rw [eq, executionStats_plain pc.1 pc'.1, pc'.1, pc'.2, hexecutions executed]
    exact ⟨tileId, active, tasks, calls⟩

/-- A tile makes a step in its loop. -/
theorem Counts.stepLoop (counts : t.Counts id) (life : LifeInv t)
    (loop : (t.threads id).point = .loop) : (t.stepLoop id first u).Counts id := by
  have hstats : t.recorded id = t.stats id := recorded_of_registered (by rw [loop]; rfl)
  have hstats' : (t.stepLoop id first u).recorded id =
      t.executionStats id (t.suite.run.sys.tiles id).pc
        ((t.suite.step (.tile id first u)).run.sys.tiles id).pc := by
    refine (recorded_of_registered ?_).trans (Function.update_self ..)
    change (Function.update t.threads id _ id).point.registered = true
    rw [Function.update_self]
    exact registered_loopPoint _ _
  have hforgotten : (t.stepLoop id first u).forgotten id = t.forgotten id := by
    unfold forgotten
    change (if (t.suite.step (.tile id first u)).run.phase.inBatch then _ else _) = _
    rw [SuiteAt.phase_step_tile]
  obtain ⟨htile, hactive, htasks, earlier, hearlier, hcalls⟩ := counts
  rw [hstats] at htile hactive htasks hcalls
  have hmove := (life.loopStep loop first u).imp_right And.right
  obtain ⟨htile', hactive', htasks', hcalls'⟩ :=
    executionStats_loop htile hactive htasks hcalls hmove hstats'
  exact ⟨htile', hactive', htasks', earlier, hforgotten ▸ hearlier, hcalls'⟩

/-! ### The report -/

/-- What holds of the statistics: C0's own stay empty, those of the tiles agree with what they have
executed, and the report is printed behind the distributed run. -/
structure StatsInv (t : TestSuite) : Prop where
  master : t.stats 0 = {}
  counts : ∀ tile, 1 ≤ tile ∧ tile < numTiles → t.Counts tile
  report : ∀ report, t.report = some report → report.Right
  printed : t.point.behind = true → t.report ≠ none

theorem statsInv_afterSetup (st : HalSystem) : StatsInv (afterSetup st) where
  master := rfl
  counts _ _ := ⟨rfl, rfl, rfl, 0, Nat.zero_le _, rfl⟩
  report report h := absurd h.symm (Option.some_ne_none report)
  printed h := absurd h Bool.false_ne_true

/-- A thread makes a step outside its loop. -/
theorem StatsInv.outside (inv : StatsInv t) (suite : t'.suite.run = t.suite.run)
    (recorded : ∀ tile, 1 ≤ tile ∧ tile < numTiles → t'.recorded tile = t.recorded tile)
    (master : t'.stats 0 = t.stats 0) (report : t'.report = t.report)
    (point : t'.point = t.point) : StatsInv t' where
  master := master.trans inv.master
  counts tile hvalid :=
    (inv.counts tile hvalid).congr (recorded tile hvalid) (by rw [suite]) (by rw [suite])
      (by rw [suite])
  report := by
    rw [report]
    exact inv.report
  printed := by
    rw [report, point]
    exact inv.printed

theorem recorded_setThread (thread : ProcessorThread)
    (registered : thread.point.registered = (t.threads id).point.registered) (tile : ℕ) :
    (t.setThread id thread).recorded tile = t.recorded tile := by
  unfold recorded
  change (if (Function.update t.threads id thread tile).point.registered then _ else _) = _
  by_cases htile : tile = id
  · rw [htile, Function.update_self, registered]
    rfl
  · rw [Function.update_of_ne htile]
    rfl

theorem StatsInv.stepLoop (inv : StatsInv t) (life : LifeInv t)
    (loop : (t.threads id).point = .loop) : StatsInv (t.stepLoop id first u) where
  master := by
    have hvalid := life.threads.valid (by rw [loop]; decide)
    exact (Function.update_of_ne (Nat.ne_of_lt hvalid.1) ..).trans inv.master
  counts tile hvalid := by
    by_cases htile : tile = id
    · subst htile
      exact (inv.counts tile hvalid).stepLoop life loop
    · refine (inv.counts tile hvalid).congr ?_ ?_ ?_ ?_
      · unfold recorded
        change (if (Function.update t.threads id _ tile).point.registered then
          Function.update t.stats id _ tile else _) = _
        rw [Function.update_of_ne htile, Function.update_of_ne htile]
      · exact congrArg TileThread.pc (SuiteAt.others_step_tile t.suite htile)
      · change (t.suite.step (.tile id first u)).run.sys.executions tile = _
        rcases life.loopStep loop first u with hsame | ⟨-, hstep⟩
        · rw [hsame]
        · exact hstep.others htile
      · change (t.suite.step (.tile id first u)).run.phase.inBatch = _
        rw [SuiteAt.phase_step_tile]
  report := inv.report
  printed := inv.printed

/-- A step of a thread. -/
theorem StatsInv.stepThread (inv : StatsInv t) (life : LifeInv t) :
    StatsInv (t.stepThread id first u) := by
  cases point : (t.threads id).point with
  | absent | exited =>
    simp only [TestSuite.stepThread, point]
    exact inv
  | created =>
    have hvalid := life.threads.valid (by rw [point]; decide)
    have huntouched := life.suite.untouched
      ((life.threads.threads id hvalid.1 hvalid.2).unbegun point)
    simp only [TestSuite.stepThread, point]
    refine inv.outside (congrArg SuiteRun.run (suite_initialise huntouched))
      (fun tile _ => ?_) rfl rfl rfl
    exact recorded_setThread ⟨.registering, true, true⟩ (by rw [point]; rfl) tile
  | registering =>
    have hvalid := life.threads.valid (by rw [point]; decide)
    simp only [TestSuite.stepThread, point]
    refine inv.outside rfl (fun tile _ => ?_)
      (Function.update_of_ne (Nat.ne_of_lt hvalid.1) ..) rfl rfl
    unfold recorded
    change (if (Function.update t.threads id _ tile).point.registered then
      Function.update t.stats id _ tile else _) = _
    by_cases htile : tile = id
    · rw [htile, Function.update_self, Function.update_self, point]
      rfl
    · rw [Function.update_of_ne htile, Function.update_of_ne htile]
  | loop =>
    simp only [TestSuite.stepThread, point]
    exact inv.stepLoop life point
  | signal =>
    simp only [TestSuite.stepThread, point]
    exact inv.outside rfl (fun tile _ => recorded_setThread _ (by rw [point]; rfl) tile) rfl rfl rfl
  | check | leaving =>
    simp only [TestSuite.stepThread, point]
    refine inv.outside rfl (fun tile _ => recorded_setThread _ ?_ tile) rfl rfl rfl
    rw [point]
    dsimp only
    split_ifs <;> rfl
  | notifying => exact absurd point (life.threads.silent id)

/-- C0 leaves the statistics alone. -/
theorem stats_stepC0 (t : TestSuite) (granted first : Bool) (w : ℕ → Uninitialised) :
    (t.stepC0 granted first w).stats = t.stats := by
  cases point : t.point with
  | service cycles drain => cases drain <;> simp only [TestSuite.stepC0, point] <;> rfl
  | start | create i | supervise cycles | stop i | tests | await i | join i =>
    simp only [TestSuite.stepC0, point, TestSuite.startTileThreads]
    split_ifs <;> rfl
  | enable | disable | returned => simp only [TestSuite.stepC0, point]
  | alone rest =>
    simp only [TestSuite.stepC0, point]
    split <;> rfl

/-- C0 makes no thread reset its statistics again. -/
theorem registered_stepC0 (life : LifeInv t) (granted first : Bool) (w : ℕ → Uninitialised)
    (valid : 1 ≤ tile ∧ tile < numTiles) :
    ((t.stepC0 granted first w).threads tile).point.registered =
      (t.threads tile).point.registered := by
  have hset (i : ℕ) (thread : ProcessorThread)
      (same : tile = i → thread.point.registered = (t.threads i).point.registered) :
      (Function.update t.threads i thread tile).point.registered =
        (t.threads tile).point.registered := by
    by_cases htile : tile = i
    · rw [htile, Function.update_self, same htile]
    · rw [Function.update_of_ne htile]
  cases point : t.point with
  | create i =>
    simp only [TestSuite.stepC0, point]
    split_ifs
    · change (Function.update (Function.update t.threads i _) i _ tile).point.registered = _
      rw [Function.update_idem]
      refine hset i _ fun htile => ?_
      -- the thread that is created was not there
      have hexpects := life.threads.threads tile valid.1 valid.2
      rw [point] at hexpects
      rw [← htile, hexpects.2 htile.ge]
      rfl
    · exact hset i _ fun _ => rfl
    · rfl
  | stop i =>
    simp only [TestSuite.stepC0, point]
    split_ifs
    · exact hset i _ fun _ => rfl
    · rfl
  | service cycles drain => cases drain <;> simp only [TestSuite.stepC0, point] <;> rfl
  | start | supervise cycles | tests | await i | join i =>
    simp only [TestSuite.stepC0, point, TestSuite.startTileThreads]
    split_ifs <;> rfl
  | enable | disable | returned => simp only [TestSuite.stepC0, point]
  | alone rest =>
    simp only [TestSuite.stepC0, point]
    split <;> rfl

theorem recorded_stepC0 (life : LifeInv t) (granted first : Bool) (w : ℕ → Uninitialised)
    (valid : 1 ≤ tile ∧ tile < numTiles) :
    (t.stepC0 granted first w).recorded tile = t.recorded tile := by
  unfold recorded
  rw [registered_stepC0 life granted first w valid, stats_stepC0]

/-- A step of C0 and the counters of a tile. -/
theorem Counts.stepC0 (counts : t.Counts tile) (life : LifeInv t) (quiet : t.Quiet)
    (valid : 1 ≤ tile ∧ tile < numTiles) : (t.stepC0 granted first w).Counts tile := by
  have hrecorded := recorded_stepC0 life granted first w valid
  cases runKept_stepC0 life quiet granted first w with
  | keeps tiles executed inBatch =>
    refine counts.congr hrecorded (by rw [tiles]) ?_ inBatch
    unfold executions
    rw [executed]
  | resets tiles phase held executed inBatch =>
    have hprogress : t.suite.ProgressInv := by
      refine life.suite.untouched_or_progress.resolve_left fun huntouched => ?_
      rw [huntouched] at phase
      exact HalPhase.noConfusion phase
    have hnodes := hprogress.values.nodeCount
    have hheld := held tile (hnodes ▸ valid.2)
    have hplain : (t.suite.run.sys.tiles tile).pc.calling = false ∧
        (t.suite.run.sys.tiles tile).pc.inTest = false := by
      cases hpc : (t.suite.run.sys.tiles tile).pc <;> rw [hpc] at hheld <;>
        first | exact ⟨rfl, rfl⟩ | exact absurd hheld (Option.some_ne_none _)
    obtain ⟨htile, hactive, htasks, earlier, hearlier, hcalls⟩ := counts
    have hzero : earlier = 0 := by
      unfold forgotten at hearlier
      rw [phase] at hearlier
      exact Nat.le_zero.mp hearlier
    have hnone : (t.stepC0 granted first w).suite.run.sys.executions tile = 0 := by
      unfold executions
      rw [executed]
      rfl
    refine ⟨by rw [hrecorded, htile], by rw [hrecorded, hactive], ?_,
      t.suite.run.sys.executions tile, ?_, ?_⟩
    · rw [hrecorded, tiles, htasks]
    · unfold forgotten
      rw [if_pos inBatch]
      exact hprogress.progress.executions_le hnodes phase tile
    · rw [hrecorded, tiles, hcalls, hplain.2, hnone, hzero]
      omega

/-- Every tile has rows of the table. -/
theorem two_le_rowShare (valid : 1 ≤ tile ∧ tile < numTiles) : 2 ≤ rowShare tile := by
  have hall : ∀ tile < numTiles, 1 ≤ tile → 2 ≤ rowShare tile := by decide
  exact hall tile valid.2 valid.1

/-- When the run has finished, the report is right. -/
theorem StatsInv.right (inv : StatsInv t) (life : LifeInv t) (tests : t.point = .tests)
    (finished : t.suite.run.phase = .finished) : (printExecutionVerification t.stats).Right := by
  have hprogress := life.suite.during tests
  have hresting := hprogress.progress.resting (by decide) finished
  have hshares := (hprogress.rowsExecuted finished).shares
  have hrow : ∀ tile, 1 ≤ tile ∧ tile < numTiles → (t.stats tile).tileId = tile ∧
      (t.stats tile).active = true ∧
        (t.stats tile).tasksExecuted = (t.stats tile).halCallsMade ∧
          rowShare tile ≤ (t.stats tile).halCallsMade ∧
            (t.stats tile).halCallsMade ≤ rowShare tile + parallelTiles.count tile := by
    intro tile hvalid
    obtain ⟨htile, hactive, htasks, earlier, hearlier, hcalls⟩ := inv.counts tile hvalid
    have hplain : (t.suite.run.sys.tiles tile).pc.calling = false ∧
        (t.suite.run.sys.tiles tile).pc.inTest = false := by
      have hcounted := hresting.counted tile
      cases hpc : (t.suite.run.sys.tiles tile).pc <;> rw [hpc] at hcounted <;>
        first | exact ⟨rfl, rfl⟩ | exact absurd hcounted Bool.true_eq_false.mp
    have hshare : t.suite.run.sys.executions tile = rowShare tile := hshares tile
    rw [hplain.2, hshare] at hcalls
    rw [hplain.1] at htasks
    -- a tile that has executed its rows has reset its statistics before
    have hregistered : (t.threads tile).point.registered = true := by
      by_contra hnot
      have hrecorded : t.recorded tile = { tileId := tile, active := true } := if_neg hnot
      rw [hrecorded] at hcalls
      have htwo := two_le_rowShare hvalid
      have hnone : 0 = earlier + rowShare tile := hcalls
      omega
    rw [recorded_of_registered hregistered] at htile hactive htasks hcalls
    unfold forgotten at hearlier
    rw [finished] at hearlier
    have hearlier' : earlier ≤ parallelTiles.count tile := hearlier
    refine ⟨htile, hactive, htasks, ?_, ?_⟩ <;> rw [hcalls] <;> simp only [Bool.toNat_false] <;>
      omega
  have heach : ∀ i ∈ List.range' 1 7, 1 ≤ i ∧ i < numTiles := fun i hi =>
    List.mem_range'_1.mp hi
  have hmaster : (t.stats 0).halCallsMade = 0 := by rw [inv.master]
  exact
    { master := congrArg some inv.master
      tiles := fun tile hvalid => by
        refine ⟨t.stats tile, ?_, hrow tile hvalid⟩
        have hrange : tile < 8 := hvalid.2
        simp only [printExecutionVerification, List.getElem?_map, List.getElem?_range hrange,
          Option.map_some]
      active := List.countP_eq_length.mpr fun i hi => (hrow i (heach i hi)).2.1
      halActive := List.countP_eq_length.mpr fun i hi => by
        have hcalls := (hrow i (heach i hi)).2.2.2.1
        have htwo := two_le_rowShare (heach i hi)
        exact decide_eq_true (by omega)
      total := by
        have hsum : ((printExecutionVerification t.stats).rows.map TileStats.halCallsMade).sum =
            ∑ tile ∈ Finset.range 8, (t.stats tile).halCallsMade := rfl
        have hleast : ∑ tile ∈ Finset.Ico 1 8, rowShare tile ≤
            ∑ tile ∈ Finset.Ico 1 8, (t.stats tile).halCallsMade :=
          Finset.sum_le_sum fun tile htile =>
            (hrow tile (Finset.mem_Ico.mp htile)).2.2.2.1
        have hmost : ∑ tile ∈ Finset.Ico 1 8, (t.stats tile).halCallsMade ≤
            ∑ tile ∈ Finset.Ico 1 8, (rowShare tile + parallelTiles.count tile) :=
          Finset.sum_le_sum fun tile htile =>
            (hrow tile (Finset.mem_Ico.mp htile)).2.2.2.2
        have hrows : ∑ tile ∈ Finset.Ico 1 8, rowShare tile = 16 := by decide
        have hall : ∑ tile ∈ Finset.Ico 1 8, (rowShare tile + parallelTiles.count tile) = 18 := by
          decide
        rw [hsum, Finset.range_eq_Ico, Finset.sum_eq_sum_Ico_succ_bot (by decide), hmaster,
          Nat.zero_add]
        exact ⟨hrows ▸ hleast, hall ▸ hmost⟩ }

/-- C0 prints the report when it has finished the run, and then only. -/
theorem report_stepC0 (t : TestSuite) (granted first : Bool) (w : ℕ → Uninitialised) :
    (t.stepC0 granted first w).report = t.report ∧
        ((t.stepC0 granted first w).point.behind = true → t.point.behind = true) ∨
      (t.point = .tests ∧ t.suite.run.phase = .finished) ∧
        (t.stepC0 granted first w).report = some (printExecutionVerification t.stats) := by
  cases point : t.point with
  | tests =>
    simp only [TestSuite.stepC0, point]
    split_ifs with hfinished
    · exact Or.inr ⟨⟨trivial, hfinished⟩, rfl⟩
    · exact Or.inl ⟨rfl, fun h => h⟩
  | service cycles drain =>
    refine Or.inl ?_
    cases drain with
    | outside returned =>
      simp only [TestSuite.stepC0, point]
      exact ⟨trivial, fun h => h⟩
    | claim call | handle call claimId | complete call claimId =>
      simp only [TestSuite.stepC0, point]
      exact ⟨rfl, fun h => h⟩
  | start | create i | supervise cycles | await i =>
    simp only [TestSuite.stepC0, point, TestSuite.startTileThreads]
    split_ifs <;> exact Or.inl ⟨rfl, fun h => by first | exact h | exact point ▸ h⟩
  | stop i | join i =>
    refine Or.inl ⟨?_, fun _ => rfl⟩
    simp only [TestSuite.stepC0, point]
    split_ifs <;> rfl
  | enable | disable | returned =>
    refine Or.inl ?_
    simp only [TestSuite.stepC0, point]
    exact ⟨trivial, fun h => h⟩
  | alone rest =>
    simp only [TestSuite.stepC0, point]
    split <;> exact Or.inl ⟨rfl, fun h => by first | exact h | exact point ▸ h⟩

theorem StatsInv.stepC0 (inv : StatsInv t) (life : LifeInv t) (quiet : t.Quiet) :
    StatsInv (t.stepC0 granted first w) := by
  have hmaster : (t.stepC0 granted first w).stats 0 = {} := by rw [stats_stepC0, inv.master]
  have hcounts : ∀ tile, 1 ≤ tile ∧ tile < numTiles → (t.stepC0 granted first w).Counts tile :=
    fun tile hvalid => (inv.counts tile hvalid).stepC0 life quiet hvalid
  rcases report_stepC0 t granted first w with ⟨hreport, hbehind⟩ | ⟨⟨htests, finished⟩, hreport⟩
  · refine ⟨hmaster, hcounts, ?_, fun h => ?_⟩
    · rw [hreport]
      exact inv.report
    · rw [hreport]
      exact inv.printed (hbehind h)
  · refine ⟨hmaster, hcounts, fun report h => ?_, fun _ => ?_⟩
    · obtain rfl := Option.some.inj (hreport.symm.trans h)
      exact inv.right life htests finished
    · rw [hreport]
      exact Option.some_ne_none _

theorem StatsInv.step (inv : StatsInv t) (life : LifeInv t) {actor : ThreadActor}
    (meets : t.Meets actor) : StatsInv (t.step actor) := by
  cases actor with
  | c0 granted first w => exact inv.stepC0 life (meets.2 granted first w rfl)
  | tile id first u => exact inv.stepThread life

theorem StatsInv.run_from {actors : List ThreadActor} (inv : StatsInv t) (life : LifeInv t)
    (each : EachStep TestSuite.step Meets t actors) : StatsInv (t.runFrom actors) := by
  induction actors generalizing t with
  | nil => exact inv
  | cons actor rest ih => exact ih (inv.step life each.1) (life.step each.1) each.2

variable {st : HalSystem} {actors : List ThreadActor}

/-- Whatever the schedule, the report that C0 prints shows the test functions each tile has run:
its rows of the table, and its task of the parallel test unless that went with the storage. -/
theorem suite_report (ready : HalReady st)
    (each : EachStep TestSuite.step Meets (afterSetup st) actors)
    {report : VerificationReport}
    (printed : ((afterSetup st).runFrom actors).report = some report) : report.Right :=
  ((statsInv_afterSetup st).run_from (lifeInv_afterSetup ready) each).report report printed

theorem suite_report_afterSetup : ∃ st actors report, HalReady st ∧
    ((afterSetup st).runFrom actors).report = some report ∧ report.Right := by
  have ready := halReady_afterSetup platformSetup_eq
  obtain ⟨actors, heach, hbehind⟩ := exists_behind ready
  have hinv := (statsInv_afterSetup _).run_from (lifeInv_afterSetup ready) heach
  obtain ⟨report, hreport⟩ := Option.ne_none_iff_exists'.mp (hinv.printed hbehind)
  exact ⟨_, actors, report, ready, hreport, suite_report ready heach hreport⟩

end TestSuite

end MeshNoc
