import MeshNoc.C0Master.SuiteThreads
import MeshNoc.C0Master.RowTiles

/-!
# The signals of the suite

A tile that has executed a task signals C0 before it completes the task. In the distributed run
and behind it no signal is served, so whatever a tile has signalled stays pending.

## Main results

* `LoopStep`, `loopStep_stepTile` — what a step in its loop does with the task of a tile
* `SignalInv.step`, `SignalInv.run_from` — a tile that has executed a task has signalled C0,
  or is about to
-/

namespace MeshNoc

open Lib
open TaskSystem
open PlicRegDef (IsSource)

/-! ### The tasks -/

/-- The tile has counted its task, and has still to call the test function. -/
def TilePc.calling : TilePc → Bool
  | call _ => true
  | poll | start _ | dispatch _ | running _ _ | storeResult _ _ | setResult _ _ | flag _ | leave _
  | count _ | finish _ => false

/-- The tile has counted the call it is in. -/
def TilePc.inTest : TilePc → Bool
  | running _ _ => true
  | poll | start _ | dispatch _ | call _ | storeResult _ _ | setResult _ _ | flag _ | leave _
  | count _ | finish _ => false

namespace TaskSystem

variable {s s' : TaskSystem} {tile : ℕ} {value : ℤ} {e : Execution}

/-- What a step of a tile does with its task and the executions. -/
inductive LoopStep (s s' : TaskSystem) (tile : ℕ) : Prop
  | begins (task : ℕ) (before : (s.tiles tile).pc = .dispatch task)
      (after : (s'.tiles tile).pc = .call task)
      (executed : s'.history.executed = s.history.executed)
  | calls (task id : ℕ) (before : (s.tiles tile).pc = .call task)
      (after : (s'.tiles tile).pc = .running task id)
      (executed : s'.history.executed = s.history.executed)
  | returns (task id : ℕ) (value : ℤ) (before : (s.tiles tile).pc = .running task id)
      (after : (s'.tiles tile).pc = .storeResult task value)
      (executed : s'.history.executed = ⟨id, tile, task, value⟩ :: s.history.executed)
  | plain (before : (s.tiles tile).pc.calling = false ∧ (s.tiles tile).pc.inTest = false)
      (after : (s'.tiles tile).pc.calling = false ∧ (s'.tiles tile).pc.inTest = false)
      (executed : s'.history.executed = s.history.executed)

theorem loopStep_stepTile (h : s.DispatchInv) (value : ℤ)
    (callable : ∀ task, (s.tiles tile).pc = .call task →
      (s.storage task).params.testFunc ≠ none ∧ (s.storage task).platform = true) :
    LoopStep s (s.stepTile tile value) tile := by
  have hplain {s' : TaskSystem} {pc pc' : TilePc} (before : (s.tiles tile).pc = pc)
      (after : (s'.tiles tile).pc = pc') (executed : s'.history.executed = s.history.executed)
      (outside : pc.calling = false ∧ pc.inTest = false)
      (outside' : pc'.calling = false ∧ pc'.inTest = false) : LoopStep s s' tile :=
    .plain (by rwa [before]) (by rwa [after]) executed
  cases hpc : (s.tiles tile).pc with
  | poll =>
    have hstep : s.stepTile tile value = s.getNextTask tile := by simp only [stepTile, hpc]
    rw [hstep]
    rcases s.getNextTask_cases tile with ⟨slot, -, -, hget⟩ | hget
    · rw [hget]
      exact hplain hpc (pc_setTile ..) rfl ⟨rfl, rfl⟩ ⟨rfl, rfl⟩
    · rw [hget]
      exact hplain hpc ((pc_setTile ..).trans hpc) rfl ⟨rfl, rfl⟩ ⟨rfl, rfl⟩
  | dispatch task =>
    -- the task in the slot is one of those created, which are all tests
    have hheld : (s.tiles tile).pc.held = some task := by rw [hpc]; rfl
    obtain ⟨own, -, hcore⟩ := h.carries_of_held hheld
    have htype : (s.storage task).type = .halTest := congrArg (fun core => core.2.1) hcore
    refine .begins task hpc ?_ ?_ <;> simp only [stepTile, hpc, TaskSystem.dispatch, htype]
    · exact pc_setTile ..
    · rfl
  | call task =>
    have hcalls := callable task hpc
    refine .calls task (s.storage task).taskId hpc ?_ ?_ <;>
      simp only [stepTile, hpc, callTest, if_pos hcalls]
    · exact pc_setTile ..
    · rfl
  | running task id =>
    refine .returns task id value hpc ?_ ?_ <;> simp only [stepTile, hpc]
    · exact pc_setTile ..
    · rfl
  | storeResult task result =>
    simp only [stepTile, hpc]
    refine hplain hpc (pc_setTile ..) ?_ ⟨rfl, rfl⟩ ⟨rfl, rfl⟩
    exact congrArg TaskHistory.executed (s.storeResult_fields task result).2.2.1
  | start task | setResult task result | flag task | leave task | count task | finish task =>
    simp only [stepTile, hpc]
    exact hplain hpc (pc_setTile ..) rfl ⟨rfl, rfl⟩ ⟨rfl, rfl⟩

/-- Only the return of a test function adds to the executions, and then the task has still to be
completed. -/
theorem LoopStep.executed_or (step : LoopStep s s' tile) (mem : e ∈ s'.history.executed) :
    e ∈ s.history.executed ∨ e.tile = tile ∧ (s'.tiles tile).pc.ran ≠ none ∧
      ∀ slot, (s'.tiles tile).pc ≠ .flag slot := by
  cases step with
  | returns task id value before after executed =>
    rw [executed] at mem
    refine (List.mem_cons.mp mem).symm.imp_right fun hnew => ?_
    rw [after, hnew]
    exact ⟨rfl, Option.some_ne_none task, fun _ => TilePc.noConfusion⟩
  | begins task before after executed | calls task id before after executed
  | plain before after executed => exact Or.inl (executed ▸ mem)

/-- A tile that has executed its task gets to the flag by way of the result. -/
theorem ran_stepTile (ran : (s.tiles tile).pc.ran ≠ none)
    (unflagged : ∀ slot, (s.tiles tile).pc ≠ .flag slot) :
    ((s.stepTile tile value).tiles tile).pc.ran ≠ none ∧
      ∀ slot, ((s.stepTile tile value).tiles tile).pc = .flag slot →
        ∃ result, (s.tiles tile).pc = .setResult slot result := by
  cases hpc : (s.tiles tile).pc with
  | storeResult task result =>
    have harrives : ((s.stepTile tile value).tiles tile).pc = .setResult task result := by
      simp only [stepTile, hpc]
      exact pc_setTile ..
    rw [harrives]
    exact ⟨Option.some_ne_none task, fun _ => TilePc.noConfusion⟩
  | setResult task result =>
    have harrives : ((s.stepTile tile value).tiles tile).pc = .flag task := by
      simp only [stepTile, hpc]
      exact pc_setTile ..
    rw [harrives]
    refine ⟨Option.some_ne_none task, fun slot hflag => ⟨result, ?_⟩⟩
    rw [TilePc.flag.inj hflag]
  | flag task => exact absurd hpc (unflagged task)
  | poll | start task | dispatch task | call task | running task id | leave task | count task
  | finish task =>
    rw [hpc] at ran
    exact absurd rfl ran

end TaskSystem

/-! ### The run -/

/-- C0 is at the batch of the table, the storage having been reset for it. -/
def HalPhase.inBatch : HalPhase → Bool
  | createA | createB | queueA _ | queueB _ | waitA _ | waitB _ | resetStorage => false
  | resetCounters | create _ | queue _ | wait | finished => true

/-- What C0 does to the run: it leaves the tiles and what they have executed alone, or resets
the storage with no tile in its way. -/
inductive RunKept (r r' : HalRun) : Prop
  | keeps (tiles : r'.sys.tiles = r.sys.tiles)
      (executed : r'.sys.history.executed = r.sys.history.executed)
      (inBatch : r'.phase.inBatch = r.phase.inBatch)
  | resets (tiles : r'.sys.tiles = r.sys.tiles) (phase : r.phase = .resetStorage)
      (quiet : ∀ tile < r.sys.nodeCount, (r.sys.tiles tile).pc.held = none)
      (executed : r'.sys.history.executed = []) (inBatch : r'.phase.inBatch = true)

theorem RunKept.tiles {r r' : HalRun} (kept : RunKept r r') : r'.sys.tiles = r.sys.tiles := by
  cases kept with
  | keeps tiles executed inBatch => exact tiles
  | resets tiles phase quiet executed inBatch => exact tiles

namespace HalRun

variable {r : HalRun}

/-- Only the reset leads to the batch. -/
theorem inBatch_stepIdle (tests : HalTable) (elsewhere : r.phase ≠ .resetStorage)
    (returned : Option ℕ) : (r.stepIdle tests returned).phase.inBatch = r.phase.inBatch := by
  have hcycle (cycles : ℕ) : (r.waitCycle cycles).phase.inBatch = false := by
    unfold waitCycle
    dsimp only
    split_ifs <;> rfl
  cases hphase : r.phase with
  | resetStorage => exact absurd hphase elsewhere
  | createA | createB | queueB task2 | resetCounters =>
    simp only [stepIdle, hphase]
    rfl
  | queueA task1 | create i | queue i =>
    simp only [stepIdle, hphase]
    split <;> rfl
  | waitA cycles | waitB cycles =>
    simp only [stepIdle, hphase]
    split_ifs
    · exact hcycle cycles
    · rfl
  | wait =>
    simp only [stepIdle, hphase]
    split_ifs
    · rfl
    · rw [hphase]
  | finished => simp only [stepIdle, hphase]

theorem runKept_step (inv : RunInv halTests r) (quiet : r.Quiet) :
    RunKept r (r.stepC0 halTests) := by
  have did := C0Did.stepC0 inv.dispatch
  by_cases hidle : ∃ returned, r.sys.c0 = .idle returned
  · obtain ⟨returned, between⟩ := hidle
    have hstep : r.stepC0 halTests = r.stepIdle halTests returned := by
      simp only [HalRun.stepC0, between]
    by_cases hreset : r.phase = .resetStorage
    · refine .resets did.tiles hreset (quiet.1 hreset) ?_ ?_ <;> rw [hstep] <;>
        simp only [stepIdle, hreset, TaskSystem.step, between]
      rfl
    · refine .keeps did.tiles (did.kept.resolve_right fun h => hreset h.2).2 ?_
      rw [hstep]
      exact inBatch_stepIdle halTests hreset returned
  · have busy : ∀ returned, r.sys.c0 ≠ .idle returned := fun returned h => hidle ⟨returned, h⟩
    have hstep : r.stepC0 halTests = { r with sys := r.sys.stepC0 } := by
      unfold HalRun.stepC0
      split
      · next returned h => exact absurd h (busy returned)
      · rfl
    refine .keeps did.tiles ?_ ?_ <;> rw [hstep]
    exact inv.dispatch.c0Frame_stepC0.executed

end HalRun

/-! ### The invariant -/

namespace TestSuite

variable {t t' : TestSuite} {id tile : ℕ} {first : Bool} {u : Uninitialised}

/-- The tile has executed a task and has still to signal C0. -/
def Signalling (t : TestSuite) (tile : ℕ) : Prop :=
  (t.suite.run.sys.tiles tile).pc.ran ≠ none ∧
    ∀ slot, (t.suite.run.sys.tiles tile).pc = .flag slot → (t.threads tile).point = .signal

/-- A tile that has executed a task has signalled C0, or is about to. -/
def SignalInv (t : TestSuite) : Prop :=
  ∀ e ∈ t.suite.run.sys.history.executed, 1 ≤ e.tile ∧ e.tile < numTiles →
    t.Signalled e.tile ∨ t.Signalling e.tile

theorem signalInv_of_untouched (untouched : t.suite.run = {}) : SignalInv t := by
  intro e he
  rw [untouched] at he
  exact absurd he List.not_mem_nil

theorem Signalling.congr (signalling : t.Signalling tile)
    (pc : (t'.suite.run.sys.tiles tile).pc = (t.suite.run.sys.tiles tile).pc)
    (point : (t'.threads tile).point = (t.threads tile).point) : t'.Signalling tile := by
  unfold Signalling
  rwa [pc, point]

/-- A thread makes a step. -/
theorem SignalInv.of_step (inv : SignalInv t)
    (executed : ∀ e ∈ t'.suite.run.sys.history.executed,
      e ∈ t.suite.run.sys.history.executed ∨ e.tile = id ∧ t'.Signalling id)
    (others : ∀ tile, tile ≠ id → t'.suite.run.sys.tiles tile = t.suite.run.sys.tiles tile ∧
      t'.threads tile = t.threads tile)
    (signalled : ∀ tile, 1 ≤ tile ∧ tile < numTiles → t.Signalled tile → t'.Signalled tile)
    (own : t.Signalling id → t'.Signalled id ∨ t'.Signalling id) : SignalInv t' := by
  intro e he hvalid
  rcases executed e he with hold | ⟨htile, hsignalling⟩
  · rcases inv e hold hvalid with hsignalled | hsignalling
    · exact Or.inl (signalled _ hvalid hsignalled)
    by_cases htile : e.tile = id
    · rw [htile] at hsignalling ⊢
      exact own hsignalling
    · obtain ⟨htiles, hthreads⟩ := others _ htile
      exact Or.inr (hsignalling.congr (by rw [htiles]) (by rw [hthreads]))
  · exact Or.inr (htile ▸ hsignalling)

/-- A step of a thread that polls for its next task does not matter. -/
theorem SignalInv.polling (inv : SignalInv t) (poll : (t.suite.run.sys.tiles id).pc = .poll)
    (thread : ProcessorThread) (stats : ℕ → TileStats) :
    SignalInv { t.setThread id thread with stats := stats } := by
  refine inv.of_step (fun e he => Or.inl he)
    (fun tile htile => ⟨rfl, Function.update_of_ne htile ..⟩) (fun _ _ h => h)
    fun hsignalling => ?_
  have hran := hsignalling.1
  rw [poll] at hran
  exact absurd rfl hran

/-- What a step in its loop does with the task of a tile, which may also have waited for the
print session, or be in its test function still. -/
theorem LifeInv.loopStep (life : LifeInv t) (loop : (t.threads id).point = .loop)
    (first : Bool) (u : Uninitialised) :
    (t.suite.step (.tile id first u)).run.sys = t.suite.run.sys ∨
      (∃ value, (t.suite.step (.tile id first u)).run.sys = t.suite.run.sys.stepTile id value) ∧
        LoopStep t.suite.run.sys (t.suite.step (.tile id first u)).run.sys id := by
  have valid : 1 ≤ id ∧ id < t.suite.run.sys.nodeCount := by
    rw [life.suite.nodeCount]
    exact life.threads.valid (by rw [loop]; decide)
  have hcallable : t.suite.run.sys.DispatchInv ∧ ∀ task,
      (t.suite.run.sys.tiles id).pc = .call task →
        (t.suite.run.sys.storage task).params.testFunc ≠ none ∧
          (t.suite.run.sys.storage task).platform = true := by
    rcases life.suite.untouched_or_progress with huntouched | hprogress
    · rw [huntouched]
      exact ⟨(HalRun.RunInv.start halTests).dispatch, fun task h => TilePc.noConfusion h⟩
    · refine ⟨hprogress.run.dispatch, fun task hcall => ?_⟩
      obtain ⟨-, -, func, -, -, hparams, hplatform, -⟩ := hprogress.toSuiteInv.own_of_call hcall
      exact ⟨by rw [hparams]; exact Option.some_ne_none func, hplatform⟩
  obtain ⟨run, session, heq, hrun⟩ := t.suite.stepTile_frame id first u
  simp only [SuiteRun.step, if_pos valid, heq]
  rcases hrun with rfl | ⟨value, rfl⟩
  · exact Or.inl rfl
  · simp only [HalRun.step, TaskSystem.step, if_pos valid]
    exact Or.inr ⟨⟨value, rfl⟩, loopStep_stepTile hcallable.1 value hcallable.2⟩

/-- A step of a thread in its loop. -/
theorem SignalInv.stepLoop (inv : SignalInv t) (life : LifeInv t)
    (loop : (t.threads id).point = .loop) : SignalInv (t.stepLoop id first u) := by
  have hown : t.Signalling id → ∀ slot, (t.suite.run.sys.tiles id).pc ≠ .flag slot :=
    fun hsignalling slot hflag => absurd (loop.symm.trans (hsignalling.2 slot hflag)) (by decide)
  have hthreads : ∀ tile, tile ≠ id → (t.stepLoop id first u).threads tile = t.threads tile :=
    fun _ htile => Function.update_of_ne htile ..
  have hpoint : ((t.stepLoop id first u).threads id).point =
      loopPoint (t.suite.run.sys.tiles id).pc
        ((t.stepLoop id first u).suite.run.sys.tiles id).pc := by
    change (Function.update t.threads id _ id).point = _
    rw [Function.update_self]
    rfl
  have htiles : ∀ tile, tile ≠ id →
      (t.stepLoop id first u).suite.run.sys.tiles tile = t.suite.run.sys.tiles tile :=
    fun tile htile => SuiteAt.others_step_tile t.suite htile
  rcases life.loopStep loop first u with hsame | ⟨⟨value, hsys⟩, hstep⟩
  · change (t.stepLoop id first u).suite.run.sys = _ at hsame
    refine inv.of_step (fun e he => Or.inl (hsame ▸ he))
      (fun tile htile => ⟨htiles tile htile, hthreads tile htile⟩) (fun _ _ h => h)
      fun hsignalling => Or.inr ⟨?_, fun slot hflag => ?_⟩
    · rw [hsame]
      exact hsignalling.1
    · rw [hsame] at hflag
      exact absurd hflag (hown hsignalling slot)
  · change (t.stepLoop id first u).suite.run.sys = _ at hsys
    change LoopStep _ (t.stepLoop id first u).suite.run.sys id at hstep
    refine inv.of_step (fun e he => ?_)
      (fun tile htile => ⟨htiles tile htile, hthreads tile htile⟩) (fun _ _ h => h)
      fun hsignalling => Or.inr ⟨?_, fun slot hflag => ?_⟩
    · refine (hstep.executed_or he).imp_right fun hnew => ⟨hnew.1, hnew.2.1, fun slot hflag => ?_⟩
      exact absurd hflag (hnew.2.2 slot)
    · rw [hsys]
      exact (ran_stepTile hsignalling.1 (hown hsignalling)).1
    · rw [hpoint, hflag]
      rw [hsys] at hflag
      obtain ⟨result, hset⟩ := (ran_stepTile hsignalling.1 (hown hsignalling)).2 slot hflag
      rw [hset]
      rfl

/-- The signal of another tile is in another word. -/
theorem pending_signals (plic : PlicSystem) (valid : 1 ≤ id ∧ id < numTiles)
    (tile_valid : 1 ≤ tile ∧ tile < numTiles) :
    (plic.triggerInterrupt id 0).2.pending .c0c1 (plicCalculateSourceId tile 0 irqMeshNode) =
      (decide (tile = id) ||
        plic.pending .c0c1 (plicCalculateSourceId tile 0 irqMeshNode)) := by
  rw [pending_signal plic valid .c0c1 (FinishingSystem.isSource_signalId tile_valid.2),
    FinishingSystem.signalId_eq valid.2, FinishingSystem.signalId_eq tile_valid.2]
  by_cases htile : tile = id
  · rw [htile, if_pos ⟨rfl, rfl⟩, decide_eq_true rfl, decide_eq_true rfl, Bool.true_or]
  · rw [if_neg (fun h => htile (by omega)), decide_eq_false htile, Bool.false_or]

/-- A step of a thread. -/
theorem SignalInv.stepThread (inv : SignalInv t) (life : LifeInv t) :
    SignalInv (t.stepThread id first u) := by
  have htask := life.threads.tasks id
  cases point : (t.threads id).point with
  | absent | exited =>
    simp only [TestSuite.stepThread, point]
    exact inv
  | created =>
    have hvalid := life.threads.valid (by rw [point]; decide)
    have huntouched := life.suite.untouched
      ((life.threads.threads id hvalid.1 hvalid.2).unbegun point)
    simp only [TestSuite.stepThread, point]
    exact signalInv_of_untouched ((congrArg SuiteRun.run (suite_initialise huntouched)).trans
      huntouched)
  | registering | check | leaving =>
    rw [point] at htask
    simp only [TestSuite.stepThread, point]
    exact inv.polling htask _ _
  | loop =>
    simp only [TestSuite.stepThread, point]
    exact inv.stepLoop life point
  | signal =>
    have hvalid := life.threads.valid (by rw [point]; decide)
    simp only [TestSuite.stepThread, point]
    refine inv.of_step (fun e he => Or.inl he)
      (fun tile htile => ⟨rfl, Function.update_of_ne htile ..⟩) (fun tile htile hsignalled => ?_)
      fun _ => Or.inl ?_
    · exact (pending_signals t.plic hvalid htile).trans (by rw [hsignalled, Bool.or_true])
    · exact (pending_signals t.plic hvalid hvalid).trans
        (by rw [decide_eq_true rfl, Bool.true_or])
  | notifying => exact absurd point (life.threads.silent id)

variable {granted : Bool} {w : ℕ → Uninitialised}

theorem runKept_stepC0 (life : LifeInv t) (quiet : t.Quiet) (granted first : Bool)
    (w : ℕ → Uninitialised) : RunKept t.suite.run (t.stepC0 granted first w).suite.run := by
  have hkeeps {r : HalRun} (sys : r.sys.tiles = t.suite.run.sys.tiles ∧
      r.sys.history = t.suite.run.sys.history) (phase : r.phase = t.suite.run.phase) :
      RunKept t.suite.run r := .keeps sys.1 (by rw [sys.2]) (by rw [phase])
  cases point : t.point with
  | tests =>
    simp only [TestSuite.stepC0, point]
    split_ifs
    · exact hkeeps ⟨rfl, rfl⟩ rfl
    · have hinv := (life.suite.during point).toSuiteInv
      rcases SuiteRun.stepC0_run hinv (quiet point) first (w 0) with hrun | ⟨hrun, hquiet⟩
      · rw [hrun]
        exact hkeeps ⟨rfl, rfl⟩ rfl
      · rw [hrun]
        exact HalRun.runKept_step hinv.run hquiet
  | service cycles drain =>
    cases drain <;> simp only [TestSuite.stepC0, point] <;> exact hkeeps ⟨rfl, rfl⟩ rfl
  | start | create i | supervise cycles | stop i =>
    simp only [TestSuite.stepC0, point, TestSuite.startTileThreads]
    split_ifs <;> exact hkeeps ⟨rfl, rfl⟩ rfl
  | await i | join i =>
    simp only [TestSuite.stepC0, point]
    split_ifs <;> exact hkeeps ⟨rfl, rfl⟩ rfl
  | enable | disable | returned =>
    simp only [TestSuite.stepC0, point]
    exact hkeeps ⟨rfl, rfl⟩ rfl
  | alone rest =>
    simp only [TestSuite.stepC0, point]
    split <;> exact hkeeps ⟨rfl, rfl⟩ rfl

/-- In the distributed run and behind it C0 leaves the interrupts alone, and the threads where
they are. -/
theorem stepC0_began (began : t.point.Began) (granted first : Bool) (w : ℕ → Uninitialised) :
    (t.stepC0 granted first w).plic = t.plic ∧
      ∀ tile, ((t.stepC0 granted first w).threads tile).point = (t.threads tile).point := by
  cases point : t.point with
  | start | create i | await i | enable | supervise cycles | service cycles drain =>
    rw [point] at began
    exact absurd began (SuitePoint.not_began rfl)
  | alone rest =>
    rw [point] at began
    exact absurd began SuitePoint.not_began_alone
  | tests =>
    simp only [TestSuite.stepC0, point]
    split_ifs <;> exact ⟨rfl, fun _ => rfl⟩
  | disable | returned =>
    refine ⟨?_, fun _ => ?_⟩ <;> simp only [TestSuite.stepC0, point]
  | stop i =>
    simp only [TestSuite.stepC0, point]
    split_ifs
    · refine ⟨rfl, fun tile => ?_⟩
      change (Function.update t.threads i { t.threads i with running := false } tile).point = _
      by_cases htile : tile = i
      · rw [htile, Function.update_self]
      · rw [Function.update_of_ne htile]
    · exact ⟨rfl, fun _ => rfl⟩
  | join i =>
    simp only [TestSuite.stepC0, point]
    split_ifs <;> exact ⟨rfl, fun _ => rfl⟩

/-- A step of C0. -/
theorem SignalInv.stepC0 (inv : SignalInv t) (life : LifeInv t) (quiet : t.Quiet) :
    SignalInv (t.stepC0 granted first w) := by
  intro e he hvalid
  have hkept := runKept_stepC0 life quiet granted first w
  have hold : e ∈ t.suite.run.sys.history.executed := by
    cases hkept with
    | keeps tiles executed inBatch => rwa [executed] at he
    | resets tiles phase quiet executed inBatch =>
      rw [executed] at he
      exact absurd he List.not_mem_nil
  by_cases began : t.point.Began
  · obtain ⟨hplic, hpoints⟩ := stepC0_began began granted first w
    refine (inv e hold hvalid).imp (fun hsignalled => ?_) fun hsignalling => ?_
    · unfold Signalled
      rwa [hplic]
    · exact hsignalling.congr (by rw [hkept.tiles]) (hpoints e.tile)
  · rw [life.suite.untouched began] at hold
    exact absurd hold List.not_mem_nil

theorem SignalInv.step (inv : SignalInv t) (life : LifeInv t) {actor : ThreadActor}
    (meets : t.Meets actor) : SignalInv (t.step actor) := by
  cases actor with
  | c0 granted first w => exact inv.stepC0 life (meets.2 granted first w rfl)
  | tile id first u => exact inv.stepThread life

theorem SignalInv.run_from {actors : List ThreadActor} (inv : SignalInv t) (life : LifeInv t)
    (each : EachStep TestSuite.step Meets t actors) : SignalInv (t.runFrom actors) := by
  induction actors generalizing t with
  | nil => exact inv
  | cons actor rest ih => exact ih (inv.step life each.1) (life.step each.1) each.2

/-! ### The first execution -/

/-- A step that executes a task is made by a tile in its test. -/
theorem LifeInv.exists_running (life : LifeInv t) {actor : ThreadActor} (meets : t.Meets actor)
    (none : t.suite.run.sys.history.executed = [])
    (some : (t.step actor).suite.run.sys.history.executed ≠ []) :
    ∃ tile task own, (t.suite.run.sys.tiles tile).pc = .running task own := by
  cases actor with
  | c0 granted first w =>
    cases runKept_stepC0 life (meets.2 granted first w rfl) granted first w with
    | keeps tiles executed inBatch => exact absurd (executed.trans none) some
    | resets tiles phase quiet executed inBatch => exact absurd executed some
  | tile id first u =>
    simp only [TestSuite.step] at some
    cases point : (t.threads id).point with
    | loop =>
      simp only [TestSuite.stepThread, point] at some
      rcases life.loopStep point first u with hsame | ⟨-, hstep⟩
      · exact absurd ((congrArg (·.history.executed) hsame).trans none) some
      · cases hstep with
        | returns task own value before after executed => exact ⟨id, task, own, before⟩
        | begins task before after executed | calls task own before after executed
        | plain before after executed => exact absurd (executed.trans none) some
    | absent | created | registering | signal | check | leaving | notifying | exited =>
      simp only [TestSuite.stepThread, point] at some
      exact absurd none some

/-- A run that executes tasks has a tile in its test at some time. -/
theorem LifeInv.exists_inTest {actors : List ThreadActor} (life : LifeInv t)
    (each : EachStep TestSuite.step Meets t actors)
    (none : t.suite.run.sys.history.executed = [])
    (some : (t.runFrom actors).suite.run.sys.history.executed ≠ []) :
    ∃ before after, actors = before ++ after ∧ ∃ tile task own,
      ((t.runFrom before).suite.run.sys.tiles tile).pc = .running task own := by
  induction actors generalizing t with
  | nil => exact absurd none some
  | cons actor rest ih =>
    by_cases first : (t.step actor).suite.run.sys.history.executed = []
    · obtain ⟨before, after, hsplit, hrunning⟩ := ih (life.step each.1) each.2 first some
      exact ⟨actor :: before, after, congrArg (actor :: ·) hsplit, hrunning⟩
    · exact ⟨[], actor :: rest, rfl, life.exists_running each.1 none first⟩

/-! ### At the end -/

/-- When the run has finished, the signals of all tiles are pending at C0, and nothing else. -/
theorem SignalInv.pending_iff (inv : SignalInv t) (life : LifeInv t)
    (behind : t.point.behind = true)
    (rest : ∀ tile, 1 ≤ tile ∧ tile < numTiles → (t.suite.run.sys.tiles tile).pc = .poll)
    (b : PlicBlock) {s : ℕ} (hs : IsSource s) :
    t.plic.pending b s = true ↔ b = .c0c1 ∧
      ∃ tile, (1 ≤ tile ∧ tile < numTiles) ∧ s = plicCalculateSourceId tile 0 irqMeshNode := by
  refine ⟨fun hpending => (life.irq.signals b s hs hpending).2, ?_⟩
  rintro ⟨rfl, tile, hvalid, rfl⟩
  obtain ⟨hprogress, finished⟩ := life.suite.behind behind
  -- every tile has executed the test of a row
  have hrow : ∃ i < halTests.length, rowTile i = tile := by
    obtain ⟨hpos, hlt⟩ := hvalid
    have hlt' : tile < 8 := hlt
    refine ⟨(tile + 4) % 7, Nat.lt_of_lt_of_le (Nat.mod_lt _ (by decide)) (by decide), ?_⟩
    unfold rowTile
    omega
  obtain ⟨i, hi, htile⟩ := hrow
  obtain ⟨-, -, -, e, he, -, hexecuted, -⟩ := (hprogress.rowsExecuted finished).rows i hi
  have hsame : e.tile = tile := hexecuted.trans htile
  rcases inv e he (by rwa [hsame]) with hsignalled | hsignalling
  · rwa [hsame] at hsignalled
  · have hran := hsignalling.1
    rw [hsame, rest tile hvalid] at hran
    exact absurd rfl hran

end TestSuite

end MeshNoc
