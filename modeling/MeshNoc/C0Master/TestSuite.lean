import MeshNoc.C0Master.SuiteRun
import MeshNoc.C0Master.InterruptStatistics

/-!
# The test suite and its threads

`c0_run_test_suite` from its call to its return: C0 starts a thread for each tile, waits until
all of them are initialised, supervises them for five cycles, makes the distributed run, clears
the flags of the threads and joins them. The threads are those of `tile_processor_main`, which
look at their flag after every round of their loop, signal C0 for every task, and count what
they do in `tile_stats`. If a thread cannot be created C0 runs the tests alone.

A step is one critical section of one thread, or one of its accesses to shared memory outside
a lock, as in the task system.
-/

namespace MeshNoc

open Lib

/-! ### The state -/

/-- Where the thread of a tile is in `tile_processor_main`. -/
inductive ThreadPoint
  /-- `pthread_create` was not called yet. -/
  | absent
  /-- Before the tile's state is initialised. -/
  | created
  /-- Before the tile's statistics are reset. -/
  | registering
  /-- In the loop: at a task, or before the next one. -/
  | loop
  /-- Before `PLIC_trigger_interrupt`, a task being executed. -/
  | signal
  /-- Before the flag `running` is read. -/
  | check
  /-- Behind the loop, before `plic_enabled` is read. -/
  | leaving
  /-- Before the shutdown notification. -/
  | notifying
  | exited
  deriving DecidableEq

/-- `tile_core_t`, its thread fields, with the point the thread is at. -/
structure ProcessorThread where
  point : ThreadPoint := .absent
  running : Bool := false
  initialized : Bool := false
  deriving DecidableEq

/-- `tile_execution_stats_t`, without the time. Of the thread's id only whether it is zero is
read; no name of a test fills the field for it. -/
structure TileStats where
  tileId : ℕ := 0
  active : Bool := false
  tasksExecuted : ℕ := 0
  halCallsMade : ℕ := 0
  lastTestName : Option String := none
  deriving DecidableEq

/-- The rows and the sums of `print_execution_verification`. -/
structure VerificationReport where
  rows : List TileStats
  activeTiles : ℕ
  halActiveTiles : ℕ

/-- Where C0 is in `c0_run_test_suite`. -/
inductive SuitePoint
  /-- `platform_start_tile_threads`, before its loops. -/
  | start
  /-- The head of the loop that creates the threads. -/
  | create (tile : ℕ)
  /-- The loop that waits for their initialisation. -/
  | await (tile : ℕ)
  | enable
  /-- The head of the loop of `c0_master_supervise_tiles`. -/
  | supervise (cycles : ℕ)
  /-- In `c0_process_plic_interrupts`, called from that loop. -/
  | service (cycles : ℕ) (drain : DrainPoint)
  /-- `c0_run_hal_tests_distributed`. -/
  | tests
  | disable
  /-- `platform_stop_tile_threads`: the loop that clears the flags. -/
  | stop (tile : ℕ)
  /-- The loop that joins the threads. -/
  | join (tile : ℕ)
  | returned
  /-- In `run_all_tests`, the threads not having been started. -/
  | alone (rest : HalClient (ℤ × ℤ))

/-- The state of the test suite. -/
structure TestSuite where
  suite : SuiteRun
  plic : PlicSystem
  log : List InterruptEvent := []
  point : SuitePoint := .start
  threads : ℕ → ProcessorThread := fun _ => {}
  interruptsSent : ℕ → ℕ := fun _ => 0
  /-- `tile_stats`. -/
  stats : ℕ → TileStats := fun _ => {}
  platformRunning : Bool := false
  plicEnabled : Bool := false
  plicInterruptsProcessed : ℕ := 0
  /-- What `print_execution_verification` has printed. -/
  report : Option VerificationReport := none

/-- Whose step is next. The scheduler says also whether C0 is granted the queue or the thread
it asks for, which of two racing threads of a test goes first, and what a test finds in its
uninitialised memory. -/
inductive ThreadActor
  | c0 (granted first : Bool) (u : ℕ → Uninitialised)
  | tile (id : ℕ) (first : Bool) (u : Uninitialised)

/-- In every piece of uninitialised memory the step may meet, `malloc` succeeds. -/
def ThreadActor.Allocates : ThreadActor → Prop
  | c0 _ _ u => ∀ i, (u i).Allocates
  | tile _ _ u => u.Allocates

/-- `print_execution_verification`. -/
def printExecutionVerification (stats : ℕ → TileStats) : VerificationReport where
  rows := (List.range 8).map stats
  activeTiles := (List.range' 1 7).countP fun i => (stats i).active
  halActiveTiles := (List.range' 1 7).countP fun i => 0 < (stats i).halCallsMade

/-- `update_tile_execution_stats`. -/
def TileStats.updateExecution (stats : TileStats) (id : ℕ) (name : Option String) : TileStats :=
  { stats with
    tileId := id, active := true, tasksExecuted := stats.tasksExecuted + 1, lastTestName := name }

/-- `verify_hal_call_flow`. -/
def TileStats.verifyHalCallFlow (stats : TileStats) (name : Option String) : TileStats :=
  { stats with halCallsMade := stats.halCallsMade + 1, lastTestName := name }

namespace TestSuite

/-- What `platform_setup` leaves for the suite: no thread, no task, no test in progress. -/
def afterSetup (st : HalSystem) : TestSuite where
  suite := { prologue := .behind, session := ⟨none, st⟩ }
  plic := setupSystem

variable (t : TestSuite)

def nodeCount : ℕ := t.suite.run.sys.nodeCount

def setThread (id : ℕ) (thread : ProcessorThread) : TestSuite :=
  { t with threads := Function.update t.threads id thread }

/-! ### The threads of the tiles -/

/-- The critical section with which `tile_processor_main` begins. -/
def initialise (id : ℕ) : TestSuite :=
  let tile := { t.suite.run.sys.tiles id with
    idle := true, tasksCompleted := 0, taskPending := false, currentTask := none }
  { t with
    suite.run.sys := t.suite.run.sys.setTile id tile
    threads := Function.update t.threads id ⟨.registering, true, true⟩
    interruptsSent := Function.update t.interruptsSent id 0 }

/-- The statistics of a tile that moves on from one point to another in its loop. -/
def executionStats (id : ℕ) (before after : TilePc) : TileStats :=
  let stats := t.stats id
  match before, after with
  -- before the print session begins
  | .dispatch task, .call _ =>
    stats.updateExecution id (t.suite.run.sys.storage task).params.testName
  | .call task, .running _ _ =>
    stats.verifyHalCallFlow (t.suite.run.sys.storage task).params.testName
  | _, _ => stats

/-- Where a thread is after a step in its loop. -/
def loopPoint : TilePc → TilePc → ThreadPoint
  | .setResult _ _, _ => .signal
  -- the task is completed, or there was none
  | _, .poll => .check
  | _, _ => .loop

/-- A step of a thread in its loop. -/
def stepLoop (id : ℕ) (first : Bool) (u : Uninitialised) : TestSuite :=
  let suite := t.suite.step (.tile id first u)
  let before := (t.suite.run.sys.tiles id).pc
  let after := (suite.run.sys.tiles id).pc
  { t with
    suite := suite
    stats := Function.update t.stats id (t.executionStats id before after)
    threads :=
      Function.update t.threads id { t.threads id with point := loopPoint before after } }

/-- What the functions of the interrupts read and write. -/
def c0State : C0State where
  plic := t.plic
  completedTasks := t.suite.run.sys.completedTasks
  activeTasks := t.suite.run.sys.activeTasks
  log := t.log

/-- The shutdown notification. The time is not kept. -/
def notifyShutdown (id : ℕ) : TestSuite :=
  let counters : StatisticsSystem := { c0 := t.c0State, interruptsSent := t.interruptsSent }
  let (_, counters) := counters.tileSendInterruptToC0 id .shutdown 0
  { t with plic := counters.c0.plic, interruptsSent := counters.interruptsSent }

/-- The next step of a tile's thread. -/
def stepThread (id : ℕ) (first : Bool) (u : Uninitialised) : TestSuite :=
  let thread := t.threads id
  match thread.point with
  | .absent | .exited => t
  | .created => t.initialise id
  | .registering =>
    { t.setThread id { thread with point := .loop } with
      stats := Function.update t.stats id { tileId := id, active := true } }
  | .loop => t.stepLoop id first u
  | .signal =>
    -- the result is only printed
    { t.setThread id { thread with point := .loop } with plic := (t.plic.triggerInterrupt id 0).2 }
  | .check =>
    t.setThread id { thread with point := if thread.running then .loop else .leaving }
  | .leaving =>
    t.setThread id { thread with point := if t.plicEnabled then .notifying else .exited }
  | .notifying => (t.notifyShutdown id).setThread id { thread with point := .exited }

/-! ### C0 -/

/-- The threads could not be started. -/
def runAlone (u : ℕ → Uninitialised) : TestSuite :=
  { t with point := .alone (runAllTests u platformAfterSetup) }

/-- `platform_start_tile_threads` up to and with `task_queue_init`. -/
def startTileThreads (granted : Bool) (u : ℕ → Uninitialised) : TestSuite :=
  let sys := { t.suite.run.sys with nextTaskId := 1, activeTasks := 0, completedTasks := 0 }
  let next := { t with suite.run.sys := sys, platformRunning := true }
  if granted then { next with point := .create 1 } else next.runAlone u

/-- `c0_process_plic_interrupts`, from one of its points to the next. -/
def serve (cycles : ℕ) (drain : DrainPoint) : TestSuite :=
  let (c0, drain) := drainStep C0State.dispatchPlic (t.c0State, drain)
  { t with
    plic := c0.plic
    log := c0.log
    suite.run.sys.completedTasks := c0.completedTasks
    suite.run.sys.activeTasks := c0.activeTasks
    point := .service cycles drain }

/-- C0's next step. -/
def stepC0 (granted first : Bool) (u : ℕ → Uninitialised) : TestSuite :=
  match t.point with
  | .start => t.startTileThreads granted u
  | .create tile =>
    if tile < t.nodeCount then
      let next := t.setThread tile ⟨(t.threads tile).point, false, false⟩
      -- the threads created before are left running
      if granted then
        { next.setThread tile ⟨.created, false, false⟩ with point := .create (tile + 1) }
      else next.runAlone u
    else { t with point := .await 1 }
  | .await tile =>
    if tile < t.nodeCount then
      if (t.threads tile).initialized then { t with point := .await (tile + 1) } else t
    else { t with point := .enable }
  | .enable => { t with plicEnabled := true, plicInterruptsProcessed := 0, point := .supervise 0 }
  | .supervise cycles =>
    if t.platformRunning = true ∧ cycles < 5 then t.serve cycles (.outside 0)
    else
      { t with
        suite.prologue := .gather (testC0Gather (u 0) platformAfterSetup), point := .tests }
  | .service cycles (.outside _) => { t with point := .supervise (cycles + 1) }
  | .service cycles drain => t.serve cycles drain
  | .tests =>
    if t.suite.run.phase = .finished then
      { t with report := some (printExecutionVerification t.stats), point := .disable }
    else { t with suite := t.suite.stepC0 first (u 0) }
  | .disable => { t with plicEnabled := false, point := .stop 1 }
  | .stop tile =>
    if tile < t.nodeCount then
      { t.setThread tile { t.threads tile with running := false } with point := .stop (tile + 1) }
    else { t with point := .join 1 }
  | .join tile =>
    if tile < t.nodeCount then
      if (t.threads tile).point = .exited then { t with point := .join (tile + 1) } else t
    else { t with platformRunning := false, point := .returned }
  | .returned => t
  | .alone rest =>
    match rest.advance HalRequest.exec first t.suite.session.shared with
    | some (rest', shared') =>
      { t with point := .alone rest', suite.session := ⟨t.suite.session.holder, shared'⟩ }
    | none => t

/-! ### Runs -/

def step : ThreadActor → TestSuite
  | .c0 granted first u => t.stepC0 granted first u
  | .tile id first u => t.stepThread id first u

/-- The state after a list of steps. -/
def runFrom : List ThreadActor → TestSuite := List.foldl step t

/-- No tile is in the way of the reset C0 is about to make. -/
def Quiet : Prop := t.point = .tests → t.suite.Quiet

/-- What a step has to meet: `malloc` succeeds, and C0 steps where no tile is in its way. -/
def Meets (actor : ThreadActor) : Prop :=
  actor.Allocates ∧ ∀ granted first u, actor = .c0 granted first u → t.Quiet

end TestSuite

end MeshNoc
