import MeshNoc.C0Master.Execution

/-!
# The distributed run of the HAL tests

The C0 thread in `c0_run_hal_tests_distributed`, from its call of
`test_parallel_c0_access` (`hal_tests/parallel_noc_tests.c`) on, over the task system. The
parallel test creates and queues two tasks and waits for their results, not for their
completion; then C0 zeroes the storage and the counters, creates and queues one task for
each row of its table, and waits for the counter of completed tasks.
-/

namespace MeshNoc

/-- The tables the distributed run can have: a wrapper function and a name in each row. -/
abbrev HalTable := List (TestFunc × String)

/-- `hal_tests`. -/
def halTests : HalTable :=
  [("hal_test_cpu_local_move_wrapper", "CPU Local Move"),
    ("hal_test_dma_local_transfer_wrapper", "DMA Local Transfer"),
    ("hal_test_dma_remote_transfer_wrapper", "DMA Remote Transfer"),
    ("hal_test_noc_bandwidth_wrapper", "NoC Bandwidth"),
    ("hal_test_noc_latency_wrapper", "NoC Latency"),
    ("hal_test_random_dma_remote_wrapper", "Random DMA Remote"),
    ("hal_test_dmem_basic_functionality_wrapper", "DMEM-Basic-Functionality"),
    ("hal_test_dmem_large_transfers_wrapper", "DMEM-Large-Transfers"),
    ("hal_test_dmem_address_validation_wrapper", "DMEM-Address-Validation"),
    ("hal_test_dmem_data_integrity_wrapper", "DMEM-Data-Integrity"),
    ("hal_test_dmem_concurrent_access_wrapper", "DMEM-Concurrent-Access"),
    ("hal_test_dmem_boundary_conditions_wrapper", "DMEM-Boundary-Conditions"),
    ("hal_test_dmem_error_handling_wrapper", "DMEM-Error-Handling"),
    ("hal_test_dmem_performance_basic_wrapper", "DMEM-Performance-Basic"),
    ("hal_test_dmem_cross_module_transfers_wrapper", "DMEM-Cross-Module-Transfers"),
    ("hal_test_dmem_alignment_testing_wrapper", "DMEM-Alignment-Testing")]

/-- The arguments with which the task for row `i` is created. -/
def halTest (i : ℕ) (row : TestFunc × String) : HalTest :=
  ⟨some row.1, some row.2, some (.halTest i)⟩

/-- The tasks of the batch, in the order in which they are created. -/
def batchTests (tests : HalTable) : List HalTest := tests.mapIdx halTest

/-- The first task of `test_parallel_c0_access`. -/
def parallelTestA : HalTest :=
  ⟨some "tile_to_c0_transfer_task", some "Parallel-C0-Transfer-A", some .result1⟩

/-- The second task of `test_parallel_c0_access`. -/
def parallelTestB : HalTest :=
  ⟨some "tile_to_c0_transfer_task", some "Parallel-C0-Transfer-B", some .result2⟩

/-- `max_wait_cycles`. -/
def maxWaitCycles : ℕ := 300

/-- What C0 does next when the call it is in has returned. -/
inductive HalPhase
  /-- `task1 = create_hal_test_task(…)`. -/
  | createA
  /-- `task2 = create_hal_test_task(…)`. -/
  | createB
  /-- The test of the two pointers, and the first `queue_task_to_available_tile`. -/
  | queueA (task1 : Option ℕ)
  | queueB (task2 : ℕ)
  /-- The read of `result1` in the condition of the waiting loop. -/
  | waitA (cycles : ℕ)
  /-- The read of `result2`, `result1` being nonzero. -/
  | waitB (cycles : ℕ)
  | resetStorage
  | resetCounters
  /-- The head of the loop over the table. -/
  | create (i : ℕ)
  /-- The test of the task returned for row `i`. -/
  | queue (i : ℕ)
  /-- `wait_for_all_tasks_completion`, before a read of the counter. -/
  | wait
  | finished
  deriving DecidableEq

/-- The task system with C0's place in the run. -/
structure HalRun where
  sys : TaskSystem := {}
  phase : HalPhase := .createA

/-- Whose step is next; `value` is what a tile's test function returns, if it does. -/
inductive Actor
  | c0
  | tile (id : ℕ) (value : ℤ)

namespace HalRun

variable (tests : HalTable) (r : HalRun)

/-- The rest of the waiting loop, one result being zero: another cycle, or the timeout. -/
def waitCycle (cycles : ℕ) : HalRun :=
  { r with phase := if cycles < maxWaitCycles then .waitA (cycles + 1) else .resetStorage }

/-- C0's next step between calls; `returned` is what the last call of
`create_hal_test_task` returned. -/
def stepIdle (returned : Option ℕ) : HalRun :=
  match r.phase with
  | .createA => ⟨r.sys.beginCreate parallelTestA, .createB⟩
  | .createB => ⟨r.sys.beginCreate parallelTestB, .queueA returned⟩
  | .queueA task1 =>
    match task1, returned with
    | some task1, some task2 => ⟨r.sys.beginQueue task1, .queueB task2⟩
    -- "Failed to create parallel transfer tasks": the test returns at once
    | _, _ => { r with phase := .resetStorage }
  | .queueB task2 => ⟨r.sys.beginQueue task2, .waitA 0⟩
  | .waitA cycles =>
    -- the disjunction reads `result2` only when `result1` is nonzero
    if r.sys.results .result1 = 0 then r.waitCycle cycles else { r with phase := .waitB cycles }
  | .waitB cycles =>
    if r.sys.results .result2 = 0 then r.waitCycle cycles else { r with phase := .resetStorage }
  -- C0 looks neither at the tiles nor at `active_tasks` here
  | .resetStorage => ⟨r.sys.step .resetStorage, .resetCounters⟩
  | .resetCounters => ⟨r.sys.step .resetCounters, .create 0⟩
  | .create i =>
    match tests[i]? with
    | some row => ⟨r.sys.beginCreate (halTest i row), .queue i⟩
    -- the loop over the table is done
    | none => { r with phase := .wait }
  | .queue i =>
    match returned with
    | some task => ⟨r.sys.beginQueue task, .create (i + 1)⟩
    | none =>
      -- the row counts as failed, and is waited for all the same
      ⟨{ r.sys with results := Function.update r.sys.results (.halTest i) 0 }, .create (i + 1)⟩
  | .wait =>
    -- `expected_count <= 0` is refused before the loop
    if tests.length = 0 ∨ (tests.length : ℤ) ≤ r.sys.completedTasks then
      { r with phase := .finished }
    else r
  | .finished => r

/-- C0's next step, in a call or between calls. -/
def stepC0 : HalRun :=
  match r.sys.c0 with
  | .idle returned => r.stepIdle tests returned
  | _ => { r with sys := r.sys.stepC0 }

/-- One step of the run. -/
def step : Actor → HalRun
  | .c0 => r.stepC0 tests
  | .tile id value => { r with sys := r.sys.step (.tile id value) }

/-- The state after a list of steps. -/
def run : List Actor → HalRun :=
  List.foldl (fun r actor => r.step tests actor) r

/-! ### What the run has to guarantee -/

/-- The batches are isolated, and the wait is sound: a completed flag is set for a task
only when that task was executed from the slot, and when the wait returns, every task of
the table was created and executed exactly once, with its result where it belongs. -/
structure BatchIsolated : Prop where
  flag_executed : ∀ c ∈ r.sys.history.completed,
    ∃ value, ⟨c.task, c.tile, c.slot, value⟩ ∈ r.sys.history.executed
  waited : r.phase = .finished →
    (r.sys.history.created.map Creation.test).reverse = batchTests tests ∧
      ∀ c ∈ r.sys.history.created,
        (r.sys.history.executed.map Execution.task).count c.task = 1 ∧
          ∀ ptr, c.test.resultPtr = some ptr →
            ∃ e ∈ r.sys.history.executed, e.task = c.task ∧ r.sys.results ptr = e.value

/-- No tile is in the way of the reset C0 is about to make: at the storage reset none holds
a task whose completed flag is still to be set, and at the counter reset none has a task
still to be counted. -/
def Quiet : Prop :=
  (r.phase = .resetStorage → ∀ tile < r.sys.nodeCount, (r.sys.tiles tile).pc.held = none) ∧
    (r.phase = .resetCounters → ∀ tile < r.sys.nodeCount,
      (r.sys.tiles tile).pc.owed = false)

instance : Decidable r.Quiet := inferInstanceAs (Decidable (_ ∧ _))

/-- Every step of C0 in the run is made in a state that is quiet. -/
def ResetsQuiet (r : HalRun) : List Actor → Prop
  | [] => True
  | .c0 :: rest => r.Quiet ∧ ResetsQuiet (r.stepC0 tests) rest
  | .tile id value :: rest => ResetsQuiet (r.step tests (.tile id value)) rest

instance decidableResetsQuiet :
    (r : HalRun) → (actors : List Actor) → Decidable (ResetsQuiet tests r actors)
  | _, [] => .isTrue trivial
  | r, .c0 :: rest =>
    have := decidableResetsQuiet (r.stepC0 tests) rest
    inferInstanceAs (Decidable (_ ∧ _))
  | r, .tile id value :: rest => decidableResetsQuiet (r.step tests (.tile id value)) rest

end HalRun

end MeshNoc
