import MeshNoc.Generated.MemMap

/-!
# The task system

The threads that create, queue, take, execute and complete tasks, from
`c0_master/c0_controller.c`. A step is one critical section of one thread, or one of its
accesses to shared memory outside a lock; the slots of `hal_task_storage` are shared
without a lock wherever the code shares them so. Steps of different threads interleave
freely: a run is any list of actions, and an action of a thread that is not at the point
of the action does nothing.

`history` records what has happened since the storage was last reset. No step reads it.
-/

namespace MeshNoc

/-- `MAX_PENDING_TASKS`. -/
def maxPendingTasks : ℕ := 64

/-- `task_type_t`. -/
inductive TaskType
  | memoryCopy
  | dmaTransfer
  | computation
  | nocTransfer
  | testExecution
  | halTest
  deriving DecidableEq, Repr

/-- A test function, by its name. What a call returns is up to the run. -/
abbrev TestFunc := String

/-- The variables that the tasks' `result_ptr` point to: the two statics of
`test_parallel_c0_access` and the `result` fields of the table `hal_tests`. -/
inductive ResultPtr
  | result1
  | result2
  | halTest (index : ℕ)
  deriving DecidableEq, Repr

/-- The arguments of `create_hal_test_task`; `none` is the null pointer. -/
structure HalTest where
  testFunc : Option TestFunc := none
  testName : Option String := none
  resultPtr : Option ResultPtr := none
  deriving DecidableEq, Repr

/-- No argument is null. -/
def HalTest.NonNull (test : HalTest) : Prop :=
  test.testFunc ≠ none ∧ test.testName ≠ none ∧ test.resultPtr ≠ none

instance (test : HalTest) : Decidable test.NonNull := inferInstanceAs (Decidable (_ ∧ _ ∧ _))

/-- `task_t`, its parameters those of a HAL test. The default is the zeroed structure. -/
structure Task where
  taskId : ℕ := 0
  type : TaskType := .memoryCopy
  assignedTile : ℤ := 0
  completed : Bool := false
  taken : Bool := false
  result : ℤ := 0
  params : HalTest := {}
  /-- `params.hal_test.platform` is not null. -/
  platform : Bool := false
  deriving DecidableEq

/-- The writes with which `create_hal_test_task` initialises a slot. -/
inductive FieldWrite
  | memset
  | taskId (id : ℕ)
  | type (kind : TaskType)
  | assignedTile (tile : ℤ)
  | completed (flag : Bool)
  | taken (flag : Bool)
  | result (value : ℤ)
  | testFunc (func : Option TestFunc)
  | testName (name : Option String)
  | platform
  | resultPtr (ptr : Option ResultPtr)
  deriving DecidableEq

def FieldWrite.apply (task : Task) : FieldWrite → Task
  | memset => {}
  | taskId id => { task with taskId := id }
  | type kind => { task with type := kind }
  | assignedTile tile => { task with assignedTile := tile }
  | completed flag => { task with completed := flag }
  | taken flag => { task with taken := flag }
  | result value => { task with result := value }
  | testFunc func => { task with params.testFunc := func }
  | testName name => { task with params.testName := name }
  | platform => { task with platform := true }
  | resultPtr ptr => { task with params.resultPtr := ptr }

/-- The initialisation of a slot, write by write. -/
def initWrites (id : ℕ) (test : HalTest) : List FieldWrite :=
  [.memset, .taskId id, .type .halTest, .assignedTile (-1), .completed false, .taken false,
    .result 0, .testFunc test.testFunc, .testName test.testName, .platform,
    .resultPtr test.resultPtr]

/-- Where C0 is in a call of the task functions. -/
inductive C0Call
  /-- Between calls; the task the last call of `create_hal_test_task` returned. -/
  | idle (returned : Option ℕ)
  /-- In `create_hal_test_task`, with an id. -/
  | createReserve (id : ℕ) (test : HalTest)
  /-- In `create_hal_test_task`, with a slot; the writes still to be made. -/
  | createInit (slot id : ℕ) (test : HalTest) (writes : List FieldWrite)
  /-- In `queue_task_to_available_tile`, before the counter. -/
  | queueCount (task : ℕ)
  /-- In `queue_task_to_available_tile`, before the storage step. -/
  | queueStore (task : ℕ)
  deriving DecidableEq

/-- Where a tile is in `tile_processor_main`. A task is the slot its pointer points to. -/
inductive TilePc
  /-- Before `tile_get_next_task`. -/
  | poll
  /-- In `tile_execute_task`, before the tile's state is updated. -/
  | start (task : ℕ)
  /-- Before the switch on the type. -/
  | dispatch (task : ℕ)
  /-- Before the test function is called. -/
  | call (task : ℕ)
  /-- In the test function of the task that then had id `id`. -/
  | running (task id : ℕ)
  /-- Before `*result_ptr` is written. -/
  | storeResult (task : ℕ) (value : ℤ)
  /-- Before `task->result` is written. -/
  | setResult (task : ℕ) (value : ℤ)
  /-- In `tile_complete_task`, before the completed flag. -/
  | flag (task : ℕ)
  /-- In `tile_complete_task`, before the tile's state is updated. -/
  | leave (task : ℕ)
  /-- In `tile_complete_task`, before the counters. -/
  | count (task : ℕ)
  /-- After `tile_complete_task`, before the tile's state is updated again. -/
  | finish (task : ℕ)
  deriving DecidableEq

/-- `tile_core_t`, its task fields, with the point its thread is at. -/
structure TileThread where
  pc : TilePc := .poll
  currentTask : Option ℕ := none
  taskPending : Bool := false
  idle : Bool := true
  tasksCompleted : ℕ := 0
  deriving DecidableEq

/-- A call of `create_hal_test_task` returned a task. -/
structure Creation where
  task : ℕ
  test : HalTest
  deriving DecidableEq

/-- A tile got a task from `tile_get_next_task`. -/
structure HandOut where
  task : ℕ
  tile : ℕ
  slot : ℕ
  deriving DecidableEq

/-- A tile executed a task from a slot, with this result. -/
structure Execution where
  task : ℕ
  tile : ℕ
  slot : ℕ
  value : ℤ
  deriving DecidableEq

/-- A tile set the completed flag of a slot that held a task. -/
structure Completion where
  task : ℕ
  tile : ℕ
  slot : ℕ
  deriving DecidableEq

/-- What has happened since the storage was last reset, latest first; tasks by id. -/
structure TaskHistory where
  created : List Creation := []
  /-- The tiles chosen by `queue_task_to_available_tile`. -/
  chosen : List (ℕ × ℕ) := []
  /-- The tasks of the queue calls that have returned, one for each call. -/
  queued : List ℕ := []
  handedOut : List HandOut := []
  executed : List Execution := []
  completed : List Completion := []
  deriving DecidableEq

/-- The shared state, the points the threads are at, and C0's task pointers. -/
structure TaskSystem where
  /-- `hal_task_storage`; no task is created in, or copied to, a slot from `maxPendingTasks`
  on. -/
  storage : ℕ → Task := fun _ => {}
  /-- `hal_task_storage_count`. -/
  count : ℕ := 0
  nextTaskId : ℕ := 1
  /-- The static `next_tile`. -/
  nextTile : ℕ := 1
  nodeCount : ℕ := numTiles
  activeTasks : ℤ := 0
  completedTasks : ℤ := 0
  results : ResultPtr → ℤ := fun _ => 0
  c0 : C0Call := .idle none
  /-- The tasks C0 has created and not queued. No step reads them. -/
  handles : List ℕ := []
  tiles : ℕ → TileThread := fun _ => {}
  history : TaskHistory := {}

/-- What a thread does next. -/
inductive TaskAction
  /-- C0 calls `create_hal_test_task`. -/
  | create (test : HalTest)
  /-- C0 calls `queue_task_to_available_tile`. -/
  | queue (task : ℕ)
  /-- C0 zeroes the storage, as `c0_run_hal_tests_distributed` does. -/
  | resetStorage
  /-- C0 zeroes the counters. -/
  | resetCounters
  /-- C0 takes the next step of the call it is in. -/
  | c0
  /-- A tile takes its next step; `value` is what its test function returns, if it does. -/
  | tile (id : ℕ) (value : ℤ)

namespace TaskSystem

def setSlot (s : TaskSystem) (slot : ℕ) (task : Task) : TaskSystem :=
  { s with storage := Function.update s.storage slot task }

def setTile (s : TaskSystem) (id : ℕ) (tile : TileThread) : TaskSystem :=
  { s with tiles := Function.update s.tiles id tile }

/-- Move a tile on. -/
def setPc (s : TaskSystem) (id : ℕ) (pc : TilePc) : TaskSystem :=
  s.setTile id { s.tiles id with pc := pc }

section Fields

variable (s : TaskSystem) (slot id : ℕ) (task : Task) (tile : TileThread)

@[simp] theorem setSlot_storage :
    (s.setSlot slot task).storage = Function.update s.storage slot task := rfl

/-- Writing a slot moves no task id, as long as it keeps the slot's own. -/
theorem setSlot_taskId (keeps : task.taskId = (s.storage slot).taskId) (k : ℕ) :
    ((s.setSlot slot task).storage k).taskId = (s.storage k).taskId := by
  rw [setSlot_storage]
  by_cases hk : k = slot
  · rw [hk, Function.update_self, keeps]
  · rw [Function.update_of_ne hk]

@[simp] theorem setSlot_tiles : (s.setSlot slot task).tiles = s.tiles := rfl

@[simp] theorem setTile_tiles : (s.setTile id tile).tiles = Function.update s.tiles id tile := rfl

end Fields

/-! ### The task functions of C0 -/

/-- `create_hal_test_task` up to and with the drawing of the id. -/
def beginCreate (s : TaskSystem) (test : HalTest) : TaskSystem :=
  if test.NonNull then
    -- the id is drawn under `task_id_lock` and never given back
    { s with nextTaskId := s.nextTaskId + 1, c0 := .createReserve s.nextTaskId test }
  else { s with c0 := .idle none }

/-- The critical section that reserves a slot. -/
def reserve (s : TaskSystem) (id : ℕ) (test : HalTest) : TaskSystem :=
  -- without a free slot the call returns null
  if maxPendingTasks ≤ s.count then { s with c0 := .idle none }
  else { s with count := s.count + 1, c0 := .createInit s.count id test (initWrites id test) }

/-- One write of the initialisation, or the return. -/
def initialise (s : TaskSystem) (slot id : ℕ) (test : HalTest) :
    List FieldWrite → TaskSystem
  | write :: writes =>
    { s.setSlot slot (write.apply (s.storage slot)) with c0 := .createInit slot id test writes }
  | [] =>
    { s with
      c0 := .idle (some slot)
      handles := slot :: s.handles
      history.created := ⟨id, test⟩ :: s.history.created }

/-- `queue_task_to_available_tile` up to and with the write of `assigned_tile`, which is
not under the storage lock. -/
def beginQueue (s : TaskSystem) (task : ℕ) : TaskSystem :=
  let next := s.nextTile + 1
  { s.setSlot task { s.storage task with assignedTile := s.nextTile } with
    -- the round robin skips tile 0, which is C0
    nextTile := if s.nodeCount ≤ next then 1 else next
    c0 := .queueCount task
    handles := s.handles.erase task
    history.chosen := ((s.storage task).taskId, s.nextTile) :: s.history.chosen }

/-- The critical section that copies the task into the next slot and invalidates the
original; with a full storage nothing is done. -/
def store (s : TaskSystem) (task : ℕ) : TaskSystem :=
  let original := s.storage task
  let s := { s with c0 := .idle none, history.queued := original.taskId :: s.history.queued }
  -- both slots change in one critical section: no tile scans in between
  if s.count < maxPendingTasks then
    { (s.setSlot s.count original).setSlot task
        { original with taken := true, assignedTile := -999 } with count := s.count + 1 }
  else s

/-- The next step of C0's call. -/
def stepC0 (s : TaskSystem) : TaskSystem :=
  match s.c0 with
  | .idle _ => s
  | .createReserve id test => s.reserve id test
  | .createInit slot id test writes => s.initialise slot id test writes
  | .queueCount task =>
    { s with activeTasks := s.activeTasks + 1, c0 := .queueStore task }
  | .queueStore task => s.store task

/-! ### The tile threads -/

/-- The test of `tile_get_next_task`. -/
def Eligible (s : TaskSystem) (tile slot : ℕ) : Prop :=
  (s.storage slot).assignedTile = tile ∧ (s.storage slot).completed = false ∧
    (s.storage slot).taken = false ∧ 0 < (s.storage slot).taskId

instance (s : TaskSystem) (tile slot : ℕ) : Decidable (s.Eligible tile slot) :=
  inferInstanceAs (Decidable (_ ∧ _ ∧ _ ∧ _))

/-- `tile_get_next_task`: the first eligible slot is taken and its assignment
invalidated. -/
def getNextTask (s : TaskSystem) (tile : ℕ) : TaskSystem :=
  match (List.range s.count).find? fun slot => s.Eligible tile slot with
  | some slot =>
    { (s.setSlot slot { s.storage slot with taken := true, assignedTile := -999 }).setPc tile
        (.start slot) with
      history.handedOut := ⟨(s.storage slot).taskId, tile, slot⟩ :: s.history.handedOut }
  -- the thread marks its tile idle, sleeps, and polls again
  | none => s.setTile tile { s.tiles tile with idle := true }

/-- Record an execution. -/
def recordExecution (s : TaskSystem) (e : Execution) : TaskSystem :=
  { s with history.executed := e :: s.history.executed }

/-- The switch of `tile_execute_task`. The size of a transfer is another view of the
parameters; no such task is ever stored, and its size is left to the run. -/
def dispatch (s : TaskSystem) (tile task : ℕ) (value : ℤ) : TaskSystem :=
  let placeholder (result : ℤ) :=
    (s.setPc tile (.setResult task result)).recordExecution
      ⟨(s.storage task).taskId, tile, task, result⟩
  -- the slot is read again: it may not hold the task the tile took
  match (s.storage task).type with
  | .halTest => s.setPc tile (.call task)
  | .memoryCopy => placeholder 256
  | .dmaTransfer => placeholder value
  | .computation => placeholder 1
  | .nocTransfer => placeholder value
  | .testExecution => placeholder 1

/-- The call of the test function, unless it or the platform is null. -/
def callTest (s : TaskSystem) (tile task : ℕ) : TaskSystem :=
  let t := s.storage task
  -- the id is read with the function, for the history only
  if t.params.testFunc ≠ none ∧ t.platform = true then s.setPc tile (.running task t.taskId)
  else (s.setPc tile (.setResult task 0)).recordExecution ⟨t.taskId, tile, task, 0⟩

/-- `*result_ptr = result`, unless the pointer is null. -/
def storeResult (s : TaskSystem) (task : ℕ) (value : ℤ) : TaskSystem :=
  match (s.storage task).params.resultPtr with
  | some ptr => { s with results := Function.update s.results ptr value }
  | none => s

/-- The next step of a tile's thread. -/
def stepTile (s : TaskSystem) (tile : ℕ) (value : ℤ) : TaskSystem :=
  let thread := s.tiles tile
  match thread.pc with
  | .poll => s.getNextTask tile
  | .start task =>
    s.setTile tile
      { thread with pc := .dispatch task, currentTask := some task, taskPending := false,
                    idle := false }
  | .dispatch task => s.dispatch tile task value
  | .call task => s.callTest tile task
  | .running task id =>
    (s.setPc tile (.storeResult task value)).recordExecution ⟨id, tile, task, value⟩
  | .storeResult task result => (s.storeResult task result).setPc tile (.setResult task result)
  -- the pointer still leads to the slot, whatever task is in it now
  | .setResult task result =>
    (s.setSlot task { s.storage task with result := result }).setPc tile (.flag task)
  | .flag task =>
    { (s.setSlot task { s.storage task with completed := true }).setPc tile (.leave task) with
      history.completed := ⟨(s.storage task).taskId, tile, task⟩ :: s.history.completed }
  | .leave task =>
    s.setTile tile
      { thread with pc := .count task, currentTask := none, idle := true,
                    tasksCompleted := thread.tasksCompleted + 1 }
  | .count task =>
    { s.setPc tile (.finish task) with
      completedTasks := s.completedTasks + 1, activeTasks := s.activeTasks - 1 }
  | .finish _ =>
    s.setTile tile
      { thread with pc := .poll, currentTask := none, taskPending := false, idle := true,
                    tasksCompleted := thread.tasksCompleted + 1 }

/-! ### Runs -/

/-- One step of the system. C0 starts a call only between calls; the tiles with a thread
are `1, …, nodeCount - 1`. -/
def step (s : TaskSystem) : TaskAction → TaskSystem
  | .create test =>
    match s.c0 with
    | .idle _ => s.beginCreate test
    | _ => s
  | .queue task =>
    match s.c0 with
    | .idle _ => s.beginQueue task
    | _ => s
  | .resetStorage =>
    match s.c0 with
    | .idle _ => { s with storage := fun _ => {}, count := 0, handles := [], history := {} }
    | _ => s
  | .resetCounters =>
    match s.c0 with
    | .idle _ => { s with completedTasks := 0, activeTasks := 0 }
    | _ => s
  | .c0 => s.stepC0
  | .tile id value => if 1 ≤ id ∧ id < s.nodeCount then s.stepTile id value else s

end TaskSystem

end MeshNoc
