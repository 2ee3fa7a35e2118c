import MeshNoc.C0Master.Execution

/-!
# The slots of the task storage

`create_hal_test_task` takes the next slot of a storage that only a new batch empties, and
every call of `queue_task_to_available_tile` takes one more for its copy of the task. No slot
is given back when a task completes: a creation is refused once the tasks created and the
queue calls made in the batch fill the storage, however many of the tasks have completed.

## Main results

* `SlotsUsed.step` — what every step does to the slots in use
* `create_refused_iff` — a creation is refused exactly if the slots are used up
-/

namespace MeshNoc

namespace TaskSystem

variable {s s' : TaskSystem}

/-- The number of created tasks that have not completed. -/
def uncompleted (s : TaskSystem) : ℕ :=
  ((s.history.created.map Creation.task).filter fun id =>
    id ∉ s.history.completed.map Completion.task).length

/-- A slot for each task created, or being created, and one for each queue call that has
returned, as long as there are slots. -/
def SlotsUsed (s : TaskSystem) : Prop :=
  s.count = min maxPendingTasks
    (s.history.created.length + s.c0.initSlot.isSome.toNat + s.history.queued.length)

/-- A step that uses no slot, creates nothing and queues nothing. -/
theorem SlotsUsed.congr (used : s.SlotsUsed) (count : s'.count = s.count)
    (created : s'.history.created = s.history.created)
    (queued : s'.history.queued = s.history.queued)
    (initSlot : s'.c0.initSlot = s.c0.initSlot) : s'.SlotsUsed := by
  unfold SlotsUsed
  rw [count, created, queued, initSlot]
  exact used

theorem SlotsUsed.reserve (used : s.SlotsUsed) {id : ℕ} {test : HalTest}
    (call : s.c0 = .createReserve id test) : (s.reserve id test).SlotsUsed := by
  unfold SlotsUsed at used
  rw [call] at used
  unfold TaskSystem.reserve
  split_ifs with hfull
  · unfold SlotsUsed
    exact used
  · -- the slot counts from its reservation on
    change s.count = min maxPendingTasks (s.history.created.length + 0 + s.history.queued.length)
      at used
    change s.count + 1 =
      min maxPendingTasks (s.history.created.length + 1 + s.history.queued.length)
    omega

theorem SlotsUsed.initialise (used : s.SlotsUsed) {slot id : ℕ} {test : HalTest}
    {writes : List FieldWrite} (call : s.c0 = .createInit slot id test writes) :
    (s.initialise slot id test writes).SlotsUsed := by
  unfold SlotsUsed at used
  rw [call] at used
  cases writes with
  | cons write writes =>
    unfold SlotsUsed
    exact used
  | nil =>
    change s.count = min maxPendingTasks (s.history.created.length + 1 + s.history.queued.length)
      at used
    change s.count =
      min maxPendingTasks (s.history.created.length + 1 + 0 + s.history.queued.length)
    omega

theorem SlotsUsed.store (used : s.SlotsUsed) {task : ℕ} (call : s.c0 = .queueStore task) :
    (s.store task).SlotsUsed := by
  unfold SlotsUsed at used
  rw [call] at used
  change s.count = min maxPendingTasks (s.history.created.length + 0 + s.history.queued.length)
    at used
  by_cases hroom : s.count < maxPendingTasks
  · rw [show s.store task = s.copyTask task from if_pos hroom]
    change s.count + 1 =
      min maxPendingTasks (s.history.created.length + 0 + (s.history.queued.length + 1))
    omega
  · -- with a full storage the call counts and takes no slot
    rw [show s.store task = _ from if_neg hroom]
    change s.count =
      min maxPendingTasks (s.history.created.length + 0 + (s.history.queued.length + 1))
    have hfull : maxPendingTasks ≤ s.count := not_lt.mp hroom
    omega

theorem SlotsUsed.stepC0 (used : s.SlotsUsed) : s.stepC0.SlotsUsed := by
  cases hc0 : s.c0 with
  | idle returned =>
    simp only [TaskSystem.stepC0, hc0]
    exact used
  | createReserve id test =>
    simp only [TaskSystem.stepC0, hc0]
    exact used.reserve hc0
  | createInit slot id test writes =>
    simp only [TaskSystem.stepC0, hc0]
    exact used.initialise hc0
  | queueCount task =>
    simp only [TaskSystem.stepC0, hc0]
    exact used.congr rfl rfl rfl (by rw [hc0]; rfl)
  | queueStore task =>
    simp only [TaskSystem.stepC0, hc0]
    exact used.store hc0

theorem SlotsUsed.resetStorage (used : s.SlotsUsed) : (s.step .resetStorage).SlotsUsed := by
  cases hc0 : s.c0 with
  | idle returned =>
    unfold SlotsUsed
    simp only [TaskSystem.step, hc0]
    rfl
  | createReserve | createInit | queueCount | queueStore =>
    simp only [TaskSystem.step, hc0]
    exact used

/-- What every step does to the slots in use; the steps of the tiles do nothing to them. -/
theorem SlotsUsed.step (used : s.SlotsUsed) (action : TaskAction) : (s.step action).SlotsUsed := by
  by_cases hreset : action = .resetStorage
  · rw [hreset]
    exact used.resetStorage
  have hstep := s.batchStep hreset
  generalize s.step action = s' at hstep ⊢
  cases hstep with
  | stay => exact used
  | create between =>
    unfold TaskSystem.beginCreate
    split_ifs <;> exact used.congr rfl rfl rfl (by rw [between]; rfl)
  | queue between => exact used.congr rfl rfl rfl (by rw [between]; rfl)
  | resetCounters between => exact used.congr rfl rfl rfl rfl
  | c0 => exact used.stepC0
  | @tile id value valid =>
    have hleaves := s.stepTile_leaves id value
    have hkeeps := s.stepTile_keeps id value
    exact used.congr hkeeps.count hkeeps.created hleaves.queued (by rw [hleaves.c0])

theorem SlotsUsed.run (used : s.SlotsUsed) (actions : List TaskAction) :
    (actions.foldl TaskSystem.step s).SlotsUsed :=
  List.foldlRecOn actions _ used fun _ hs action _ => hs.step action

/-- An empty storage, and C0 between calls. -/
theorem slotsUsed_start (storage : s.count = 0) (history : s.history = {})
    (between : ∃ returned, s.c0 = .idle returned) : s.SlotsUsed := by
  obtain ⟨returned, between⟩ := between
  unfold SlotsUsed
  rw [storage, history, between]
  rfl

/-- In any run, new batches included: a call of `create_hal_test_task` with no null argument,
when it comes to reserve a slot, returns null if and only if the tasks created and the queue
calls made in the batch make up the storage. -/
theorem create_refused_iff (storage : s.count = 0) (history : s.history = {})
    (between : ∃ returned, s.c0 = .idle returned) (actions : List TaskAction) {id : ℕ}
    {test : HalTest} (call : (actions.foldl step s).c0 = .createReserve id test) :
    ((actions.foldl step s).step .c0).c0 = .idle none ↔
      maxPendingTasks ≤ (actions.foldl step s).history.created.length +
        (actions.foldl step s).history.queued.length := by
  have hused := (slotsUsed_start storage history between).run actions
  generalize actions.foldl step s = t at call hused ⊢
  unfold SlotsUsed at hused
  rw [call] at hused
  change t.count = min maxPendingTasks (t.history.created.length + 0 + t.history.queued.length)
    at hused
  have hstep : t.step .c0 = t.reserve id test := by
    change t.stepC0 = _
    simp only [stepC0, call]
  rw [hstep, reserve]
  split_ifs with hfull
  · exact iff_of_true rfl (by omega)
  · exact iff_of_false not_false (by omega)

/-- The arguments for a test of the table `hal_tests`. -/
def dmemBasicTest : HalTest :=
  ⟨some "hal_test_dmem_basic_functionality_wrapper", some "DMEM-Basic-Functionality",
    some (.halTest 0)⟩

/-- C0 creates and queues `n` tasks, and begins to create one more. -/
def createAndQueue (n : ℕ) : List TaskAction :=
  (List.range n).flatMap (fun k =>
    .create dmemBasicTest :: List.replicate 13 .c0 ++ [.queue (2 * k), .c0, .c0]) ++
      [.create dmemBasicTest]

/-- Thirty-two tasks, each in two slots, fill the storage. -/
theorem create_refused_iff_createAndQueue :
    (((createAndQueue 32).foldl step {}).step .c0).c0 = .idle none ↔
      maxPendingTasks ≤ ((createAndQueue 32).foldl step {}).history.created.length +
        ((createAndQueue 32).foldl step {}).history.queued.length :=
  create_refused_iff rfl rfl ⟨none, rfl⟩ (createAndQueue 32)
    (show ((createAndQueue 32).foldl step {}).c0 = .createReserve 33 dmemBasicTest by
      decide +kernel)

/-- The thirty-third creation is refused, with no more than thirty-two tasks to complete. -/
theorem not_uncompleted_createAndQueue :
    ¬ ∀ (actions : List TaskAction) (id : ℕ) (test : HalTest),
      (actions.foldl step {}).c0 = .createReserve id test →
        ((actions.foldl step {}).step .c0).c0 = .idle none →
          maxPendingTasks ≤ (actions.foldl step {}).uncompleted := by
  intro always
  have hcall : ((createAndQueue 32).foldl step {}).c0 = .createReserve 33 dmemBasicTest := by
    decide +kernel
  have hrefused : (((createAndQueue 32).foldl step {}).step .c0).c0 = .idle none := by
    decide +kernel
  have hfew : ((createAndQueue 32).foldl step {}).uncompleted = 32 := by decide +kernel
  have hmany := always (createAndQueue 32) 33 _ hcall hrefused
  rw [hfew] at hmany
  exact absurd hmany (by decide)

end TaskSystem

end MeshNoc
