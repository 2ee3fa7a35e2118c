import MeshNoc.C0Master.Tasks
import MeshNoc.Lib.EveryState
import MeshNoc.Lib.Handout

/-!
# Dispatch of tasks

Each task occupies two slots of the storage, the one it was created in and the copy made
when it is queued, and the first becomes eligible before the copy exists. The invariant
ties the eligible slots to the assignments that are still to be honoured: at every point
at which a tile may scan, a chosen task that was not handed out has exactly one eligible
slot, for the chosen tile.

## Main results

* `DispatchInv.step` — every step but a storage reset, or queueing a task again, keeps the
  invariant
* `oneOwner_of_run` — each task is handed out at most once, to its chosen tile
-/

namespace MeshNoc

open Lib

/-- The task a completed call of `create_hal_test_task` leaves in its slot. -/
def newTask (id : ℕ) (test : HalTest) : Task :=
  { taskId := id, type := .halTest, assignedTile := -1, params := test, platform := true }

theorem newTask_assignedTile (id : ℕ) (test : HalTest) :
    (newTask id test).assignedTile = -1 := rfl

/-- What no step after the initialisation changes. -/
def Task.core (task : Task) : ℕ × TaskType × HalTest × Bool :=
  (task.taskId, task.type, task.params, task.platform)

/-- C0 is between calls. -/
def C0Call.between : C0Call → Bool
  | .idle _ => true
  | .createReserve _ _ | .createInit _ _ _ _ | .queueCount _ | .queueStore _ => false

/-- The slot C0 is initialising. -/
def C0Call.initSlot : C0Call → Option ℕ
  | .createInit slot _ _ _ => some slot
  | _ => none

/-- The slot whose completed flag a tile has still to set. -/
def TilePc.held : TilePc → Option ℕ
  | .start task | .dispatch task | .call task | .running task _ | .storeResult task _
  | .setResult task _ | .flag task => some task
  | .poll | .leave _ | .count _ | .finish _ => none

theorem initWrites_foldl (id : ℕ) (test : HalTest) (task : Task) :
    (initWrites id test).foldl FieldWrite.apply task = newTask id test := rfl

/-- No write of the initialisation assigns the slot to a tile, or takes it. -/
theorem apply_initWrites {id : ℕ} {test : HalTest} {task : Task}
    (unassigned : task.assignedTile ≤ 0) (free : task.taken = false) :
    ∀ write ∈ initWrites id test,
      (write.apply task).assignedTile ≤ 0 ∧ (write.apply task).taken = false := by
  -- only `memset`, `assigned_tile` and `taken` touch the two fields
  simp [initWrites, FieldWrite.apply, unassigned, free]

namespace TaskSystem

variable {s s' : TaskSystem} {t u k j id tile slot task : ℕ} {test : HalTest}

/-- A tile may still get the task with this id. -/
def Pending (s : TaskSystem) (id tile : ℕ) : Prop :=
  1 ≤ tile ∧ ∃ slot, s.Eligible tile slot ∧ (s.storage slot).taskId = id

/-- The slot holds a task that a call of `create_hal_test_task` returned. -/
def Carries (s : TaskSystem) (slot : ℕ) : Prop :=
  ∃ c ∈ s.history.created, (s.storage slot).core = (newTask c.task c.test).core

/-- An id that is drawn and whose task is not created yet. -/
def FreshId (s : TaskSystem) (id : ℕ) : Prop :=
  0 < id ∧ id < s.nextTaskId ∧ id ∉ s.history.created.map Creation.task

/-- The queue call has chosen the tile: the task is eligible for it, or was taken. -/
def Queueing (s : TaskSystem) (task : ℕ) : Prop :=
  task < s.count ∧ task ∉ s.handles ∧ ∃ tile, 1 ≤ tile ∧
    ((s.storage task).taskId, tile) ∈ s.history.chosen ∧
      (s.Eligible tile task ∨ (s.storage task).taken = true)

/-- What holds while C0 is in a call. -/
def CallInv (s : TaskSystem) : C0Call → Prop
  | .idle _ => True
  | .createReserve id test => test.NonNull ∧ s.FreshId id
  | .createInit slot id test writes =>
    test.NonNull ∧ s.FreshId id ∧ slot < s.count ∧ slot ∉ s.handles ∧
      (s.storage slot).assignedTile ≤ 0 ∧ (s.storage slot).taken = false ∧
        writes.foldl FieldWrite.apply (s.storage slot) = newTask id test ∧
          writes <:+ initWrites id test
  | .queueCount task | .queueStore task => s.Queueing task

/-- The invariant of dispatch within one batch. -/
structure DispatchInv (s : TaskSystem) : Prop where
  count_le : s.count ≤ maxPendingTasks
  unused : ∀ slot, s.count ≤ slot → s.storage slot = {}
  id_pos : 0 < s.nextTaskId
  tile_pos : 1 ≤ s.nextTile
  created_once : (s.history.created.map Creation.task).Nodup
  created_valid : ∀ c ∈ s.history.created,
    0 < c.task ∧ c.task < s.nextTaskId ∧ c.test.NonNull
  handout : Handout s.history.chosen (s.history.handedOut.map fun h => (h.task, h.tile)) s.Pending
  chosen_created : ∀ id ∈ s.history.chosen.map Prod.fst,
    id ∈ s.history.created.map Creation.task
  queued_chosen : ∀ id ∈ s.history.queued, id ∈ s.history.chosen.map Prod.fst
  one_slot : ∀ t u k j, 1 ≤ t → 1 ≤ u → s.Eligible t k → s.Eligible u j →
    (s.storage k).taskId = (s.storage j).taskId → k = j
  /-- The tasks C0 has not queued are as created, and not chosen. -/
  handle : ∀ slot ∈ s.handles, slot < s.count ∧ ∃ c ∈ s.history.created,
    s.storage slot = newTask c.task c.test ∧ c.task ∉ s.history.chosen.map Prod.fst
  handles_nodup : s.handles.Nodup
  handle_inj : ∀ slot ∈ s.handles, ∀ other ∈ s.handles,
    (s.storage slot).taskId = (s.storage other).taskId → slot = other
  call : s.CallInv s.c0
  carries : ∀ slot < s.count, s.c0.initSlot ≠ some slot → s.Carries slot
  /-- The task a tile works on is taken, and was handed out to it. -/
  held : ∀ tile slot, (s.tiles tile).pc.held = some slot →
    slot < s.count ∧ (s.storage slot).taken = true ∧
      ⟨(s.storage slot).taskId, tile, slot⟩ ∈ s.history.handedOut

theorem Eligible.not_taken (h : s.Eligible t k) : (s.storage k).taken ≠ true := by
  rw [h.2.2.1]
  exact Bool.false_ne_true

theorem Eligible.assigned_pos (h : s.Eligible t k) (pos : 1 ≤ t) :
    0 < (s.storage k).assignedTile := by
  rw [h.1]
  exact_mod_cast pos

theorem eligible_congr (same : s'.storage k = s.storage j) :
    s'.Eligible t k ↔ s.Eligible t j := by
  unfold Eligible
  rw [same]

theorem DispatchInv.lt_count (h : s.DispatchInv) (eligible : s.Eligible t k) : k < s.count := by
  by_contra hge
  have hzero := eligible.2.2.2
  rw [h.unused k (by omega)] at hzero
  exact absurd hzero (by simp)

/-! ### Steps that touch taken slots only -/

/-- The step leaves dispatch alone: only taken slots change, and they stay what they are
for dispatch; no tile gets a slot. -/
structure Frame (s s' : TaskSystem) : Prop where
  count : s'.count = s.count
  nextTaskId : s.nextTaskId ≤ s'.nextTaskId
  nextTile : s'.nextTile = s.nextTile
  handles : s'.handles = s.handles
  created : s'.history.created = s.history.created
  chosen : s'.history.chosen = s.history.chosen
  queued : s'.history.queued = s.history.queued
  handedOut : s'.history.handedOut = s.history.handedOut
  slots : ∀ slot, s'.storage slot = s.storage slot ∨
    (s.storage slot).taken = true ∧ (s'.storage slot).taken = true ∧
      (s'.storage slot).core = (s.storage slot).core
  held : ∀ tile slot, (s'.tiles tile).pc.held = some slot → (s.tiles tile).pc.held = some slot

namespace Frame

theorem core (f : Frame s s') (slot : ℕ) : (s'.storage slot).core = (s.storage slot).core := by
  rcases f.slots slot with h | ⟨-, -, h⟩
  · rw [h]
  · exact h

theorem taskId (f : Frame s s') (slot : ℕ) :
    (s'.storage slot).taskId = (s.storage slot).taskId := congrArg Prod.fst (f.core slot)

theorem taken (f : Frame s s') (slot : ℕ) : (s'.storage slot).taken = (s.storage slot).taken := by
  rcases f.slots slot with h | ⟨h, h', -⟩
  · rw [h]
  · rw [h, h']

theorem storage (f : Frame s s') (free : (s.storage slot).taken = false) :
    s'.storage slot = s.storage slot := by
  rcases f.slots slot with h | ⟨h, -⟩
  · exact h
  · rw [free] at h
    exact absurd h Bool.false_ne_true

theorem eligible (f : Frame s s') : s'.Eligible t k ↔ s.Eligible t k := by
  rcases f.slots k with h | ⟨h, h', -⟩
  · exact eligible_congr h
  · exact iff_of_false (fun he => he.not_taken h') fun he => he.not_taken h

theorem pending (f : Frame s s') (id tile : ℕ) : s'.Pending id tile ↔ s.Pending id tile := by
  simp only [Pending, f.eligible, f.taskId]

theorem freshId (f : Frame s s') (h : s.FreshId id) : s'.FreshId id := by
  refine ⟨h.1, h.2.1.trans_le f.nextTaskId, ?_⟩
  rw [f.created]
  exact h.2.2

theorem callInv (f : Frame s s') {call : C0Call} (h : s.CallInv call) : s'.CallInv call := by
  cases call with
  | idle returned => trivial
  | createReserve id test => exact ⟨h.1, f.freshId h.2⟩
  | createInit slot id test writes =>
    obtain ⟨hnull, hid, hslot, hhandle, hassigned, htaken, hwrites, hsuffix⟩ := h
    simp only [CallInv, f.storage htaken, f.count, f.handles]
    exact ⟨hnull, f.freshId hid, hslot, hhandle, hassigned, htaken, hwrites, hsuffix⟩
  | queueCount task | queueStore task =>
    obtain ⟨hslot, hhandle, tile, hpos, hchosen, hstate⟩ := h
    simp only [CallInv, Queueing, f.count, f.handles, f.taskId, f.chosen, f.eligible, f.taken]
    exact ⟨hslot, hhandle, tile, hpos, hchosen, hstate⟩

/-- The invariant survives, if it does for the call C0 is in. -/
theorem dispatchInv (f : Frame s s') (h : s.DispatchInv) (call : s'.CallInv s'.c0)
    (init : s'.c0.initSlot = s.c0.initSlot) : s'.DispatchInv where
  count_le := f.count ▸ h.count_le
  unused slot hslot := by
    have hunused := h.unused slot (f.count ▸ hslot)
    -- an unused slot is not taken, so the step cannot have touched it
    rw [f.storage (by rw [hunused]), hunused]
  id_pos := h.id_pos.trans_le f.nextTaskId
  tile_pos := f.nextTile ▸ h.tile_pos
  created_once := f.created ▸ h.created_once
  created_valid c hc := by
    obtain ⟨hpos, hlt, hnull⟩ := h.created_valid c (f.created ▸ hc)
    exact ⟨hpos, hlt.trans_le f.nextTaskId, hnull⟩
  handout := by
    rw [f.chosen, f.handedOut]
    exact h.handout.congr f.pending
  chosen_created := by
    rw [f.chosen, f.created]
    exact h.chosen_created
  queued_chosen := by
    rw [f.queued, f.chosen]
    exact h.queued_chosen
  one_slot t u k j ht hu hk hj hid := by
    rw [f.taskId, f.taskId] at hid
    exact h.one_slot t u k j ht hu (f.eligible.mp hk) (f.eligible.mp hj) hid
  handle slot hslot := by
    obtain ⟨hlt, c, hc, hstorage, hchosen⟩ := h.handle slot (f.handles ▸ hslot)
    -- nor is the slot of a task C0 has in hand
    rw [f.count, f.created, f.chosen, f.storage (by rw [hstorage]; rfl)]
    exact ⟨hlt, c, hc, hstorage, hchosen⟩
  handles_nodup := f.handles ▸ h.handles_nodup
  handle_inj slot hslot other hother hid := by
    rw [f.taskId, f.taskId] at hid
    exact h.handle_inj slot (f.handles ▸ hslot) other (f.handles ▸ hother) hid
  call := call
  carries slot hslot hinit := by
    obtain ⟨c, hc, hcore⟩ := h.carries slot (f.count ▸ hslot) (init ▸ hinit)
    exact ⟨c, f.created ▸ hc, (f.core slot).trans hcore⟩
  held tile slot hheld := by
    obtain ⟨hlt, htaken, hgiven⟩ := h.held tile slot (f.held tile slot hheld)
    rw [f.count, f.taken, f.taskId, f.handedOut]
    exact ⟨hlt, htaken, hgiven⟩

/-- A tile moves on without getting a slot. -/
theorem setTile (tile : ℕ) (thread : TileThread)
    (keeps : ∀ slot, thread.pc.held = some slot → (s.tiles tile).pc.held = some slot) :
    Frame s (s.setTile tile thread) :=
  ⟨rfl, le_rfl, rfl, rfl, rfl, rfl, rfl, rfl, fun _ => Or.inl rfl, fun u slot hu => by
    by_cases h : u = tile
    · subst h
      rw [setTile_tiles, Function.update_self] at hu
      exact keeps slot hu
    · rwa [setTile_tiles, Function.update_of_ne h] at hu⟩

/-- A write to a taken slot. -/
theorem setSlot (slot : ℕ) (t : Task) (taken : (s.storage slot).taken = true)
    (stays : t.taken = true) (core : t.core = (s.storage slot).core) : Frame s (s.setSlot slot t) :=
  ⟨rfl, le_rfl, rfl, rfl, rfl, rfl, rfl, rfl, fun k => by
    by_cases h : k = slot
    · subst h
      rw [setSlot_storage, Function.update_self]
      exact Or.inr ⟨taken, stays, core⟩
    · rw [setSlot_storage, Function.update_of_ne h]
      exact Or.inl rfl, fun _ _ h => h⟩

theorem trans {s'' : TaskSystem} (f : Frame s s') (g : Frame s' s'') : Frame s s'' where
  count := g.count.trans f.count
  nextTaskId := f.nextTaskId.trans g.nextTaskId
  nextTile := g.nextTile.trans f.nextTile
  handles := g.handles.trans f.handles
  created := g.created.trans f.created
  chosen := g.chosen.trans f.chosen
  queued := g.queued.trans f.queued
  handedOut := g.handedOut.trans f.handedOut
  slots slot := by
    -- taken slots compose through their cores, the others are not touched
    cases htaken : (s.storage slot).taken with
    | false =>
      have hfree := f.storage htaken
      rw [← hfree] at htaken
      rw [g.storage htaken, hfree]
      exact Or.inl rfl
    | true =>
      refine Or.inr ⟨rfl, ?_, (g.core slot).trans (f.core slot)⟩
      rw [g.taken, f.taken, htaken]
  held tile slot h := f.held tile slot (g.held tile slot h)

/-- C0 moves on, with ids drawn or not. -/
theorem setC0 (call : C0Call) {next : ℕ} (le : s.nextTaskId ≤ next) :
    Frame s { s with nextTaskId := next, c0 := call } :=
  ⟨rfl, le, rfl, rfl, rfl, rfl, rfl, rfl, fun _ => Or.inl rfl, fun _ _ h => h⟩

theorem recordExecution (f : Frame s s') (e : Execution) : Frame s (s'.recordExecution e) :=
  ⟨f.count, f.nextTaskId, f.nextTile, f.handles, f.created, f.chosen, f.queued, f.handedOut,
    f.slots, f.held⟩

end Frame

/-- Every step of a tile but a scan of the storage works on the task it has. -/
theorem DispatchInv.frame_stepTile (h : s.DispatchInv) (busy : (s.tiles tile).pc ≠ .poll)
    (value : ℤ) : Frame s (s.stepTile tile value) := by
  -- a move to another point of the work on the same task
  have hmove : ∀ pc : TilePc, (∀ slot, pc.held = some slot → (s.tiles tile).pc.held = some slot) →
      Frame s (s.setPc tile pc) := fun pc keeps => Frame.setTile tile _ keeps
  cases hpc : (s.tiles tile).pc with
  | poll => exact absurd hpc busy
  | start task =>
    simp only [stepTile, hpc]
    exact Frame.setTile tile _ fun slot hslot => by rw [hpc]; exact hslot
  | dispatch task =>
    have hset : ∀ result, Frame s (s.setPc tile (.setResult task result)) := fun result =>
      hmove _ fun slot hslot => by rw [hpc]; exact hslot
    simp only [stepTile, hpc, TaskSystem.dispatch]
    cases (s.storage task).type with
    | halTest => exact hmove _ fun slot hslot => by rw [hpc]; exact hslot
    | memoryCopy | dmaTransfer | computation | nocTransfer | testExecution =>
      exact (hset _).recordExecution _
  | call task =>
    simp only [stepTile, hpc, callTest]
    split_ifs
    · exact hmove _ fun slot hslot => by rw [hpc]; exact hslot
    · exact (hmove _ fun slot hslot => by rw [hpc]; exact hslot).recordExecution _
  | running task id =>
    simp only [stepTile, hpc]
    exact (hmove _ fun slot hslot => by rw [hpc]; exact hslot).recordExecution _
  | storeResult task result =>
    simp only [stepTile, hpc, TaskSystem.storeResult]
    have hset : Frame s (s.setPc tile (.setResult task result)) :=
      hmove _ fun slot hslot => by rw [hpc]; exact hslot
    cases (s.storage task).params.resultPtr with
    | none => exact hset
    | some ptr =>
      exact ⟨hset.count, hset.nextTaskId, hset.nextTile, hset.handles, hset.created,
        hset.chosen, hset.queued, hset.handedOut, hset.slots, hset.held⟩
  | setResult task result =>
    obtain ⟨-, htaken, -⟩ := h.held tile task (by rw [hpc]; rfl)
    simp only [stepTile, hpc]
    refine (Frame.setSlot task { s.storage task with result := result } htaken htaken rfl).trans
      (Frame.setTile tile _ fun slot hslot => ?_)
    rw [setSlot_tiles, hpc]
    exact hslot
  | flag task =>
    obtain ⟨-, htaken, -⟩ := h.held tile task (by rw [hpc]; rfl)
    simp only [stepTile, hpc]
    have hset := (Frame.setSlot task { s.storage task with completed := true }
      htaken htaken rfl).trans (Frame.setTile tile { s.tiles tile with pc := .leave task }
        fun slot hslot => nomatch hslot)
    exact ⟨hset.count, hset.nextTaskId, hset.nextTile, hset.handles, hset.created,
      hset.chosen, hset.queued, hset.handedOut, hset.slots, hset.held⟩
  | leave task =>
    simp only [stepTile, hpc]
    exact Frame.setTile tile _ fun slot hslot => nomatch hslot
  | count task =>
    simp only [stepTile, hpc]
    have hset := hmove (.finish task) fun slot hslot => nomatch hslot
    exact ⟨hset.count, hset.nextTaskId, hset.nextTile, hset.handles, hset.created,
      hset.chosen, hset.queued, hset.handedOut, hset.slots, hset.held⟩
  | finish task =>
    simp only [stepTile, hpc]
    exact Frame.setTile tile _ fun slot hslot => nomatch hslot

/-- What a tile's step leaves alone: the point C0 is at, its tasks and its choices. No
completion is taken back. -/
structure TileLeaves (s s' : TaskSystem) : Prop where
  c0 : s'.c0 = s.c0
  handles : s'.handles = s.handles
  chosen : s'.history.chosen = s.history.chosen
  queued : s'.history.queued = s.history.queued
  completedTasks : s.completedTasks ≤ s'.completedTasks

theorem stepTile_leaves (s : TaskSystem) (tile : ℕ) (value : ℤ) :
    TileLeaves s (s.stepTile tile value) := by
  cases hpc : (s.tiles tile).pc with
  | poll =>
    simp only [stepTile, hpc, getNextTask]
    split <;> exact ⟨rfl, rfl, rfl, rfl, le_rfl⟩
  | dispatch task =>
    simp only [stepTile, hpc, TaskSystem.dispatch]
    split <;> exact ⟨rfl, rfl, rfl, rfl, le_rfl⟩
  | call task =>
    simp only [stepTile, hpc, callTest]
    split <;> exact ⟨rfl, rfl, rfl, rfl, le_rfl⟩
  | storeResult task result =>
    simp only [stepTile, hpc, TaskSystem.storeResult]
    split <;> exact ⟨rfl, rfl, rfl, rfl, le_rfl⟩
  | count task =>
    simp only [stepTile, hpc]
    exact ⟨rfl, rfl, rfl, rfl, Int.le_add_one le_rfl⟩
  | start task | running task id | setResult task result | flag task | leave task
  | finish task =>
    simp only [stepTile, hpc]
    exact ⟨rfl, rfl, rfl, rfl, le_rfl⟩

/-- What else a tile's step leaves alone: the size of the storage, the round robin and the
created tasks. -/
structure TileKeeps (s s' : TaskSystem) : Prop where
  count : s'.count = s.count
  nextTile : s'.nextTile = s.nextTile
  nodeCount : s'.nodeCount = s.nodeCount
  created : s'.history.created = s.history.created

theorem stepTile_keeps (s : TaskSystem) (tile : ℕ) (value : ℤ) :
    TileKeeps s (s.stepTile tile value) := by
  cases hpc : (s.tiles tile).pc with
  | poll =>
    simp only [stepTile, hpc, getNextTask]
    split <;> exact ⟨rfl, rfl, rfl, rfl⟩
  | dispatch task =>
    simp only [stepTile, hpc, TaskSystem.dispatch]
    split <;> exact ⟨rfl, rfl, rfl, rfl⟩
  | call task =>
    simp only [stepTile, hpc, callTest]
    split <;> exact ⟨rfl, rfl, rfl, rfl⟩
  | storeResult task result =>
    simp only [stepTile, hpc, TaskSystem.storeResult]
    split <;> exact ⟨rfl, rfl, rfl, rfl⟩
  | start task | running task id | setResult task result | flag task | leave task
  | count task | finish task =>
    simp only [stepTile, hpc]
    exact ⟨rfl, rfl, rfl, rfl⟩

/-- What a step of C0's call leaves alone: the round robin, which a call advances when it
begins, and the tiles. -/
structure C0Keeps (s s' : TaskSystem) : Prop where
  nextTile : s'.nextTile = s.nextTile
  nodeCount : s'.nodeCount = s.nodeCount
  tiles : s'.tiles = s.tiles

theorem stepC0_keeps (s : TaskSystem) : C0Keeps s s.stepC0 := by
  cases hc0 : s.c0 with
  | createReserve id test =>
    simp only [stepC0, hc0, TaskSystem.reserve]
    split_ifs <;> exact ⟨rfl, rfl, rfl⟩
  | createInit slot id test writes =>
    simp only [stepC0, hc0]
    cases writes <;> exact ⟨rfl, rfl, rfl⟩
  | queueStore task =>
    simp only [stepC0, hc0, TaskSystem.store]
    split_ifs <;> exact ⟨rfl, rfl, rfl⟩
  | idle returned | queueCount task =>
    simp only [stepC0, hc0]
    exact ⟨rfl, rfl, rfl⟩

/-! ### A tile gets a task -/

/-- What `tile_get_next_task` does when it finds a task. -/
def handOut (s : TaskSystem) (tile slot : ℕ) : TaskSystem :=
  { (s.setSlot slot { s.storage slot with taken := true, assignedTile := -999 }).setPc tile
      (.start slot) with
    history.handedOut := ⟨(s.storage slot).taskId, tile, slot⟩ :: s.history.handedOut }

theorem getNextTask_cases (s : TaskSystem) (tile : ℕ) :
    (∃ slot < s.count, s.Eligible tile slot ∧ s.getNextTask tile = s.handOut tile slot) ∨
      s.getNextTask tile = s.setTile tile { s.tiles tile with idle := true } := by
  unfold getNextTask
  split
  · next slot hfind =>
    have hslot := List.mem_range.mp (List.mem_of_find?_eq_some hfind)
    have heligible := List.find?_some hfind
    exact Or.inl ⟨slot, hslot, of_decide_eq_true heligible, rfl⟩
  · exact Or.inr rfl

theorem handOut_storage : (s.handOut tile slot).storage = Function.update s.storage slot
    { s.storage slot with taken := true, assignedTile := -999 } := rfl

theorem handOut_taskId : ((s.handOut tile slot).storage k).taskId = (s.storage k).taskId :=
  setSlot_taskId s slot { s.storage slot with taken := true, assignedTile := -999 } rfl k

theorem eligible_handOut : (s.handOut tile slot).Eligible t k ↔ s.Eligible t k ∧ k ≠ slot := by
  by_cases h : k = slot
  · subst h
    refine iff_of_false (fun he => he.not_taken ?_) fun he => he.2 rfl
    rw [handOut_storage, Function.update_self]
  · have hsame : (s.handOut tile slot).storage k = s.storage k := by
      rw [handOut_storage, Function.update_of_ne h]
    rw [eligible_congr hsame]
    exact (and_iff_left h).symm

/-- A slot that is not assigned, or is taken, is not the one handed out. -/
theorem handOut_storage_of_not_eligible (pos : 1 ≤ tile) (eligible : s.Eligible tile slot)
    (busy : (s.storage k).assignedTile ≤ 0 ∨ (s.storage k).taken = true) :
    (s.handOut tile slot).storage k = s.storage k := by
  rw [handOut_storage, Function.update_of_ne]
  rintro rfl
  rcases busy with hassigned | htaken
  · have := eligible.assigned_pos pos
    omega
  · exact eligible.not_taken htaken

/-- Handing out a task does not disturb the call C0 is in. -/
theorem CallInv.handOut {call : C0Call} (h : s.CallInv call) (pos : 1 ≤ tile)
    (eligible : s.Eligible tile slot) : (s.handOut tile slot).CallInv call := by
  cases call with
  | idle returned => trivial
  | createReserve id test => exact h
  | createInit init id test writes =>
    obtain ⟨hnull, hid, hinit, hhandles, hassigned, htaken, hwrites⟩ := h
    simp only [CallInv, handOut_storage_of_not_eligible pos eligible (Or.inl hassigned)]
    exact ⟨hnull, hid, hinit, hhandles, hassigned, htaken, hwrites⟩
  -- C0 may be queueing this very task: then the tile took the original
  | queueCount task | queueStore task =>
    obtain ⟨hlt, hhandles, t, ht, hchosen, hstate⟩ := h
    refine ⟨hlt, hhandles, t, ht, ?_, ?_⟩
    · rw [handOut_taskId]
      exact hchosen
    · by_cases heq : task = slot
      · subst heq
        right
        rw [handOut_storage, Function.update_self]
      · rw [eligible_handOut, handOut_storage, Function.update_of_ne heq]
        exact hstate.imp_left fun he => ⟨he, heq⟩

/-- The assignment that is honoured is the one that is no longer pending. -/
theorem DispatchInv.pending_handOut (h : s.DispatchInv) (pos : 1 ≤ tile)
    (eligible : s.Eligible tile slot) :
    (s.handOut tile slot).Pending j u ↔ s.Pending j u ∧ j ≠ (s.storage slot).taskId := by
  simp only [Pending, eligible_handOut, handOut_taskId]
  constructor
  · rintro ⟨hu, k, ⟨hk, hne⟩, rfl⟩
    exact ⟨⟨hu, k, hk, rfl⟩, fun hid => hne (h.one_slot u tile k slot hu pos hk eligible hid)⟩
  · rintro ⟨⟨hu, k, hk, rfl⟩, hid⟩
    exact ⟨hu, k, ⟨hk, fun heq => hid (by rw [heq])⟩, rfl⟩

/-- Handing out an eligible task keeps the invariant. -/
theorem DispatchInv.handOut (h : s.DispatchInv) (pos : 1 ≤ tile)
    (eligible : s.Eligible tile slot) : (s.handOut tile slot).DispatchInv := by
  have hslot := h.lt_count eligible
  have hhandle : ∀ k ∈ s.handles, (s.handOut tile slot).storage k = s.storage k := by
    intro k hk
    obtain ⟨-, c, -, hstorage, -⟩ := h.handle k hk
    refine handOut_storage_of_not_eligible pos eligible (Or.inl ?_)
    rw [hstorage, newTask_assignedTile]
    omega
  refine { count_le := h.count_le, id_pos := h.id_pos, tile_pos := h.tile_pos,
           created_once := h.created_once, created_valid := h.created_valid,
           chosen_created := h.chosen_created, queued_chosen := h.queued_chosen,
           handles_nodup := h.handles_nodup,
           unused := ?_, handout := ?_, one_slot := ?_, handle := ?_, handle_inj := ?_,
           call := ?_, carries := ?_, held := ?_ }
  · intro k hk
    have hunused := h.unused k hk
    rw [handOut_storage_of_not_eligible pos eligible (Or.inl (by rw [hunused])), hunused]
  · exact h.handout.give (t := tile) ⟨pos, slot, eligible, rfl⟩ fun _ _ =>
      h.pending_handOut pos eligible
  · intro t u k j ht hu hk hj hid
    rw [handOut_taskId, handOut_taskId] at hid
    exact h.one_slot t u k j ht hu (eligible_handOut.mp hk).1 (eligible_handOut.mp hj).1 hid
  · intro k hk
    rw [hhandle k hk]
    exact h.handle k hk
  · intro k hk j hj hid
    rw [handOut_taskId, handOut_taskId] at hid
    exact h.handle_inj k hk j hj hid
  · exact h.call.handOut pos eligible
  · intro k hk hinit
    obtain ⟨c, hc, hcore⟩ := h.carries k hk hinit
    refine ⟨c, hc, ?_⟩
    by_cases heq : k = slot
    · subst heq
      rw [handOut_storage, Function.update_self]
      exact hcore
    · rw [handOut_storage, Function.update_of_ne heq]
      exact hcore
  · intro u k hu
    by_cases heq : u = tile
    · subst heq
      have hpc : ((s.handOut u slot).tiles u).pc = .start slot := by
        change (Function.update s.tiles u _ u).pc = _
        rw [Function.update_self]
      rw [hpc] at hu
      obtain rfl := Option.some.inj hu
      refine ⟨hslot, ?_, ?_⟩
      · rw [handOut_storage, Function.update_self]
      · rw [handOut_taskId]
        exact List.mem_cons_self
    · have hpc : (s.handOut tile slot).tiles u = s.tiles u := by
        change Function.update s.tiles tile _ u = _
        rw [Function.update_of_ne heq]
      rw [hpc] at hu
      obtain ⟨hlt, htaken, hgiven⟩ := h.held u k hu
      rw [handOut_storage_of_not_eligible pos eligible (Or.inr htaken)]
      exact ⟨hlt, htaken, List.mem_cons_of_mem _ hgiven⟩

/-- A step of a tile keeps the invariant. -/
theorem DispatchInv.stepTile (h : s.DispatchInv) (pos : 1 ≤ tile) (value : ℤ) :
    (s.stepTile tile value).DispatchInv := by
  have hframe (f : Frame s (s.stepTile tile value)) : (s.stepTile tile value).DispatchInv := by
    have hc0 := (stepTile_leaves s tile value).c0
    refine f.dispatchInv h ?_ ?_
    · rw [hc0]
      exact f.callInv h.call
    · rw [hc0]
  by_cases hpoll : (s.tiles tile).pc = .poll
  · have hstep : s.stepTile tile value = s.getNextTask tile := by
      simp only [TaskSystem.stepTile, hpoll]
    rcases s.getNextTask_cases tile with ⟨slot, -, heligible, hget⟩ | hget
    · rw [hstep, hget]
      exact h.handOut pos heligible
    · refine hframe ?_
      rw [hstep, hget]
      exact Frame.setTile tile _ fun _ hslot => hslot
  · exact hframe (h.frame_stepTile hpoll value)

/-! ### C0 creates a task -/

theorem freshId_next (h : s.DispatchInv) (call : C0Call) :
    ({ s with nextTaskId := s.nextTaskId + 1, c0 := call } : TaskSystem).FreshId s.nextTaskId := by
  refine ⟨h.id_pos, Nat.lt_succ_self _, fun hmem => ?_⟩
  obtain ⟨c, hc, hid⟩ := List.mem_map.mp hmem
  have := (h.created_valid c hc).2.1
  omega

theorem DispatchInv.beginCreate (h : s.DispatchInv) {returned : Option ℕ}
    (between : s.c0 = .idle returned) (test : HalTest) : (s.beginCreate test).DispatchInv := by
  unfold TaskSystem.beginCreate
  split_ifs with hnull
  · refine (Frame.setC0 _ (Nat.le_succ _)).dispatchInv h ⟨hnull, freshId_next h _⟩ ?_
    rw [between]
    rfl
  · refine (Frame.setC0 _ le_rfl).dispatchInv h trivial ?_
    rw [between]
    rfl

theorem DispatchInv.reserve (h : s.DispatchInv) (call : s.c0 = .createReserve id test) :
    (s.reserve id test).DispatchInv := by
  have hcall := h.call
  rw [call] at hcall
  obtain ⟨hnull, hid⟩ := hcall
  have hinit : s.c0.initSlot = none := by rw [call]; rfl
  unfold TaskSystem.reserve
  split_ifs with hfull
  · refine (Frame.setC0 (.idle none) le_rfl).dispatchInv h trivial ?_
    rw [hinit]
    rfl
  -- the new slot is still zeroed: nobody has it, and no tile may take it
  · have hunused := h.unused s.count le_rfl
    refine { id_pos := h.id_pos, tile_pos := h.tile_pos, created_once := h.created_once,
             created_valid := h.created_valid, handout := h.handout,
             chosen_created := h.chosen_created, queued_chosen := h.queued_chosen,
             one_slot := h.one_slot,
             handles_nodup := h.handles_nodup, handle_inj := h.handle_inj,
             count_le := Nat.lt_of_not_le hfull,
             unused := fun slot hslot => h.unused slot (Nat.le_of_succ_le hslot),
             handle := ?_, call := ?_, carries := ?_, held := ?_ }
    · intro slot hslot
      obtain ⟨hlt, hc⟩ := h.handle slot hslot
      exact ⟨Nat.lt_succ_of_lt hlt, hc⟩
    · refine ⟨hnull, hid, Nat.lt_succ_self _, fun hmem => ?_, ?_, ?_,
        initWrites_foldl id test _, List.suffix_rfl⟩
      · exact absurd (h.handle s.count hmem).1 (Nat.lt_irrefl _)
      · change (s.storage s.count).assignedTile ≤ 0
        rw [hunused]
      · change (s.storage s.count).taken = false
        rw [hunused]
    · intro slot hslot hne
      have hneq : slot ≠ s.count := fun heq => hne (by rw [heq]; rfl)
      have hslot' : slot < s.count + 1 := hslot
      exact h.carries slot (by omega) (by rw [hinit]; simp)
    · intro tile slot hheld
      obtain ⟨hlt, hrest⟩ := h.held tile slot hheld
      exact ⟨Nat.lt_succ_of_lt hlt, hrest⟩

section InitialiseWrite

variable {write : FieldWrite} {writes : List FieldWrite}

theorem initialise_slot : (s.initialise slot id test (write :: writes)).storage slot =
    write.apply (s.storage slot) := Function.update_self ..

theorem initialise_other (hk : k ≠ slot) :
    (s.initialise slot id test (write :: writes)).storage k = s.storage k :=
  Function.update_of_ne hk ..

/-- A slot that stays unassigned under the write is eligible neither before nor after. -/
theorem eligible_initialise (unassigned : (write.apply (s.storage slot)).assignedTile ≤ 0)
    (ht : 1 ≤ t) :
    (s.initialise slot id test (write :: writes)).Eligible t k ↔ s.Eligible t k ∧ k ≠ slot := by
  by_cases hk : k = slot
  · subst hk
    refine iff_of_false (fun he => ?_) fun he => he.2 rfl
    have hpos := he.assigned_pos ht
    rw [initialise_slot] at hpos
    omega
  · rw [eligible_congr (initialise_other hk)]
    exact (and_iff_left hk).symm

/-- Nor is anything pending on it. -/
theorem pending_initialise (unassigned : (write.apply (s.storage slot)).assignedTile ≤ 0)
    (before : (s.storage slot).assignedTile ≤ 0) :
    (s.initialise slot id test (write :: writes)).Pending j u ↔ s.Pending j u := by
  constructor
  · rintro ⟨hu, k, hk, rfl⟩
    obtain ⟨hk, hkne⟩ := (eligible_initialise unassigned hu).mp hk
    exact ⟨hu, k, hk, by rw [initialise_other hkne]⟩
  · rintro ⟨hu, k, hk, rfl⟩
    have hkne : k ≠ slot := by
      rintro rfl
      have hpos := hk.assigned_pos hu
      omega
    exact ⟨hu, k, (eligible_initialise unassigned hu).mpr ⟨hk, hkne⟩,
      by rw [initialise_other hkne]⟩

end InitialiseWrite

/-- One write of the initialisation. -/
theorem DispatchInv.initialise_write (h : s.DispatchInv) {write : FieldWrite}
    {writes : List FieldWrite} (call : s.c0 = .createInit slot id test (write :: writes)) :
    (s.initialise slot id test (write :: writes)).DispatchInv := by
  have hcall := h.call
  rw [call] at hcall
  obtain ⟨hnull, hid, hslot, hhandles, hassigned, htaken, hwrites, hsuffix⟩ := hcall
  have hwrite := apply_initWrites hassigned htaken write (hsuffix.subset List.mem_cons_self)
  have hinit : s.c0.initSlot = some slot := by rw [call]; rfl
  -- no tile works on the slot, nor does C0 have it in hand
  have hhandlene : ∀ k ∈ s.handles, k ≠ slot := fun k hk heq => hhandles (heq ▸ hk)
  have hheldne : ∀ t k, (s.tiles t).pc.held = some k → k ≠ slot := by
    rintro t k hk rfl
    rw [(h.held t k hk).2.1] at htaken
    exact Bool.false_ne_true htaken.symm
  refine { count_le := h.count_le, id_pos := h.id_pos, tile_pos := h.tile_pos,
           created_once := h.created_once, created_valid := h.created_valid,
           chosen_created := h.chosen_created, queued_chosen := h.queued_chosen,
           handles_nodup := h.handles_nodup,
           unused := ?_, handout := ?_, one_slot := ?_, handle := ?_, handle_inj := ?_,
           call := ?_, carries := ?_, held := ?_ }
  · intro k hk
    have hk' : s.count ≤ k := hk
    rw [initialise_other (by omega)]
    exact h.unused k hk'
  · exact h.handout.congr fun _ _ => pending_initialise hwrite.1 hassigned
  · intro t u k j ht hu hk hj heq
    obtain ⟨hk, hkne⟩ := (eligible_initialise hwrite.1 ht).mp hk
    obtain ⟨hj, hjne⟩ := (eligible_initialise hwrite.1 hu).mp hj
    rw [initialise_other hkne, initialise_other hjne] at heq
    exact h.one_slot t u k j ht hu hk hj heq
  · intro k hk
    rw [initialise_other (hhandlene k hk)]
    exact h.handle k hk
  · intro k hk j hj heq
    rw [initialise_other (hhandlene k hk), initialise_other (hhandlene j hj)] at heq
    exact h.handle_inj k hk j hj heq
  · refine ⟨hnull, hid, hslot, hhandles, ?_, ?_, ?_, (List.suffix_cons _ _).trans hsuffix⟩
    · rw [initialise_slot]
      exact hwrite.1
    · rw [initialise_slot]
      exact hwrite.2
    · rw [initialise_slot]
      exact hwrites
  · intro k hk hkne
    have hkne' : k ≠ slot := fun heq => hkne (by rw [heq]; rfl)
    obtain ⟨c, hc, hcore⟩ := h.carries k hk (by rw [hinit]; simpa using hkne'.symm)
    exact ⟨c, hc, by rw [initialise_other hkne', hcore]⟩
  · intro t k hk
    rw [initialise_other (hheldne t k hk)]
    exact h.held t k hk

/-- The return of `create_hal_test_task`. -/
theorem DispatchInv.initialise_return (h : s.DispatchInv)
    (call : s.c0 = .createInit slot id test []) : (s.initialise slot id test []).DispatchInv := by
  have hcall := h.call
  rw [call] at hcall
  obtain ⟨hnull, ⟨hpos, hlt, hfresh⟩, hslot, hhandles, -, -, hwrites, -⟩ := hcall
  have hstorage : s.storage slot = newTask id test := hwrites
  have hinit : s.c0.initSlot = some slot := by rw [call]; rfl
  -- an id that is fresh was never chosen
  have hnotchosen : id ∉ s.history.chosen.map Prod.fst := fun hmem =>
    hfresh (h.chosen_created id hmem)
  refine { count_le := h.count_le, unused := h.unused, id_pos := h.id_pos,
           tile_pos := h.tile_pos, handout := h.handout, queued_chosen := h.queued_chosen,
           one_slot := h.one_slot,
           handles_nodup := List.nodup_cons.mpr ⟨hhandles, h.handles_nodup⟩,
           created_once := List.nodup_cons.mpr ⟨hfresh, h.created_once⟩,
           created_valid := ?_, chosen_created := ?_, handle := ?_, handle_inj := ?_,
           call := trivial, carries := ?_, held := h.held }
  · intro c hc
    rcases List.mem_cons.mp hc with rfl | hc
    · exact ⟨hpos, hlt, hnull⟩
    · exact h.created_valid c hc
  · exact fun i hi => List.mem_cons_of_mem _ (h.chosen_created i hi)
  · intro k hk
    rcases List.mem_cons.mp hk with rfl | hk
    · exact ⟨hslot, ⟨id, test⟩, List.mem_cons_self, hstorage, hnotchosen⟩
    · obtain ⟨hk, c, hc, hrest⟩ := h.handle k hk
      exact ⟨hk, c, List.mem_cons_of_mem _ hc, hrest⟩
  · -- an older task in C0's hands was created with another id
    have hold : ∀ k ∈ s.handles, (s.storage k).taskId ≠ id := by
      intro k hk heq
      obtain ⟨-, c, hc, hck, -⟩ := h.handle k hk
      rw [hck] at heq
      exact hfresh (List.mem_map.mpr ⟨c, hc, heq⟩)
    have hid : (s.storage slot).taskId = id := by rw [hstorage]; rfl
    intro k hk j hj heq
    rcases List.mem_cons.mp hk with hk' | hk' <;> rcases List.mem_cons.mp hj with hj' | hj'
    · rw [hk', hj']
    · exact absurd (heq.symm.trans (hk' ▸ hid)) (hold j hj')
    · exact absurd (heq.trans (hj' ▸ hid)) (hold k hk')
    · exact h.handle_inj k hk' j hj' heq
  · intro k hk _
    by_cases heq : k = slot
    · subst heq
      exact ⟨⟨id, test⟩, List.mem_cons_self, congrArg Task.core hstorage⟩
    · obtain ⟨c, hc, hcore⟩ := h.carries k hk (by rw [hinit]; simpa using Ne.symm heq)
      exact ⟨c, List.mem_cons_of_mem _ hc, hcore⟩

/-! ### C0 queues a task -/

section BeginQueue

theorem beginQueue_original : (s.beginQueue task).storage task =
    { s.storage task with assignedTile := s.nextTile } := Function.update_self ..

theorem beginQueue_other (hk : k ≠ task) : (s.beginQueue task).storage k = s.storage k :=
  Function.update_of_ne hk ..

/-- Of every task the step leaves what dispatch knows it by. -/
theorem beginQueue_core : ((s.beginQueue task).storage k).core = (s.storage k).core := by
  by_cases hk : k = task
  · rw [hk, beginQueue_original]
    rfl
  · rw [beginQueue_other hk]

theorem beginQueue_taskId : ((s.beginQueue task).storage k).taskId = (s.storage k).taskId :=
  congrArg Prod.fst beginQueue_core

/-- A task as it was created becomes eligible for the chosen tile, and for no other; this
is before there is a copy of it. -/
theorem eligible_beginQueue (created : s.storage task = newTask id test) (pos : 0 < id)
    (ht : 1 ≤ t) : (s.beginQueue task).Eligible t k ↔
      (k = task ∧ t = s.nextTile) ∨ s.Eligible t k := by
  by_cases hk : k = task
  · subst hk
    have hbefore : ¬ s.Eligible t k := by
      intro he
      have hpos := he.assigned_pos ht
      rw [created, newTask_assignedTile] at hpos
      omega
    rw [or_iff_left hbefore, and_iff_right rfl]
    unfold Eligible
    rw [beginQueue_original, created]
    exact ⟨fun he => (Nat.cast_injective he.1).symm, fun heq => ⟨by rw [heq], rfl, rfl, pos⟩⟩
  · rw [eligible_congr (beginQueue_other hk)]
    exact ⟨Or.inr, fun he => he.resolve_left fun hne => hk hne.1⟩

/-- One new pending assignment, and no other. -/
theorem pending_beginQueue (created : s.storage task = newTask id test) (pos : 0 < id)
    (tile : 1 ≤ s.nextTile) :
    (s.beginQueue task).Pending j u ↔ (j = id ∧ u = s.nextTile) ∨ s.Pending j u := by
  have hid : (s.storage task).taskId = id := by rw [created]; rfl
  constructor
  · rintro ⟨hu, k, hk, rfl⟩
    rw [beginQueue_taskId]
    rcases (eligible_beginQueue created pos hu).mp hk with ⟨rfl, rfl⟩ | hk
    · exact Or.inl ⟨hid, rfl⟩
    · exact Or.inr ⟨hu, k, hk, rfl⟩
  · rintro (⟨rfl, rfl⟩ | ⟨hu, k, hk, rfl⟩)
    · exact ⟨tile, task, (eligible_beginQueue created pos tile).mpr (Or.inl ⟨rfl, rfl⟩),
        by rw [beginQueue_taskId, hid]⟩
    · exact ⟨hu, k, (eligible_beginQueue created pos hu).mpr (Or.inr hk), beginQueue_taskId⟩

end BeginQueue

/-- The choice of a tile: the original slot becomes eligible for it. -/
theorem DispatchInv.beginQueue (h : s.DispatchInv) {returned : Option ℕ}
    (between : s.c0 = .idle returned) (mem : task ∈ s.handles) :
    (s.beginQueue task).DispatchInv := by
  obtain ⟨hslot, c, hc, hstorage, hnotchosen⟩ := h.handle task mem
  have hid : (s.storage task).taskId = c.task := by rw [hstorage]; rfl
  have hinit : s.c0.initSlot = none := by rw [between]; rfl
  have heligible : ∀ t k, 1 ≤ t → ((s.beginQueue task).Eligible t k ↔
      (k = task ∧ t = s.nextTile) ∨ s.Eligible t k) := fun _ _ ht =>
    eligible_beginQueue hstorage (h.created_valid c hc).1 ht
  have hnew : (s.beginQueue task).Eligible s.nextTile task :=
    (heligible _ _ h.tile_pos).mpr (Or.inl ⟨rfl, rfl⟩)
  -- an eligible slot with the id of the task would make it chosen already
  have halone : ∀ t k, 1 ≤ t → s.Eligible t k → (s.storage k).taskId ≠ c.task := by
    intro t k ht hk heq
    exact hnotchosen (List.mem_map_of_mem (h.handout.mem_chosen ⟨ht, k, hk, heq⟩))
  have hheld : ∀ t k, (s.tiles t).pc.held = some k → k ≠ task := by
    rintro t k hk rfl
    have htaken := (h.held t k hk).2.1
    rw [hstorage] at htaken
    exact Bool.false_ne_true htaken
  have herase : ∀ k ∈ s.handles.erase task, k ≠ task ∧ k ∈ s.handles := fun k hk =>
    (h.handles_nodup.mem_erase_iff).mp hk
  refine { count_le := h.count_le, id_pos := h.id_pos, created_once := h.created_once,
           created_valid := h.created_valid, handles_nodup := h.handles_nodup.erase _,
           queued_chosen := fun i hi => List.mem_cons_of_mem _ (h.queued_chosen i hi),
           unused := ?_, tile_pos := ?_, handout := ?_, chosen_created := ?_, one_slot := ?_,
           handle := ?_, handle_inj := ?_, call := ?_, carries := ?_, held := ?_ }
  · intro k hk
    have hk' : s.count ≤ k := hk
    rw [beginQueue_other (by omega)]
    exact h.unused k hk'
  · change 1 ≤ if s.nodeCount ≤ s.nextTile + 1 then 1 else s.nextTile + 1
    split_ifs <;> omega
  · change Handout (((s.storage task).taskId, s.nextTile) :: s.history.chosen) _ _
    rw [hid]
    exact h.handout.choose hnotchosen fun _ _ =>
      pending_beginQueue hstorage (h.created_valid c hc).1 h.tile_pos
  · intro i hi
    rcases List.mem_cons.mp hi with rfl | hi
    · exact List.mem_map.mpr ⟨c, hc, hid.symm⟩
    · exact h.chosen_created i hi
  -- eligible slots with one id: the original with itself, or two from before
  · intro t u k j ht hu hk hj heq
    rw [beginQueue_taskId, beginQueue_taskId] at heq
    rcases (heligible t k ht).mp hk with ⟨rfl, rfl⟩ | hk <;>
      rcases (heligible u j hu).mp hj with ⟨hj', rfl⟩ | hj
    · exact hj'.symm
    · exact absurd (heq.symm.trans hid) (halone u j hu hj)
    · exact absurd (heq.trans (hj' ▸ hid)) (halone t k ht hk)
    · exact h.one_slot t u k j ht hu hk hj heq
  · intro k hk
    obtain ⟨hne, hmem⟩ := herase k hk
    obtain ⟨hlt, c', hc', hck, hck'⟩ := h.handle k hmem
    refine ⟨hlt, c', hc', (beginQueue_other hne).trans hck, fun hmem' => ?_⟩
    rcases List.mem_cons.mp hmem' with heq | hmem'
    · refine hne (h.handle_inj k hmem task mem ?_)
      rw [hck]
      exact heq
    · exact hck' hmem'
  · intro k hk j hj heq
    rw [beginQueue_taskId, beginQueue_taskId] at heq
    exact h.handle_inj k (herase k hk).2 j (herase j hj).2 heq
  · refine ⟨hslot, fun hmem => (herase task hmem).1 rfl, s.nextTile, h.tile_pos, ?_,
      Or.inl hnew⟩
    rw [beginQueue_taskId]
    exact List.mem_cons_self
  · intro k hk _
    obtain ⟨c', hc', hcore⟩ := h.carries k hk (by rw [hinit]; simp)
    exact ⟨c', hc', beginQueue_core.trans hcore⟩
  · intro t k hk
    rw [beginQueue_other (hheld t k hk)]
    exact h.held t k hk

/-- What the storage step does when there is room. -/
def copyTask (s : TaskSystem) (task : ℕ) : TaskSystem :=
  { (({ s with c0 := .idle none,
               history.queued := (s.storage task).taskId :: s.history.queued } :
        TaskSystem).setSlot s.count (s.storage task)).setSlot task
      { s.storage task with taken := true, assignedTile := -999 } with count := s.count + 1 }

section CopyTask

theorem copyTask_original : (s.copyTask task).storage task =
    { s.storage task with taken := true, assignedTile := -999 } := Function.update_self ..

theorem copyTask_other (hk : k ≠ task) (hcount : k ≠ s.count) :
    (s.copyTask task).storage k = s.storage k :=
  (Function.update_of_ne hk ..).trans (Function.update_of_ne hcount ..)

theorem copyTask_copy (hslot : task < s.count) :
    (s.copyTask task).storage s.count = s.storage task :=
  (Function.update_of_ne hslot.ne' ..).trans (Function.update_self ..)

/-- The slot whose task slot `k` holds after the step. -/
theorem copyTask_core (hslot : task < s.count) :
    ((s.copyTask task).storage k).core = (s.storage (if k = s.count then task else k)).core := by
  split_ifs with hcount
  · rw [hcount, copyTask_copy hslot]
  · by_cases hk : k = task
    · rw [hk, copyTask_original]
      rfl
    · rw [copyTask_other hk hcount]

theorem copyTask_taskId (hslot : task < s.count) : ((s.copyTask task).storage k).taskId =
    (s.storage (if k = s.count then task else k)).taskId :=
  congrArg Prod.fst (copyTask_core hslot)

/-- The eligible slots are as before, the copy in place of the original. -/
theorem eligible_copyTask (hslot : task < s.count) : (s.copyTask task).Eligible t k ↔
    k ≠ task ∧ s.Eligible t (if k = s.count then task else k) := by
  split_ifs with hcount
  · rw [hcount, eligible_congr (copyTask_copy hslot)]
    exact (and_iff_right hslot.ne').symm
  · by_cases hk : k = task
    · subst hk
      refine iff_of_false (fun he => he.not_taken ?_) fun he => he.1 rfl
      rw [copyTask_original]
    · rw [eligible_congr (copyTask_other hk hcount)]
      exact (and_iff_right hk).symm

end CopyTask

/-- The same assignments are pending: the copy stands in for the original. -/
theorem DispatchInv.pending_copyTask (h : s.DispatchInv) (hslot : task < s.count) :
    (s.copyTask task).Pending j u ↔ s.Pending j u := by
  constructor
  · rintro ⟨hu, k, hk, rfl⟩
    exact ⟨hu, _, ((eligible_copyTask hslot).mp hk).2, (copyTask_taskId hslot).symm⟩
  · rintro ⟨hu, k, hk, rfl⟩
    have hlt := h.lt_count hk
    by_cases heq : k = task
    · subst heq
      refine ⟨hu, s.count, (eligible_copyTask hslot).mpr ⟨hslot.ne', ?_⟩, ?_⟩
      · rw [if_pos rfl]
        exact hk
      · rw [copyTask_taskId hslot, if_pos rfl]
    · refine ⟨hu, k, (eligible_copyTask hslot).mpr ⟨heq, ?_⟩, ?_⟩
      · rw [if_neg hlt.ne]
        exact hk
      · rw [copyTask_taskId hslot, if_neg hlt.ne]

/-- The copy takes the place of the original. -/
theorem DispatchInv.copyTask (h : s.DispatchInv) (call : s.c0 = .queueStore task)
    (room : s.count < maxPendingTasks) : (s.copyTask task).DispatchInv := by
  have hcall := h.call
  rw [call] at hcall
  obtain ⟨hslot, hhandles, tile, -, hchosen, -⟩ := hcall
  have hinit : s.c0.initSlot = none := by rw [call]; rfl
  refine { count_le := room, id_pos := h.id_pos, tile_pos := h.tile_pos,
           created_once := h.created_once, created_valid := h.created_valid,
           chosen_created := h.chosen_created, handles_nodup := h.handles_nodup,
           unused := ?_, handout := ?_, queued_chosen := ?_, one_slot := ?_, handle := ?_,
           handle_inj := ?_, call := trivial, carries := ?_, held := ?_ }
  · intro k hk
    have hk' : s.count + 1 ≤ k := hk
    rw [copyTask_other (by omega) (by omega)]
    exact h.unused k (by omega)
  · exact h.handout.congr fun _ _ => h.pending_copyTask hslot
  · intro i hi
    rcases List.mem_cons.mp hi with rfl | hi
    · exact List.mem_map_of_mem hchosen
    · exact h.queued_chosen i hi
  · intro t u k j ht hu hk hj heq
    obtain ⟨hk, hk'⟩ := (eligible_copyTask hslot).mp hk
    obtain ⟨hj, hj'⟩ := (eligible_copyTask hslot).mp hj
    rw [copyTask_taskId hslot, copyTask_taskId hslot] at heq
    -- two eligible slots come from eligible slots with the same id
    have hsame := h.one_slot t u _ _ ht hu hk' hj' heq
    split_ifs at hsame with hkc hjc hjc
    · rw [hkc, hjc]
    · exact absurd hsame.symm hj
    · exact absurd hsame hk
    · exact hsame
  · intro k hk
    obtain ⟨hlt, c, hc, hck⟩ := h.handle k hk
    have hne : k ≠ task := fun heq => hhandles (heq ▸ hk)
    rw [copyTask_other hne hlt.ne]
    exact ⟨Nat.lt_succ_of_lt hlt, c, hc, hck⟩
  · intro k hk j hj heq
    rw [copyTask_taskId hslot, copyTask_taskId hslot, if_neg (h.handle k hk).1.ne,
      if_neg (h.handle j hj).1.ne] at heq
    exact h.handle_inj k hk j hj heq
  · intro k hk _
    have hlt : (if k = s.count then task else k) < s.count := by
      have hk' : k < s.count + 1 := hk
      split_ifs <;> omega
    obtain ⟨c, hc, hcore⟩ := h.carries _ hlt (by rw [hinit]; simp)
    exact ⟨c, hc, (copyTask_core hslot).trans hcore⟩
  · intro t k hk
    obtain ⟨hlt, htaken, hgiven⟩ := h.held t k hk
    refine ⟨Nat.lt_succ_of_lt hlt, ?_, ?_⟩
    · by_cases heq : k = task
      · rw [heq, copyTask_original]
      · rw [copyTask_other heq hlt.ne]
        exact htaken
    · rw [copyTask_taskId hslot, if_neg hlt.ne]
      exact hgiven

/-- Without room the original stays the task's slot. -/
theorem DispatchInv.finishQueue (h : s.DispatchInv) (call : s.c0 = .queueStore task) :
    DispatchInv { s with c0 := .idle none,
                         history.queued := (s.storage task).taskId :: s.history.queued } := by
  have hcall := h.call
  rw [call] at hcall
  obtain ⟨-, -, tile, -, hchosen, -⟩ := hcall
  have hinit : s.c0.initSlot = none := by rw [call]; rfl
  exact
    { count_le := h.count_le
      unused := h.unused
      id_pos := h.id_pos
      tile_pos := h.tile_pos
      created_once := h.created_once
      created_valid := h.created_valid
      handout := h.handout
      chosen_created := h.chosen_created
      queued_chosen := fun i hi => by
        rcases List.mem_cons.mp hi with rfl | hi
        · exact List.mem_map_of_mem hchosen
        · exact h.queued_chosen i hi
      one_slot := h.one_slot
      handle := h.handle
      handles_nodup := h.handles_nodup
      handle_inj := h.handle_inj
      call := trivial
      carries := fun k hk _ => h.carries k hk (by rw [hinit]; simp)
      held := h.held }

/-- The storage step keeps the invariant, with room or without. -/
theorem DispatchInv.store (h : s.DispatchInv) (call : s.c0 = .queueStore task) :
    (s.store task).DispatchInv := by
  -- with a full storage the task keeps its one slot, the original
  by_cases hroom : s.count < maxPendingTasks
  · rw [show s.store task = s.copyTask task from if_pos hroom]
    exact h.copyTask call hroom
  · rw [show s.store task = _ from if_neg hroom]
    exact h.finishQueue call

/-! ### Runs within one batch -/

/-- A batch begins: the storage is zeroed, C0 is between calls, and no tile works on a task.
The round robin and the task ids go on from batch to batch. -/
structure BatchStart (s : TaskSystem) : Prop where
  storage : ∀ slot, s.storage slot = {}
  count : s.count = 0
  handles : s.handles = []
  history : s.history = {}
  between : ∃ returned, s.c0 = .idle returned
  id_pos : 0 < s.nextTaskId
  tile_pos : 1 ≤ s.nextTile
  quiet : ∀ tile, (s.tiles tile).pc.held = none

theorem batchStart_start : BatchStart {} :=
  ⟨fun _ => rfl, rfl, rfl, rfl, ⟨none, rfl⟩, Nat.one_pos, le_rfl, fun _ => rfl⟩

/-- The reset of the storage begins a batch, if no tile works on a task then. -/
theorem batchStart_resetStorage {returned : Option ℕ} (between : s.c0 = .idle returned)
    (id_pos : 0 < s.nextTaskId) (tile_pos : 1 ≤ s.nextTile)
    (quiet : ∀ tile, (s.tiles tile).pc.held = none) : (s.step .resetStorage).BatchStart := by
  simp only [TaskSystem.step, between]
  exact ⟨fun _ => rfl, rfl, rfl, rfl, ⟨returned, rfl⟩, id_pos, tile_pos, quiet⟩

/-- In a zeroed storage no slot is eligible. -/
theorem BatchStart.not_eligible (start : s.BatchStart) : ¬ s.Eligible t k := by
  intro he
  have hpos := he.2.2.2
  rw [start.storage k] at hpos
  exact Nat.lt_irrefl 0 hpos

/-- At the beginning of a batch no task exists, and no tile works on one. -/
theorem BatchStart.dispatchInv (start : s.BatchStart) : s.DispatchInv := by
  obtain ⟨returned, between⟩ := start.between
  refine { id_pos := start.id_pos, tile_pos := start.tile_pos,
           unused := fun slot _ => start.storage slot,
           one_slot := fun _ _ _ _ _ _ he _ _ => absurd he start.not_eligible,
           count_le := ?_, created_once := ?_, created_valid := ?_, handout := ?_,
           chosen_created := ?_, queued_chosen := ?_, handle := ?_, handles_nodup := ?_,
           handle_inj := ?_, call := ?_, carries := ?_, held := ?_ }
  · rw [start.count]
    exact Nat.zero_le _
  · rw [start.history]
    exact List.nodup_nil
  · rw [start.history]
    exact fun _ hc => absurd hc List.not_mem_nil
  · rw [start.history]
    exact Handout.empty fun _ _ ⟨_, _, he, _⟩ => start.not_eligible he
  · rw [start.history]
    exact fun _ h => absurd h List.not_mem_nil
  · rw [start.history]
    exact fun _ h => absurd h List.not_mem_nil
  · rw [start.handles]
    exact fun _ h => absurd h List.not_mem_nil
  · rw [start.handles]
    exact List.nodup_nil
  · rw [start.handles]
    exact fun _ h => absurd h List.not_mem_nil
  · rw [between]
    trivial
  · rw [start.count]
    exact fun _ h => absurd h (Nat.not_lt_zero _)
  · intro tile slot h
    rw [start.quiet tile] at h
    exact absurd h.symm (Option.some_ne_none slot)

/-- A step of C0's call keeps the invariant. -/
theorem DispatchInv.stepC0 (h : s.DispatchInv) : s.stepC0.DispatchInv := by
  cases hc0 : s.c0 with
  | idle returned =>
    simp only [TaskSystem.stepC0, hc0]
    exact h
  | createReserve id test =>
    simp only [TaskSystem.stepC0, hc0]
    exact h.reserve hc0
  | createInit slot id test writes =>
    simp only [TaskSystem.stepC0, hc0]
    cases writes with
    | nil => exact h.initialise_return hc0
    | cons write writes => exact h.initialise_write hc0
  | queueCount task =>
    have hcall := h.call
    rw [hc0] at hcall
    simp only [TaskSystem.stepC0, hc0]
    have hmove := Frame.setC0 (s := s) (.queueStore task) le_rfl
    refine Frame.dispatchInv ⟨hmove.count, hmove.nextTaskId, hmove.nextTile, hmove.handles,
      hmove.created, hmove.chosen, hmove.queued, hmove.handedOut, hmove.slots, hmove.held⟩ h
      hcall ?_
    rw [hc0]
    rfl
  | queueStore task =>
    simp only [TaskSystem.stepC0, hc0]
    exact h.store hc0

/-- A step within a batch: C0 begins a call between calls, or goes on in one, or a tile
makes a step; an action out of place does nothing. -/
inductive BatchStep (s : TaskSystem) : TaskAction → TaskSystem → Prop
  | stay {action} : BatchStep s action s
  | create {test returned} (between : s.c0 = .idle returned) :
      BatchStep s (.create test) (s.beginCreate test)
  | queue {task returned} (between : s.c0 = .idle returned) :
      BatchStep s (.queue task) (s.beginQueue task)
  | resetCounters {returned} (between : s.c0 = .idle returned) :
      BatchStep s .resetCounters { s with completedTasks := 0, activeTasks := 0 }
  | c0 : BatchStep s .c0 s.stepC0
  | tile {id value} (valid : 1 ≤ id ∧ id < s.nodeCount) :
      BatchStep s (.tile id value) (s.stepTile id value)

theorem batchStep (s : TaskSystem) {action : TaskAction} (keeps : action ≠ .resetStorage) :
    BatchStep s action (s.step action) := by
  cases action with
  | create test =>
    simp only [TaskSystem.step]
    split
    · exact .create ‹_›
    · exact .stay
  | queue task =>
    simp only [TaskSystem.step]
    split
    · exact .queue ‹_›
    · exact .stay
  | resetStorage => exact absurd rfl keeps
  | resetCounters =>
    simp only [TaskSystem.step]
    split
    · exact .resetCounters ‹_›
    · exact .stay
  | c0 => exact .c0
  | tile id value =>
    simp only [TaskSystem.step]
    split_ifs with valid
    · exact .tile valid
    · exact .stay

/-- A task the action queues is one that C0 has created and not queued before. -/
def QueuesNew (s : TaskSystem) : TaskAction → Prop
  | .queue task => s.c0.between = true → task ∈ s.handles
  | _ => True

instance (s : TaskSystem) : (action : TaskAction) → Decidable (s.QueuesNew action)
  | .queue task => inferInstanceAs (Decidable (s.c0.between = true → task ∈ s.handles))
  | .create _ | .resetStorage | .resetCounters | .c0 | .tile _ _ => isTrue trivial

/-- Every step but a reset of the storage keeps the invariant, as long as no task is queued
twice. -/
theorem DispatchInv.step (h : s.DispatchInv) {action : TaskAction}
    (keeps : action ≠ .resetStorage) (new : s.QueuesNew action) :
    (s.step action).DispatchInv := by
  have hstep := s.batchStep keeps
  generalize s.step action = s' at hstep ⊢
  cases hstep with
  | stay => exact h
  | create between => exact h.beginCreate between _
  | queue between => exact h.beginQueue between (new (by rw [between]; rfl))
  | resetCounters between =>
    have hframe : Frame s { s with completedTasks := 0, activeTasks := 0 } :=
      ⟨rfl, le_rfl, rfl, rfl, rfl, rfl, rfl, rfl, fun _ => Or.inl rfl, fun _ _ h => h⟩
    exact hframe.dispatchInv h (hframe.callInv h.call) rfl
  | c0 => exact h.stepC0
  | tile valid => exact h.stepTile valid.1 _

/-- The steps within one batch. -/
abbrev BatchAction := { action : TaskAction // action ≠ .resetStorage }

/-- The state after a list of steps. -/
def run (s : TaskSystem) (actions : List BatchAction) : TaskSystem :=
  actions.foldl (fun s (action : BatchAction) => s.step action.1) s

/-- No task is queued twice in the run. -/
def QueuesOnce (s : TaskSystem) (actions : List BatchAction) : Prop :=
  EachStep (fun s action => s.step action.1) (fun s action => s.QueuesNew action.1) s actions

instance (s : TaskSystem) (actions : List BatchAction) : Decidable (s.QueuesOnce actions) :=
  inferInstanceAs (Decidable (EachStep _ _ s actions))

theorem DispatchInv.run (h : s.DispatchInv) {actions : List BatchAction}
    (once : s.QueuesOnce actions) : (s.run actions).DispatchInv := by
  induction actions generalizing s with
  | nil => exact h
  | cons action rest ih => exact ih (h.step action.2 once.1) once.2

/-- Every task has one owner: it is handed out at most once, to the tile chosen for it and
not before the choice, and between the return of its queue call and the hand-out exactly
one slot of the storage is eligible with its id, for that tile. -/
structure OneOwner (s : TaskSystem) : Prop where
  handedOut_once : (s.history.handedOut.map HandOut.task).Nodup
  chosen_once : (s.history.chosen.map Prod.fst).Nodup
  to_chosen : ∀ h ∈ s.history.handedOut, (h.task, h.tile) ∈ s.history.chosen
  queued_chosen : ∀ id ∈ s.history.queued, ∃ tile, (id, tile) ∈ s.history.chosen
  kept : ∀ id tile, id ∈ s.history.queued → (id, tile) ∈ s.history.chosen →
    id ∉ s.history.handedOut.map HandOut.task →
      ∃ slot < s.count, s.Eligible tile slot ∧ (s.storage slot).taskId = id ∧
        ∀ other u, 1 ≤ u → s.Eligible u other → (s.storage other).taskId = id →
          other = slot ∧ u = tile

theorem DispatchInv.oneOwner (h : s.DispatchInv) : s.OneOwner := by
  have hids : s.history.handedOut.map HandOut.task =
      (s.history.handedOut.map fun h => (h.task, h.tile)).map Prod.fst := by
    rw [List.map_map]
    rfl
  refine ⟨?_, h.handout.chosen_once, ?_, ?_, ?_⟩
  · rw [hids]
    exact h.handout.given_once
  · exact fun given hgiven => h.handout.given_chosen _ (List.mem_map_of_mem hgiven)
  · intro id hid
    obtain ⟨⟨_, tile⟩, hchosen, rfl⟩ := List.mem_map.mp (h.queued_chosen id hid)
    exact ⟨tile, hchosen⟩
  · intro id tile _ hchosen hkept
    rw [hids] at hkept
    -- neither given nor lost: the assignment is pending, so a slot is eligible
    obtain ⟨htile, slot, heligible, rfl⟩ := (h.handout.pending_iff id tile).mpr ⟨hchosen, hkept⟩
    refine ⟨slot, h.lt_count heligible, heligible, rfl, fun other u hu hother hsame => ?_⟩
    refine ⟨h.one_slot u tile other slot hu htile hother heligible hsame, ?_⟩
    exact h.handout.owner_unique (h.handout.mem_chosen ⟨hu, other, hother, hsame⟩) hchosen

/-- In every run of creations, queueings and steps of the tiles within one batch that queues
no task twice, whatever the interleaving, every task has one owner. -/
theorem oneOwner_of_run (start : s.BatchStart) {actions : List BatchAction}
    (once : s.QueuesOnce actions) : (s.run actions).OneOwner :=
  (start.dispatchInv.run once).oneOwner

/-- C0 creates a task and begins to queue it, and tile 1 takes it before the copy is made. -/
def takenEarly : List BatchAction :=
  [⟨.create ⟨some "tile_to_c0_transfer_task", some "Parallel-C0-Transfer-A", some .result1⟩,
    by simp⟩] ++
    List.replicate 13 ⟨.c0, by simp⟩ ++ [⟨.queue 0, by simp⟩, ⟨.tile 1 0, by simp⟩] ++
      List.replicate 2 ⟨.c0, by simp⟩

theorem oneOwner_of_run_takenEarly :
    (run {} takenEarly).history.handedOut = [⟨1, 1, 0⟩] ∧ (run {} takenEarly).OneOwner :=
  ⟨by decide +kernel, oneOwner_of_run batchStart_start (by decide +kernel)⟩

end TaskSystem

end MeshNoc
