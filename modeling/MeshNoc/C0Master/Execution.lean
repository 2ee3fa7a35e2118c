import MeshNoc.C0Master.Dispatch
import Mathlib.Algebra.BigOperators.Group.Finset.Piecewise
import Mathlib.Algebra.Order.BigOperators.Group.Finset
import Mathlib.Data.List.Perm.Subperm

/-!
# Execution of tasks

What the tiles do with the tasks they get within one batch: each task is executed once,
its result is stored where its creator asked for it, the completed flag of its slot is
set after it was executed from that slot, and the platform's counter of completed tasks
and the tiles that still have to count a task together account for all hand-outs.

## Main results

* `ExecutionInv.stepTile`, `ResultInv.stepTile`, `Counted.stepTile` — one step of a tile
* `ExecutionInv.c0_step`, `ResultInv.c0_step` — what a step of C0 has to leave alone
-/

namespace MeshNoc

open Lib

/-- The slot a tile has a task in that it has still to execute. -/
def TilePc.waiting : TilePc → Option ℕ
  | .start task | .dispatch task | .call task | .running task _ => some task
  | _ => none

/-- The slot a tile has executed a task from and has still to complete. -/
def TilePc.ran : TilePc → Option ℕ
  | .storeResult task _ | .setResult task _ | .flag task => some task
  | _ => none

/-- The tile has a task that it has still to count. -/
def TilePc.owed : TilePc → Bool
  | .poll | .finish _ => false
  | _ => true

theorem TilePc.held_of_waiting {pc : TilePc} {slot : ℕ} (h : pc.waiting = some slot) :
    pc.held = some slot := by
  cases pc <;> first | exact h | exact nomatch h

theorem TilePc.held_of_ran {pc : TilePc} {slot : ℕ} (h : pc.ran = some slot) :
    pc.held = some slot := by
  cases pc <;> first | exact h | exact nomatch h

theorem TilePc.waiting_of_not_owed {pc : TilePc} (h : pc.owed = false) : pc.waiting = none := by
  cases pc <;> first | rfl | exact nomatch h

namespace TaskSystem

variable {s s' : TaskSystem} {tile slot k id : ℕ} {value : ℤ}

/-- Each task is executed at most once, by the tile and from the slot it was handed out
with, and before its flag is set. -/
structure ExecutionInv (s : TaskSystem) : Prop where
  executed_given : ∀ e ∈ s.history.executed, ⟨e.task, e.tile, e.slot⟩ ∈ s.history.handedOut
  executed_once : (s.history.executed.map Execution.task).Nodup
  waiting : ∀ tile slot, (s.tiles tile).pc.waiting = some slot →
    (s.storage slot).taskId ∉ s.history.executed.map Execution.task
  running : ∀ tile slot id, (s.tiles tile).pc = .running slot id →
    id = (s.storage slot).taskId
  storing : ∀ tile slot value, (s.tiles tile).pc = .storeResult slot value →
    ⟨(s.storage slot).taskId, tile, slot, value⟩ ∈ s.history.executed
  ran : ∀ tile slot, (s.tiles tile).pc.ran = some slot →
    ∃ value, ⟨(s.storage slot).taskId, tile, slot, value⟩ ∈ s.history.executed
  /-- A task that was handed out is executed, or its tile is at it. -/
  progress : ∀ h ∈ s.history.handedOut, h.task ∈ s.history.executed.map Execution.task ∨
    (s.tiles h.tile).pc.waiting = some h.slot ∧ (s.storage h.slot).taskId = h.task
  completed_executed : ∀ c ∈ s.history.completed,
    ∃ value, ⟨c.task, c.tile, c.slot, value⟩ ∈ s.history.executed

/-- The result of an executed task is stored, or its tile is about to store it. -/
def ResultInv (s : TaskSystem) : Prop :=
  ∀ e ∈ s.history.executed, ∀ c ∈ s.history.created, c.task = e.task →
    ∀ ptr, c.test.resultPtr = some ptr → s.results ptr = e.value ∨
      (s.tiles e.tile).pc = .storeResult e.slot e.value ∧ (s.storage e.slot).taskId = e.task

/-- No two created tasks store their results in the same place. -/
def DistinctResults (s : TaskSystem) : Prop :=
  ∀ c ∈ s.history.created, ∀ c' ∈ s.history.created, ∀ ptr,
    c.test.resultPtr = some ptr → c'.test.resultPtr = some ptr → c = c'

/-- The counter and the tiles that have still to count account for all hand-outs. -/
def Counted (s : TaskSystem) : Prop :=
  s.completedTasks + ∑ tile ∈ Finset.range s.nodeCount,
    ((s.tiles tile).pc.owed.toNat : ℤ) = s.history.handedOut.length

/-! ### Steps of C0 -/

/-- What C0's steps leave alone: the tiles, what they have done, and which tasks the
taken slots hold. A task created anew has a new id. -/
structure C0Frame (s s' : TaskSystem) : Prop where
  tiles : s'.tiles = s.tiles
  handedOut : s'.history.handedOut = s.history.handedOut
  executed : s'.history.executed = s.history.executed
  completed : s'.history.completed = s.history.completed
  results : s'.results = s.results
  completedTasks : s'.completedTasks = s.completedTasks
  nodeCount : s'.nodeCount = s.nodeCount
  taskId : ∀ slot, (s.storage slot).taken = true →
    (s'.storage slot).taskId = (s.storage slot).taskId
  created : ∀ c ∈ s'.history.created, c ∈ s.history.created ∨
    c.task ∉ s.history.created.map Creation.task

/-- The tasks of the batch that were handed out were created. -/
theorem DispatchInv.mem_created (h : s.DispatchInv) {given : HandOut}
    (mem : given ∈ s.history.handedOut) :
    given.task ∈ s.history.created.map Creation.task := by
  have hchosen := h.handout.given_chosen _ (List.mem_map_of_mem mem)
  exact h.chosen_created _ (List.mem_map_of_mem hchosen)

/-- The tasks handed out are among those created, each once. -/
theorem DispatchInv.handedOut_subperm (h : s.DispatchInv) :
    (s.history.handedOut.map HandOut.task).Subperm (s.history.created.map Creation.task) := by
  have honce := h.handout.given_once
  rw [List.map_map] at honce
  refine List.subperm_of_subset honce fun id hid => ?_
  obtain ⟨given, hgiven, rfl⟩ := List.mem_map.mp hid
  exact h.mem_created hgiven

theorem DispatchInv.taken_of_waiting (h : s.DispatchInv)
    (waits : (s.tiles tile).pc.waiting = some slot) : (s.storage slot).taken = true :=
  (h.held tile slot (TilePc.held_of_waiting waits)).2.1

theorem DispatchInv.taken_of_ran (h : s.DispatchInv)
    (ran : (s.tiles tile).pc.ran = some slot) : (s.storage slot).taken = true :=
  (h.held tile slot (TilePc.held_of_ran ran)).2.1

theorem ExecutionInv.c0_step (e : s.ExecutionInv) (h : s.DispatchInv) (f : C0Frame s s') :
    s'.ExecutionInv where
  executed_given := by
    rw [f.executed, f.handedOut]
    exact e.executed_given
  executed_once := f.executed ▸ e.executed_once
  waiting tile slot hpc := by
    rw [f.tiles] at hpc
    -- a slot a tile works on is taken, and keeps its task
    rw [f.executed, f.taskId slot (h.taken_of_waiting hpc)]
    exact e.waiting tile slot hpc
  running tile slot id hpc := by
    rw [f.tiles] at hpc
    have hwaiting : (s.tiles tile).pc.waiting = some slot := by rw [hpc]; rfl
    rw [f.taskId slot (h.taken_of_waiting hwaiting)]
    exact e.running tile slot id hpc
  storing tile slot value hpc := by
    rw [f.tiles] at hpc
    have hran : (s.tiles tile).pc.ran = some slot := by rw [hpc]; rfl
    rw [f.executed, f.taskId slot (h.taken_of_ran hran)]
    exact e.storing tile slot value hpc
  ran tile slot hpc := by
    rw [f.tiles] at hpc
    rw [f.executed, f.taskId slot (h.taken_of_ran hpc)]
    exact e.ran tile slot hpc
  progress given hgiven := by
    rw [f.handedOut] at hgiven
    rw [f.executed, f.tiles]
    refine (e.progress given hgiven).imp_right fun ⟨hpc, hid⟩ => ⟨hpc, ?_⟩
    rw [f.taskId given.slot (h.taken_of_waiting hpc), hid]
  completed_executed := by
    rw [f.completed, f.executed]
    exact e.completed_executed

theorem ResultInv.c0_step (stored : s.ResultInv) (e : s.ExecutionInv) (h : s.DispatchInv)
    (f : C0Frame s s') : s'.ResultInv := by
  intro run hrun c hc hid ptr hptr
  rw [f.executed] at hrun
  have hgiven := e.executed_given run hrun
  -- a task created by this step is too new to have been executed
  have hc' : c ∈ s.history.created := by
    refine (f.created c hc).resolve_right fun hnew => hnew ?_
    rw [hid]
    exact h.mem_created hgiven
  rw [f.results, f.tiles]
  refine (stored run hrun c hc' hid ptr hptr).imp_right fun ⟨hpc, hslot⟩ => ⟨hpc, ?_⟩
  have hran : (s.tiles run.tile).pc.ran = some run.slot := by rw [hpc]; rfl
  rw [f.taskId run.slot (h.taken_of_ran hran), hslot]

theorem Counted.c0_step (counted : s.Counted) (f : C0Frame s s') : s'.Counted := by
  unfold Counted
  rw [f.completedTasks, f.nodeCount, f.tiles, f.handedOut]
  exact counted

/-- The counter counts hand-outs only. -/
theorem Counted.completedTasks_le (counted : s.Counted) :
    s.completedTasks ≤ s.history.handedOut.length := by
  unfold Counted at counted
  have hsum : 0 ≤ ∑ tile ∈ Finset.range s.nodeCount, ((s.tiles tile).pc.owed.toNat : ℤ) :=
    Finset.sum_nonneg fun _ _ => Int.natCast_nonneg _
  omega

/-- When every hand-out is counted, no tile has one still to count. -/
theorem Counted.not_owed (counted : s.Counted)
    (all : (s.history.handedOut.length : ℤ) ≤ s.completedTasks) :
    ∀ tile < s.nodeCount, (s.tiles tile).pc.owed = false := by
  unfold Counted at counted
  have hnonneg : ∀ tile ∈ Finset.range s.nodeCount,
      0 ≤ ((s.tiles tile).pc.owed.toNat : ℤ) := fun _ _ => Int.natCast_nonneg _
  have hsum := Finset.sum_nonneg hnonneg
  intro tile htile
  have hzero := (Finset.sum_eq_zero_iff_of_nonneg hnonneg).mp (by omega) tile
    (Finset.mem_range.mpr htile)
  exact Bool.toNat_eq_zero.mp (Int.natCast_eq_zero.mp hzero)

theorem c0Frame_refl (s : TaskSystem) : C0Frame s s :=
  ⟨rfl, rfl, rfl, rfl, rfl, rfl, rfl, fun _ _ => rfl, fun _ => Or.inl⟩

theorem c0Frame_beginCreate (s : TaskSystem) (test : HalTest) :
    C0Frame s (s.beginCreate test) := by
  unfold beginCreate
  split_ifs <;> exact ⟨rfl, rfl, rfl, rfl, rfl, rfl, rfl, fun _ _ => rfl, fun _ => Or.inl⟩

theorem c0Frame_beginQueue (s : TaskSystem) (task : ℕ) : C0Frame s (s.beginQueue task) := by
  refine ⟨rfl, rfl, rfl, rfl, rfl, rfl, rfl, fun k _ => ?_, fun _ => Or.inl⟩
  change (Function.update s.storage task _ k).taskId = _
  by_cases hk : k = task
  · rw [hk, Function.update_self]
  · rw [Function.update_of_ne hk]

theorem DispatchInv.c0Frame_store (h : s.DispatchInv) (call : s.c0 = .queueStore slot) :
    C0Frame s (s.store slot) := by
  have hcall := h.call
  rw [call] at hcall
  obtain ⟨hslot, -⟩ := hcall
  by_cases hroom : s.count < maxPendingTasks
  · rw [show s.store slot = s.copyTask slot from if_pos hroom]
    refine ⟨rfl, rfl, rfl, rfl, rfl, rfl, rfl, fun k hk => ?_, fun _ => Or.inl⟩
    -- the copy goes to an unused slot, which is not taken
    have hne : k ≠ s.count := by
      rintro rfl
      rw [h.unused _ le_rfl] at hk
      exact Bool.false_ne_true hk
    rw [copyTask_taskId hslot, if_neg hne]
  · rw [show s.store slot = _ from if_neg hroom]
    exact ⟨rfl, rfl, rfl, rfl, rfl, rfl, rfl, fun _ _ => rfl, fun _ => Or.inl⟩

/-- The steps of C0's calls leave the work of the tiles alone. -/
theorem DispatchInv.c0Frame_stepC0 (h : s.DispatchInv) : C0Frame s s.stepC0 := by
  have hcall := h.call
  cases hc0 : s.c0 with
  | idle returned =>
    simp only [TaskSystem.stepC0, hc0]
    exact c0Frame_refl s
  | createReserve id test =>
    simp only [TaskSystem.stepC0, hc0, TaskSystem.reserve]
    split_ifs <;> exact ⟨rfl, rfl, rfl, rfl, rfl, rfl, rfl, fun _ _ => rfl, fun _ => Or.inl⟩
  | createInit slot id test writes =>
    rw [hc0] at hcall
    obtain ⟨-, ⟨-, -, hfresh⟩, -, -, -, hfree, -⟩ := hcall
    simp only [TaskSystem.stepC0, hc0]
    cases writes with
    | nil =>
      refine ⟨rfl, rfl, rfl, rfl, rfl, rfl, rfl, fun _ _ => rfl, fun c hc => ?_⟩
      rcases List.mem_cons.mp hc with rfl | hc
      · exact Or.inr hfresh
      · exact Or.inl hc
    | cons write writes =>
      refine ⟨rfl, rfl, rfl, rfl, rfl, rfl, rfl, fun k hk => ?_, fun _ => Or.inl⟩
      have hne : k ≠ slot := by
        rintro rfl
        rw [hfree] at hk
        exact Bool.false_ne_true hk
      change (Function.update s.storage slot _ k).taskId = _
      rw [Function.update_of_ne hne]
  | queueCount task =>
    simp only [TaskSystem.stepC0, hc0]
    exact ⟨rfl, rfl, rfl, rfl, rfl, rfl, rfl, fun _ _ => rfl, fun _ => Or.inl⟩
  | queueStore task =>
    simp only [TaskSystem.stepC0, hc0]
    exact h.c0Frame_store hc0

/-! ### Steps of a tile -/

/-- What the steps of a tile have in common: one thread moves on, and the slots keep
their tasks. -/
structure Move (s s' : TaskSystem) (tile : ℕ) (pc : TilePc) : Prop where
  others : ∀ u, u ≠ tile → s'.tiles u = s.tiles u
  arrives : (s'.tiles tile).pc = pc
  taskId : ∀ slot, (s'.storage slot).taskId = (s.storage slot).taskId
  created : s'.history.created = s.history.created
  nodeCount : s'.nodeCount = s.nodeCount

/-- A step that neither gets nor executes a task, nor stores its result. -/
structure PlainMove (s s' : TaskSystem) (tile : ℕ) (pc : TilePc) : Prop
    extends Move s s' tile pc where
  handedOut : s'.history.handedOut = s.history.handedOut
  executed : s'.history.executed = s.history.executed
  results : s'.results = s.results
  /-- A completed flag is set for the task the tile has executed. -/
  completed : ∀ c ∈ s'.history.completed, c ∈ s.history.completed ∨
    ∃ slot, (s.tiles tile).pc.ran = some slot ∧ c = ⟨(s.storage slot).taskId, tile, slot⟩
  waiting : pc.waiting = (s.tiles tile).pc.waiting
  running : ∀ slot id, pc = .running slot id → id = (s.storage slot).taskId
  storing : ∀ slot value, pc ≠ .storeResult slot value ∧
    (s.tiles tile).pc ≠ .storeResult slot value
  ran : ∀ slot, pc.ran = some slot → (s.tiles tile).pc.ran = some slot
  balance : s'.completedTasks + pc.owed.toNat =
    s.completedTasks + (s.tiles tile).pc.owed.toNat

section Moves

variable {pc : TilePc}

/-- The invariant survives a move to a point where the tile has executed what it has. -/
theorem ExecutionInv.move (e : s.ExecutionInv) (m : Move s s' tile pc)
    (handedOut : s'.history.handedOut = s.history.handedOut)
    (executed : s'.history.executed = s.history.executed)
    (completed : ∀ c ∈ s'.history.completed, c ∈ s.history.completed ∨
      ∃ slot, (s.tiles tile).pc.ran = some slot ∧ c = ⟨(s.storage slot).taskId, tile, slot⟩)
    (waiting : pc.waiting = (s.tiles tile).pc.waiting)
    (running : ∀ slot id, pc = .running slot id → id = (s.storage slot).taskId)
    (storing : ∀ slot value, pc ≠ .storeResult slot value)
    (ran : ∀ slot, pc.ran = some slot → (s.tiles tile).pc.ran = some slot) :
    s'.ExecutionInv := by
  have hwaiting : ∀ u, (s'.tiles u).pc.waiting = (s.tiles u).pc.waiting := by
    intro u
    by_cases hu : u = tile
    · rw [hu, m.arrives, waiting]
    · rw [m.others u hu]
  refine ⟨?_, ?_, fun u k hpc => ?_, fun u k i hpc => ?_, fun u k v hpc => ?_,
    fun u k hpc => ?_, fun given hgiven => ?_, fun c hc => ?_⟩
  · rw [executed, handedOut]
    exact e.executed_given
  · rw [executed]
    exact e.executed_once
  · rw [hwaiting] at hpc
    rw [executed, m.taskId]
    exact e.waiting u k hpc
  · rw [m.taskId]
    by_cases hu : u = tile
    · rw [hu, m.arrives] at hpc
      exact running k i hpc
    · rw [m.others u hu] at hpc
      exact e.running u k i hpc
  · rw [executed, m.taskId]
    by_cases hu : u = tile
    · rw [hu, m.arrives] at hpc
      exact absurd hpc (storing k v)
    · rw [m.others u hu] at hpc
      exact e.storing u k v hpc
  · rw [executed, m.taskId]
    by_cases hu : u = tile
    · rw [hu, m.arrives] at hpc
      rw [hu]
      exact e.ran tile k (ran k hpc)
    · rw [m.others u hu] at hpc
      exact e.ran u k hpc
  · rw [handedOut] at hgiven
    rw [executed, hwaiting, m.taskId]
    exact e.progress given hgiven
  · rw [executed]
    rcases completed c hc with hc | ⟨k, hran, rfl⟩
    · exact e.completed_executed c hc
    · exact e.ran tile k hran

theorem ExecutionInv.plainMove (e : s.ExecutionInv) (m : PlainMove s s' tile pc) :
    s'.ExecutionInv :=
  e.move m.toMove m.handedOut m.executed m.completed m.waiting m.running
    (fun slot value => (m.storing slot value).1) m.ran

/-- A step of a tile that stores no result. -/
theorem ResultInv.move (stored : s.ResultInv) (m : Move s s' tile pc)
    (executed : s'.history.executed = s.history.executed) (results : s'.results = s.results)
    (elsewhere : ∀ slot value, (s.tiles tile).pc ≠ .storeResult slot value) :
    s'.ResultInv := by
  intro run hrun c hc hid ptr hptr
  rw [executed] at hrun
  rw [m.created] at hc
  rw [results, m.taskId]
  refine (stored run hrun c hc hid ptr hptr).imp_right fun ⟨hpc, hslot⟩ => ⟨?_, hslot⟩
  have hother : run.tile ≠ tile := by
    intro heq
    rw [heq] at hpc
    exact elsewhere _ _ hpc
  rw [m.others _ hother, hpc]

/-- Of a sum over the tiles only the term of the tile that moves changes. -/
theorem Move.sum_eq (m : Move s s' tile pc) (lt : tile < s.nodeCount) (term : TilePc → ℤ) :
    ∑ u ∈ Finset.range s'.nodeCount, term (s'.tiles u).pc + term (s.tiles tile).pc =
      ∑ u ∈ Finset.range s.nodeCount, term (s.tiles u).pc + term pc := by
  have hmem : tile ∈ Finset.range s.nodeCount := Finset.mem_range.mpr lt
  have hrest : ∑ u ∈ (Finset.range s.nodeCount).erase tile, term (s'.tiles u).pc =
      ∑ u ∈ (Finset.range s.nodeCount).erase tile, term (s.tiles u).pc :=
    Finset.sum_congr rfl fun u hu => by rw [m.others u (Finset.ne_of_mem_erase hu)]
  rw [m.nodeCount, ← Finset.add_sum_erase _ _ hmem, hrest, m.arrives,
    ← Finset.add_sum_erase _ (fun u => term (s.tiles u).pc) hmem]
  omega

theorem Counted.move (counted : s.Counted) (m : Move s s' tile pc) (lt : tile < s.nodeCount)
    (balance : s'.completedTasks + pc.owed.toNat + s.history.handedOut.length =
      s.completedTasks + (s.tiles tile).pc.owed.toNat + s'.history.handedOut.length) :
    s'.Counted := by
  have hsum := m.sum_eq lt fun pc => (pc.owed.toNat : ℤ)
  unfold Counted at counted ⊢
  omega

end Moves

/-! ### A tile gets a task -/

theorem handOut_move (s : TaskSystem) (tile slot : ℕ) :
    Move s (s.handOut tile slot) tile (.start slot) where
  others _ hu := Function.update_of_ne hu ..
  arrives := congrArg TileThread.pc (Function.update_self tile _ s.tiles)
  taskId _ := handOut_taskId
  created := rfl
  nodeCount := rfl

theorem DispatchInv.not_given (h : s.DispatchInv) (pos : 1 ≤ tile)
    (eligible : s.Eligible tile slot) :
    ∀ given ∈ s.history.handedOut, given.task ≠ (s.storage slot).taskId := by
  intro given hgiven heq
  refine h.handout.not_given ⟨pos, slot, eligible, rfl⟩ ?_
  rw [List.map_map]
  exact List.mem_map.mpr ⟨given, hgiven, heq⟩

theorem ExecutionInv.handOut (e : s.ExecutionInv) (h : s.DispatchInv) (pos : 1 ≤ tile)
    (eligible : s.Eligible tile slot) (poll : (s.tiles tile).pc = .poll) :
    (s.handOut tile slot).ExecutionInv := by
  have m := handOut_move s tile slot
  -- what was executed was handed out before, and this task was not
  have hunexecuted : (s.storage slot).taskId ∉ s.history.executed.map Execution.task := by
    intro hmem
    obtain ⟨run, hrun, hid⟩ := List.mem_map.mp hmem
    exact h.not_given pos eligible _ (e.executed_given run hrun) hid
  refine ⟨fun run hrun => List.mem_cons_of_mem _ (e.executed_given run hrun), e.executed_once,
    fun u k hpc => ?_, fun u k i hpc => ?_, fun u k v hpc => ?_, fun u k hpc => ?_,
    fun given hgiven => ?_, e.completed_executed⟩
  · rw [m.taskId]
    by_cases hu : u = tile
    · rw [hu, m.arrives] at hpc
      obtain rfl := Option.some.inj hpc
      exact hunexecuted
    · rw [m.others u hu] at hpc
      exact e.waiting u k hpc
  · rw [m.taskId]
    by_cases hu : u = tile
    · rw [hu, m.arrives] at hpc
      exact nomatch hpc
    · rw [m.others u hu] at hpc
      exact e.running u k i hpc
  · rw [m.taskId]
    by_cases hu : u = tile
    · rw [hu, m.arrives] at hpc
      exact nomatch hpc
    · rw [m.others u hu] at hpc
      exact e.storing u k v hpc
  · rw [m.taskId]
    by_cases hu : u = tile
    · rw [hu, m.arrives] at hpc
      exact nomatch hpc
    · rw [m.others u hu] at hpc
      exact e.ran u k hpc
  · rw [m.taskId]
    rcases List.mem_cons.mp hgiven with rfl | hgiven
    · exact Or.inr ⟨by rw [m.arrives]; rfl, rfl⟩
    · refine (e.progress given hgiven).imp_right fun ⟨hpc, hid⟩ => ⟨?_, hid⟩
      have hother : given.tile ≠ tile := by
        intro heq
        rw [heq, poll] at hpc
        exact nomatch hpc
      rw [m.others _ hother, hpc]

/-! ### A test function returns -/

/-- The state after the return of the test function. -/
def testReturned (s : TaskSystem) (tile task id : ℕ) (value : ℤ) : TaskSystem :=
  (s.setPc tile (.storeResult task value)).recordExecution ⟨id, tile, task, value⟩

theorem testReturned_move (s : TaskSystem) (tile slot id : ℕ) (value : ℤ) :
    Move s (s.testReturned tile slot id value) tile (.storeResult slot value) where
  others _ hu := Function.update_of_ne hu ..
  arrives := congrArg TileThread.pc (Function.update_self tile _ s.tiles)
  taskId _ := rfl
  created := rfl
  nodeCount := rfl

/-- A task was handed out once, so a tile that waits with it is its tile. -/
theorem DispatchInv.given_unique (h : s.DispatchInv) {given given' : HandOut}
    (hg : given ∈ s.history.handedOut) (hg' : given' ∈ s.history.handedOut)
    (same : given.task = given'.task) : given = given' := by
  have honce := h.handout.given_once
  rw [List.map_map] at honce
  exact List.inj_on_of_nodup_map honce hg hg' same

theorem ExecutionInv.testReturned (e : s.ExecutionInv) (h : s.DispatchInv)
    (running : (s.tiles tile).pc = .running slot id) :
    (s.testReturned tile slot id value).ExecutionInv := by
  have m := testReturned_move s tile slot id value
  obtain rfl := e.running tile slot id running
  have hwaiting : (s.tiles tile).pc.waiting = some slot := by rw [running]; rfl
  obtain ⟨-, -, hgiven⟩ := h.held tile slot (TilePc.held_of_waiting hwaiting)
  refine ⟨fun run hrun => ?_, List.nodup_cons.mpr ⟨e.waiting tile slot hwaiting, e.executed_once⟩,
    fun u k hpc => ?_, fun u k i hpc => ?_, fun u k v hpc => ?_, fun u k hpc => ?_,
    fun given hmem => ?_, fun c hc => ?_⟩
  · rcases List.mem_cons.mp hrun with rfl | hrun
    · exact hgiven
    · exact e.executed_given run hrun
  · by_cases hu : u = tile
    · rw [hu, m.arrives] at hpc
      exact nomatch hpc
    · rw [m.others u hu] at hpc
      intro hmem
      rcases List.mem_cons.mp hmem with heq | hmem
      -- a second tile that waits with this task would have got it, too
      · have hother := (h.held u k (TilePc.held_of_waiting hpc)).2.2
        exact hu (congrArg HandOut.tile (h.given_unique hother hgiven heq))
      · exact e.waiting u k hpc hmem
  · by_cases hu : u = tile
    · rw [hu, m.arrives] at hpc
      exact nomatch hpc
    · rw [m.others u hu] at hpc
      exact e.running u k i hpc
  · by_cases hu : u = tile
    · rw [hu, m.arrives] at hpc
      obtain ⟨rfl, rfl⟩ := TilePc.storeResult.inj hpc
      rw [hu]
      exact List.mem_cons_self
    · rw [m.others u hu] at hpc
      exact List.mem_cons_of_mem _ (e.storing u k v hpc)
  · by_cases hu : u = tile
    · rw [hu, m.arrives] at hpc
      obtain rfl := Option.some.inj hpc
      rw [hu]
      exact ⟨value, List.mem_cons_self⟩
    · rw [m.others u hu] at hpc
      obtain ⟨v, hv⟩ := e.ran u k hpc
      exact ⟨v, List.mem_cons_of_mem _ hv⟩
  -- the task this tile had in hand is the one that is executed now
  · rcases e.progress given hmem with hdone | ⟨hpc, hid⟩
    · exact Or.inl (List.mem_cons_of_mem _ hdone)
    · by_cases hu : given.tile = tile
      · rw [hu, hwaiting] at hpc
        obtain rfl := Option.some.inj hpc
        exact Or.inl (hid ▸ List.mem_cons_self)
      · rw [m.others _ hu]
        exact Or.inr ⟨hpc, hid⟩
  · obtain ⟨v, hv⟩ := e.completed_executed c hc
    exact ⟨v, List.mem_cons_of_mem _ hv⟩

theorem ResultInv.testReturned (stored : s.ResultInv) (e : s.ExecutionInv)
    (running : (s.tiles tile).pc = .running slot id) :
    (s.testReturned tile slot id value).ResultInv := by
  have m := testReturned_move s tile slot id value
  obtain rfl := e.running tile slot id running
  intro run hrun c hc hid ptr hptr
  rcases List.mem_cons.mp hrun with rfl | hrun
  · exact Or.inr ⟨m.arrives, rfl⟩
  · refine (stored run hrun c hc hid ptr hptr).imp_right fun ⟨hpc, hslot⟩ => ⟨?_, hslot⟩
    have hother : run.tile ≠ tile := by
      intro heq
      rw [heq, running] at hpc
      exact nomatch hpc
    rw [m.others _ hother, hpc]

/-! ### A result is stored -/

/-- A taken slot is not being initialised. -/
theorem DispatchInv.carries_of_held (h : s.DispatchInv)
    (held : (s.tiles tile).pc.held = some slot) : s.Carries slot := by
  obtain ⟨hlt, htaken, -⟩ := h.held tile slot held
  -- the slot C0 is initialising is not taken
  refine h.carries slot hlt fun hinit => ?_
  have hcall := h.call
  cases hc0 : s.c0 with
  | createInit init id test writes =>
    rw [hc0] at hcall hinit
    obtain rfl := Option.some.inj hinit
    obtain ⟨-, -, -, -, -, hfree, -⟩ := hcall
    rw [hfree] at htaken
    exact Bool.false_ne_true htaken
  | idle | createReserve | queueCount | queueStore =>
    rw [hc0] at hinit
    exact nomatch hinit

/-- The state after `*result_ptr` is written. -/
def resultStored (s : TaskSystem) (tile task : ℕ) (value : ℤ) : TaskSystem :=
  (s.storeResult task value).setPc tile (.setResult task value)

theorem storeResult_fields (s : TaskSystem) (task : ℕ) (value : ℤ) :
    (s.storeResult task value).storage = s.storage ∧
      (s.storeResult task value).tiles = s.tiles ∧
        (s.storeResult task value).history = s.history ∧
          (s.storeResult task value).nodeCount = s.nodeCount ∧
            (s.storeResult task value).completedTasks = s.completedTasks := by
  unfold TaskSystem.storeResult
  split <;> exact ⟨rfl, rfl, rfl, rfl, rfl⟩

theorem resultStored_move (s : TaskSystem) (tile slot : ℕ) (value : ℤ) :
    Move s (s.resultStored tile slot value) tile (.setResult slot value) := by
  obtain ⟨hstorage, htiles, hhistory, hnodes, -⟩ := s.storeResult_fields slot value
  refine ⟨fun u hu => ?_, ?_, fun k => ?_, ?_, hnodes⟩
  · change Function.update (s.storeResult slot value).tiles tile _ u = _
    rw [Function.update_of_ne hu, htiles]
  · change (Function.update (s.storeResult slot value).tiles tile _ tile).pc = _
    rw [Function.update_self]
  · change ((s.storeResult slot value).storage k).taskId = _
    rw [hstorage]
  · change (s.storeResult slot value).history.created = _
    rw [hhistory]

theorem ResultInv.resultStored (stored : s.ResultInv) (e : s.ExecutionInv) (h : s.DispatchInv)
    (distinct : s.DistinctResults) (storing : (s.tiles tile).pc = .storeResult slot value) :
    (s.resultStored tile slot value).ResultInv := by
  have m := resultStored_move s tile slot value
  have hheld : (s.tiles tile).pc.held = some slot := by rw [storing]; rfl
  have hstoring := e.storing tile slot value storing
  obtain ⟨own, hown, hcore⟩ := h.carries_of_held hheld
  have hparams : (s.storage slot).params = own.test := congrArg (fun core => core.2.2.1) hcore
  have hownId : (s.storage slot).taskId = own.task := congrArg Prod.fst hcore
  have hhistory := (s.storeResult_fields slot value).2.2.1
  intro run hrun c hc hid ptr hptr
  change run ∈ (s.storeResult slot value).history.executed at hrun
  rw [hhistory] at hrun
  rw [m.created] at hc
  rw [m.taskId]
  -- the run of the tile's own task has the value that is stored
  have hvalue : c = own → run.value = value := by
    rintro rfl
    have heq := List.inj_on_of_nodup_map e.executed_once hrun hstoring (hid.symm.trans hownId.symm)
    rw [heq]
  have hresults : c = own → (s.resultStored tile slot value).results ptr = value := by
    rintro rfl
    change (s.storeResult slot value).results ptr = value
    simp only [TaskSystem.storeResult, hparams, hptr]
    exact Function.update_self ..
  have hkept : c ≠ own → (s.resultStored tile slot value).results ptr = s.results ptr := by
    intro hne
    change (s.storeResult slot value).results ptr = s.results ptr
    unfold TaskSystem.storeResult
    split
    · next ptr' hptr' =>
      rw [hparams] at hptr'
      refine Function.update_of_ne (fun heq => hne ?_) ..
      exact distinct c hc own hown ptr hptr (heq ▸ hptr')
    · rfl
  by_cases hcown : c = own
  · exact Or.inl ((hresults hcown).trans (hvalue hcown).symm)
  · rw [hkept hcown]
    rcases stored run hrun c hc hid ptr hptr with hdone | ⟨hpc, hslot⟩
    · exact Or.inl hdone
    · have hother : run.tile ≠ tile := by
        intro heq
        rw [heq, storing] at hpc
        obtain ⟨hs, -⟩ := TilePc.storeResult.inj hpc
        -- the tile would be storing the result of another task from the same slot
        have hsame : c.task = own.task := by rw [hid, ← hslot, ← hs, hownId]
        exact hcown (List.inj_on_of_nodup_map h.created_once hc hown hsame)
      rw [m.others _ hother]
      exact Or.inr ⟨hpc, hslot⟩

/-! ### Every step of a tile -/

/-- What a step of a tile does to the tasks. -/
inductive TileStep (s : TaskSystem) (tile : ℕ) (s' : TaskSystem) : Prop
  | handOut (slot : ℕ) (poll : (s.tiles tile).pc = .poll) (eligible : s.Eligible tile slot)
      (eq : s' = s.handOut tile slot)
  | returned (slot id : ℕ) (value : ℤ) (running : (s.tiles tile).pc = .running slot id)
      (eq : s' = s.testReturned tile slot id value)
  | stored (slot : ℕ) (value : ℤ) (storing : (s.tiles tile).pc = .storeResult slot value)
      (eq : s' = s.resultStored tile slot value)
  | plain (pc : TilePc) (move : PlainMove s s' tile pc)

theorem setTile_move (s : TaskSystem) (tile : ℕ) (thread : TileThread) :
    Move s (s.setTile tile thread) tile thread.pc where
  others _ hu := Function.update_of_ne hu ..
  arrives := congrArg TileThread.pc (Function.update_self tile _ s.tiles)
  taskId _ := rfl
  created := rfl
  nodeCount := rfl

/-- A tile moves on between two points of its work on one task. -/
theorem plainMove_setTile {thread : TileThread}
    (waiting : thread.pc.waiting = (s.tiles tile).pc.waiting)
    (running : ∀ slot id, thread.pc = .running slot id → id = (s.storage slot).taskId)
    (storing : ∀ slot value, thread.pc ≠ .storeResult slot value ∧
      (s.tiles tile).pc ≠ .storeResult slot value)
    (ran : ∀ slot, thread.pc.ran = some slot → (s.tiles tile).pc.ran = some slot)
    (owed : thread.pc.owed = (s.tiles tile).pc.owed) :
    PlainMove s (s.setTile tile thread) tile thread.pc where
  toMove := setTile_move s tile thread
  handedOut := rfl
  executed := rfl
  results := rfl
  completed _ hc := Or.inl hc
  waiting := waiting
  running := running
  storing := storing
  ran := ran
  balance := by rw [owed]; rfl

theorem stepTile_cases (h : s.DispatchInv) (tile : ℕ) (value : ℤ) :
    TileStep s tile (s.stepTile tile value) := by
  cases hpc : (s.tiles tile).pc with
  | poll =>
    have hstep : s.stepTile tile value = s.getNextTask tile := by simp only [stepTile, hpc]
    rw [hstep]
    rcases s.getNextTask_cases tile with ⟨slot, -, heligible, hget⟩ | hget
    · exact .handOut slot hpc heligible hget
    · rw [hget]
      exact .plain _ (plainMove_setTile rfl (by simp [hpc]) (by simp [hpc])
        (by simp) rfl)
  | start task =>
    simp only [stepTile, hpc]
    exact .plain _ (plainMove_setTile (by rw [hpc]; rfl) (by simp) (by simp [hpc])
      (by simp [TilePc.ran]) (by rw [hpc]; rfl))
  | dispatch task =>
    have hheld : (s.tiles tile).pc.held = some task := by rw [hpc]; rfl
    obtain ⟨c, -, hcore⟩ := h.carries_of_held hheld
    -- the slot carries a HAL test: the other branches of the switch are not taken
    have htype : (s.storage task).type = .halTest := congrArg (fun core => core.2.1) hcore
    simp only [stepTile, hpc, TaskSystem.dispatch, htype]
    exact .plain _ (plainMove_setTile (by rw [hpc]; rfl) (by simp) (by simp [hpc])
      (by simp [TilePc.ran]) (by rw [hpc]; rfl))
  | call task =>
    have hheld : (s.tiles tile).pc.held = some task := by rw [hpc]; rfl
    obtain ⟨c, hc, hcore⟩ := h.carries_of_held hheld
    have hparams : (s.storage task).params = c.test := congrArg (fun core => core.2.2.1) hcore
    have hplatform : (s.storage task).platform = true := congrArg (fun core => core.2.2.2) hcore
    -- its function is not null, for its creation checked that
    have hfunc : (s.storage task).params.testFunc ≠ none := by
      rw [hparams]
      exact (h.created_valid c hc).2.2.1
    simp only [stepTile, hpc, callTest, if_pos (And.intro hfunc hplatform)]
    exact .plain _ (plainMove_setTile (by rw [hpc]; rfl) (by simp) (by simp [hpc])
      (by simp [TilePc.ran]) (by rw [hpc]; rfl))
  | running task id =>
    simp only [stepTile, hpc]
    exact .returned task id value hpc rfl
  | storeResult task result =>
    simp only [stepTile, hpc]
    exact .stored task result hpc rfl
  | setResult task result =>
    simp only [stepTile, hpc]
    have m := setTile_move (s.setSlot task { s.storage task with result := result }) tile
      { s.tiles tile with pc := .flag task }
    exact .plain (.flag task)
      { others := m.others, arrives := m.arrives, taskId := setSlot_taskId s task _ rfl,
        created := rfl, nodeCount := rfl, handedOut := rfl, executed := rfl, results := rfl,
        completed := fun _ hc => Or.inl hc,
        waiting := by rw [hpc]; rfl, running := by simp, storing := by simp [hpc],
        ran := by simp [hpc, TilePc.ran], balance := by rw [hpc]; rfl }
  | flag task =>
    simp only [stepTile, hpc]
    have m := setTile_move (s.setSlot task { s.storage task with completed := true }) tile
      { s.tiles tile with pc := .leave task }
    exact .plain (.leave task)
      { others := m.others, arrives := m.arrives, taskId := setSlot_taskId s task _ rfl,
        created := rfl, nodeCount := rfl, handedOut := rfl, executed := rfl, results := rfl,
        completed := fun c hc => (List.mem_cons.mp hc).symm.imp_right
          fun heq => ⟨task, by rw [hpc]; rfl, heq⟩
        waiting := by rw [hpc]; rfl, running := by simp, storing := by simp [hpc],
        ran := by simp [TilePc.ran], balance := by rw [hpc]; rfl }
  | leave task =>
    simp only [stepTile, hpc]
    exact .plain _ (plainMove_setTile (by rw [hpc]; rfl) (by simp) (by simp [hpc])
      (by simp [TilePc.ran]) (by rw [hpc]; rfl))
  | count task =>
    simp only [stepTile, hpc]
    have m := setTile_move s tile { s.tiles tile with pc := .finish task }
    exact .plain (.finish task)
      { others := m.others, arrives := m.arrives, taskId := fun _ => rfl, created := rfl,
        nodeCount := rfl, handedOut := rfl, executed := rfl, results := rfl,
        completed := fun _ hc => Or.inl hc, waiting := by rw [hpc]; rfl, running := by simp,
        storing := by simp [hpc], ran := by simp [TilePc.ran],
        balance := by
          rw [hpc]
          change s.completedTasks + 1 + 0 = s.completedTasks + 1
          omega }
  | finish task =>
    simp only [stepTile, hpc]
    exact .plain _ (plainMove_setTile (by rw [hpc]; rfl) (by simp) (by simp [hpc])
      (by simp [TilePc.ran]) (by rw [hpc]; rfl))

theorem TileStep.exists_move (step : TileStep s tile s') : ∃ pc, Move s s' tile pc := by
  cases step with
  | handOut slot poll eligible eq => exact eq ▸ ⟨_, handOut_move s tile slot⟩
  | returned slot id value running eq => exact eq ▸ ⟨_, testReturned_move s tile slot id value⟩
  | stored slot value storing eq => exact eq ▸ ⟨_, resultStored_move s tile slot value⟩
  | plain pc move => exact ⟨pc, move.toMove⟩

theorem ExecutionInv.stepTile (e : s.ExecutionInv) (h : s.DispatchInv) (pos : 1 ≤ tile)
    (value : ℤ) : (s.stepTile tile value).ExecutionInv := by
  cases stepTile_cases h tile value with
  | handOut slot poll eligible eq =>
    rw [eq]
    exact e.handOut h pos eligible poll
  | returned slot id value running eq =>
    rw [eq]
    exact e.testReturned h running
  | stored slot value storing eq =>
    rw [eq]
    have hhistory := (s.storeResult_fields slot value).2.2.1
    refine e.move (resultStored_move s tile slot value) ?_ ?_ (fun c hc => Or.inl ?_)
      (by rw [storing]; rfl) (by simp) (by simp) (by simp [storing, TilePc.ran])
    · change (s.storeResult slot value).history.handedOut = _
      rw [hhistory]
    · change (s.storeResult slot value).history.executed = _
      rw [hhistory]
    · change c ∈ (s.storeResult slot value).history.completed at hc
      rwa [hhistory] at hc
  | plain pc move => exact e.plainMove move

theorem ResultInv.stepTile (stored : s.ResultInv) (e : s.ExecutionInv) (h : s.DispatchInv)
    (distinct : s.DistinctResults) (value : ℤ) : (s.stepTile tile value).ResultInv := by
  cases stepTile_cases h tile value with
  | handOut slot poll eligible eq =>
    rw [eq]
    exact stored.move (handOut_move s tile slot) rfl rfl (by simp [poll])
  | returned slot id value running eq =>
    rw [eq]
    exact stored.testReturned e running
  | stored slot value storing eq =>
    rw [eq]
    exact stored.resultStored e h distinct storing
  | plain pc move =>
    exact stored.move move.toMove move.executed move.results fun slot value =>
      (move.storing slot value).2

theorem Counted.stepTile (counted : s.Counted) (h : s.DispatchInv) (lt : tile < s.nodeCount)
    (value : ℤ) : (s.stepTile tile value).Counted := by
  cases stepTile_cases h tile value with
  | handOut slot poll eligible eq =>
    rw [eq]
    refine counted.move (handOut_move s tile slot) lt ?_
    rw [poll]
    change s.completedTasks + 1 + (s.history.handedOut.length : ℤ) =
      s.completedTasks + 0 + ((s.history.handedOut.length + 1 : ℕ) : ℤ)
    push_cast
    omega
  | returned slot id value running eq =>
    rw [eq]
    refine counted.move (testReturned_move s tile slot id value) lt ?_
    rw [running]
    rfl
  | stored slot value storing eq =>
    obtain ⟨-, -, hhistory, -, hcompleted⟩ := s.storeResult_fields slot value
    rw [eq]
    refine counted.move (resultStored_move s tile slot value) lt ?_
    rw [storing]
    change (s.storeResult slot value).completedTasks + 1 + (s.history.handedOut.length : ℤ) =
      s.completedTasks + 1 + ((s.storeResult slot value).history.handedOut.length : ℤ)
    rw [hhistory, hcompleted]
  | plain pc move =>
    refine counted.move move.toMove lt ?_
    rw [move.handedOut, move.balance]

end TaskSystem

end MeshNoc
