import MeshNoc.C0Master.Execution

/-!
# Outstanding tasks

`active_tasks` is to be the number of queued tasks that have not completed. C0 counts a
task up after it has made it visible to its tile, and the tile counts it down when it has
executed it, so that the counter can be one short while C0 is between the two.

## Main results

* `ActiveInv.step` — what the counters and the tasks have to do with each other
* `ActiveInv.settled` — between calls the counter is right
* `trackedRun_iff` — the counter is never negative, exactly if no tile counts early
-/

namespace MeshNoc

open Lib

/-- The task of the queue call C0 is in. -/
def C0Call.queueing : C0Call → Option ℕ
  | .queueCount task | .queueStore task => some task
  | _ => none

/-- C0 has chosen a tile for a task it has still to count. -/
def C0Call.uncounted : C0Call → Bool
  | .queueCount _ => true
  | _ => false

/-- The tile is in `tile_complete_task`. -/
def TilePc.completing : TilePc → Bool
  | .flag _ | .leave _ | .count _ => true
  | _ => false

namespace TaskSystem

variable {s s' : TaskSystem} {tile slot : ℕ} {value : ℤ} {pc : TilePc}

/-- The number of queued tasks that have not completed. -/
def outstanding (s : TaskSystem) : ℕ :=
  (s.history.queued.filter fun id => id ∉ s.history.completed.map Completion.task).length

/-- The counter is not negative, and right while no queue or completion call is in
progress. -/
structure ActiveTracked (s : TaskSystem) : Prop where
  nonneg : 0 ≤ s.activeTasks
  settled : s.c0.queueing = none → (∀ tile < s.nodeCount, (s.tiles tile).pc.completing = false) →
    s.activeTasks = s.outstanding

/-- A tile counts a task down while C0 has still to count one up, and no task makes up for
it: all chosen tasks have been handed out, and no other tile has one to count. -/
def CountsEarly (s : TaskSystem) : TaskAction → Prop
  | .tile id _ => (1 ≤ id ∧ id < s.nodeCount) ∧ (∃ task, (s.tiles id).pc = .count task) ∧
      (∃ task, s.c0 = .queueCount task) ∧
        (∀ chosen ∈ s.history.chosen, chosen.1 ∈ s.history.handedOut.map HandOut.task) ∧
          ∀ other < s.nodeCount, other ≠ id → (s.tiles other).pc.owed = false
  | _ => False

/-- The counter is tracked in every state of the run. -/
def TrackedRun (s : TaskSystem) : List BatchAction → Prop
  | [] => s.ActiveTracked
  | action :: rest => s.ActiveTracked ∧ TrackedRun (s.step action.1) rest

/-- No tile counts early in the run. -/
def NoneCountsEarly (s : TaskSystem) : List BatchAction → Prop
  | [] => True
  | action :: rest => ¬ s.CountsEarly action.1 ∧ NoneCountsEarly (s.step action.1) rest

/-! ### The invariant -/

/-- How the counter, the flags and the queue calls account for the tasks. -/
structure ActiveInv (s : TaskSystem) : Prop where
  counted : s.activeTasks + s.history.handedOut.length + s.c0.uncounted.toNat =
    s.history.chosen.length + ∑ u ∈ Finset.range s.nodeCount, ((s.tiles u).pc.owed.toNat : ℤ)
  flagged : (s.history.completed.length : ℤ) +
    ∑ u ∈ Finset.range s.nodeCount, ((s.tiles u).pc.held.isSome.toNat : ℤ) =
      s.history.handedOut.length
  queued : s.history.chosen.map Prod.fst =
    (s.c0.queueing.map fun task => (s.storage task).taskId).toList ++ s.history.queued
  completed_given : ∀ c ∈ s.history.completed, ⟨c.task, c.tile, c.slot⟩ ∈ s.history.handedOut
  completed_once : (s.history.completed.map Completion.task).Nodup
  held_open : ∀ tile slot, (s.tiles tile).pc.held = some slot →
    (s.storage slot).taskId ∉ s.history.completed.map Completion.task

/-- With no task and no tile that has one. -/
theorem BatchStart.activeInv (start : s.BatchStart) (active : s.activeTasks = 0)
    (quiet : ∀ tile < s.nodeCount, (s.tiles tile).pc.owed = false) : s.ActiveInv := by
  obtain ⟨returned, between⟩ := start.between
  have howed : ∑ u ∈ Finset.range s.nodeCount, ((s.tiles u).pc.owed.toNat : ℤ) = 0 :=
    Finset.sum_eq_zero fun u hu => by rw [quiet u (Finset.mem_range.mp hu)]; rfl
  have hheld : ∑ u ∈ Finset.range s.nodeCount, ((s.tiles u).pc.held.isSome.toNat : ℤ) = 0 :=
    Finset.sum_eq_zero fun u _ => by rw [start.quiet u]; rfl
  refine ⟨?_, ?_, ?_, ?_, ?_, fun tile slot h => ?_⟩
  · rw [active, howed, between, start.history]
    rfl
  · rw [hheld, start.history]
    rfl
  · rw [between, start.history]
    rfl
  · rw [start.history]
    exact fun _ h => absurd h List.not_mem_nil
  · rw [start.history]
    exact List.nodup_nil
  · rw [start.quiet tile] at h
    exact absurd h.symm (Option.some_ne_none slot)

/-! ### Steps of C0 -/

/-- A step of C0 that the counter, the queue calls and the choices balance. -/
theorem ActiveInv.c0_step (inv : s.ActiveInv) (h : s.DispatchInv) (f : C0Frame s s')
    (counted : s'.activeTasks + s'.c0.uncounted.toNat + s.history.chosen.length =
      s.activeTasks + s.c0.uncounted.toNat + s'.history.chosen.length)
    (queued : s'.history.chosen.map Prod.fst =
      (s'.c0.queueing.map fun task => (s'.storage task).taskId).toList ++ s'.history.queued) :
    s'.ActiveInv := by
  refine ⟨?_, ?_, queued, ?_, ?_, fun tile slot hheld => ?_⟩
  · have hbefore := inv.counted
    rw [f.nodeCount, f.tiles, f.handedOut]
    omega
  · rw [f.completed, f.nodeCount, f.tiles, f.handedOut]
    exact inv.flagged
  · rw [f.completed, f.handedOut]
    exact inv.completed_given
  · rw [f.completed]
    exact inv.completed_once
  · rw [f.tiles] at hheld
    rw [f.completed, f.taskId slot (h.held tile slot hheld).2.1]
    exact inv.held_open tile slot hheld

theorem ActiveInv.beginCreate (inv : s.ActiveInv) (h : s.DispatchInv) {returned : Option ℕ}
    (between : s.c0 = .idle returned) (test : HalTest) : (s.beginCreate test).ActiveInv := by
  have hqueued := inv.queued
  rw [between] at hqueued
  refine inv.c0_step h (c0Frame_beginCreate s test) ?_ ?_ <;>
    unfold TaskSystem.beginCreate <;> split_ifs
  · rw [between]
    rfl
  · rw [between]
    rfl
  · exact hqueued
  · exact hqueued

theorem ActiveInv.beginQueue (inv : s.ActiveInv) (h : s.DispatchInv) {returned : Option ℕ}
    (between : s.c0 = .idle returned) (task : ℕ) : (s.beginQueue task).ActiveInv := by
  have hqueued := inv.queued
  rw [between] at hqueued
  refine inv.c0_step h (c0Frame_beginQueue s task) ?_ ?_
  · rw [between]
    change s.activeTasks + 1 + (s.history.chosen.length : ℤ) =
      s.activeTasks + 0 + ((s.history.chosen.length + 1 : ℕ) : ℤ)
    push_cast
    omega
  · change (s.storage task).taskId :: s.history.chosen.map Prod.fst =
      ((s.beginQueue task).storage task).taskId :: s.history.queued
    rw [beginQueue_taskId, hqueued]
    rfl

theorem store_fields (s : TaskSystem) (task : ℕ) :
    (s.store task).activeTasks = s.activeTasks ∧ (s.store task).c0 = .idle none ∧
      (s.store task).history.chosen = s.history.chosen ∧
        (s.store task).history.queued = (s.storage task).taskId :: s.history.queued := by
  by_cases hroom : s.count < maxPendingTasks
  · rw [show s.store task = s.copyTask task from if_pos hroom]
    exact ⟨rfl, rfl, rfl, rfl⟩
  · rw [show s.store task = _ from if_neg hroom]
    exact ⟨rfl, rfl, rfl, rfl⟩

theorem ActiveInv.stepC0 (inv : s.ActiveInv) (h : s.DispatchInv) : s.stepC0.ActiveInv := by
  have hqueued := inv.queued
  have f := h.c0Frame_stepC0
  cases hc0 : s.c0 with
  | idle returned =>
    simp only [TaskSystem.stepC0, hc0]
    exact inv
  | createReserve id test =>
    rw [hc0] at hqueued
    refine inv.c0_step h f ?_ ?_ <;>
      simp only [TaskSystem.stepC0, hc0, TaskSystem.reserve] <;> split_ifs
    · rfl
    · rfl
    · exact hqueued
    · exact hqueued
  | createInit slot id test writes =>
    rw [hc0] at hqueued
    refine inv.c0_step h f ?_ ?_ <;>
      simp only [TaskSystem.stepC0, hc0] <;> cases writes
    · rfl
    · rfl
    · exact hqueued
    · exact hqueued
  | queueCount task =>
    rw [hc0] at hqueued
    refine inv.c0_step h f ?_ ?_ <;> simp only [TaskSystem.stepC0, hc0]
    -- the counter makes up for the choice
    · change s.activeTasks + 1 + 0 + (s.history.chosen.length : ℤ) =
        s.activeTasks + 1 + (s.history.chosen.length : ℤ)
      omega
    · exact hqueued
  | queueStore task =>
    rw [hc0] at hqueued
    obtain ⟨hactive, hcall, hchosen, hstored⟩ := s.store_fields task
    refine inv.c0_step h f ?_ ?_ <;> simp only [TaskSystem.stepC0, hc0]
    · rw [hactive, hcall, hchosen]
      rfl
    · rw [hcall, hchosen, hstored]
      exact hqueued

/-! ### Steps of a tile -/

/-- What a step of a tile does to the counts. -/
inductive TileCount (s : TaskSystem) (tile : ℕ) (s' : TaskSystem) : Prop
  | handOut (slot : ℕ) (poll : (s.tiles tile).pc = .poll) (eligible : s.Eligible tile slot)
      (eq : s' = s.handOut tile slot)
  | flagged (slot : ℕ) (flag : (s.tiles tile).pc = .flag slot)
      (move : Move s s' tile (.leave slot)) (active : s'.activeTasks = s.activeTasks)
      (handedOut : s'.history.handedOut = s.history.handedOut)
      (completed : s'.history.completed =
        ⟨(s.storage slot).taskId, tile, slot⟩ :: s.history.completed)
  | counted (slot : ℕ) (count : (s.tiles tile).pc = .count slot)
      (move : Move s s' tile (.finish slot)) (active : s'.activeTasks = s.activeTasks - 1)
      (handedOut : s'.history.handedOut = s.history.handedOut)
      (completed : s'.history.completed = s.history.completed)
  | plain (pc : TilePc) (move : Move s s' tile pc) (held : pc.held = (s.tiles tile).pc.held)
      (owed : pc.owed = (s.tiles tile).pc.owed) (active : s'.activeTasks = s.activeTasks)
      (handedOut : s'.history.handedOut = s.history.handedOut)
      (completed : s'.history.completed = s.history.completed)

/-- Between two points of the work on one task nothing is counted. -/
theorem tileCount_setTile {thread : TileThread} (held : thread.pc.held = (s.tiles tile).pc.held)
    (owed : thread.pc.owed = (s.tiles tile).pc.owed) :
    TileCount s tile (s.setTile tile thread) :=
  .plain thread.pc (setTile_move s tile thread) held owed rfl rfl rfl

theorem tileCount_executed {thread : TileThread} {e : Execution}
    (held : thread.pc.held = (s.tiles tile).pc.held)
    (owed : thread.pc.owed = (s.tiles tile).pc.owed) :
    TileCount s tile ((s.setTile tile thread).recordExecution e) := by
  have m := setTile_move s tile thread
  exact .plain thread.pc ⟨m.others, m.arrives, m.taskId, m.created, m.nodeCount⟩ held owed
    rfl rfl rfl

theorem stepTile_count (s : TaskSystem) (tile : ℕ) (value : ℤ) :
    TileCount s tile (s.stepTile tile value) := by
  cases hpc : (s.tiles tile).pc with
  | poll =>
    have hstep : s.stepTile tile value = s.getNextTask tile := by simp only [stepTile, hpc]
    rw [hstep]
    obtain ⟨slot, -, heligible, hget⟩ | hget := s.getNextTask_cases tile
    · exact .handOut slot hpc heligible hget
    · rw [hget]
      exact tileCount_setTile rfl rfl
  | start task =>
    simp only [stepTile, hpc]
    exact tileCount_setTile (by rw [hpc]; rfl) (by rw [hpc]; rfl)
  | dispatch task =>
    simp only [stepTile, hpc, TaskSystem.dispatch]
    cases (s.storage task).type with
    | halTest => exact tileCount_setTile (by rw [hpc]; rfl) (by rw [hpc]; rfl)
    | memoryCopy | dmaTransfer | computation | nocTransfer | testExecution =>
      exact tileCount_executed (by rw [hpc]; rfl) (by rw [hpc]; rfl)
  | call task =>
    simp only [stepTile, hpc, callTest]
    split_ifs
    · exact tileCount_setTile (by rw [hpc]; rfl) (by rw [hpc]; rfl)
    · exact tileCount_executed (by rw [hpc]; rfl) (by rw [hpc]; rfl)
  | running task id =>
    simp only [stepTile, hpc]
    exact tileCount_executed (by rw [hpc]; rfl) (by rw [hpc]; rfl)
  | storeResult task result =>
    simp only [stepTile, hpc]
    obtain ⟨-, -, hhistory, -, -⟩ := s.storeResult_fields task result
    refine .plain _ (resultStored_move s tile task result) (by rw [hpc]; rfl)
      (by rw [hpc]; rfl) ?_ ?_ ?_
    · change (s.storeResult task result).activeTasks = _
      unfold TaskSystem.storeResult
      split <;> rfl
    · exact congrArg TaskHistory.handedOut hhistory
    · exact congrArg TaskHistory.completed hhistory
  | setResult task result =>
    simp only [stepTile, hpc]
    have m := setTile_move (s.setSlot task { s.storage task with result := result }) tile
      { s.tiles tile with pc := .flag task }
    exact .plain (.flag task) ⟨m.others, m.arrives, setSlot_taskId s task _ rfl, rfl, rfl⟩
      (by rw [hpc]; rfl) (by rw [hpc]; rfl) rfl rfl rfl
  | flag task =>
    simp only [stepTile, hpc]
    have m := setTile_move (s.setSlot task { s.storage task with completed := true }) tile
      { s.tiles tile with pc := .leave task }
    exact .flagged task hpc ⟨m.others, m.arrives, setSlot_taskId s task _ rfl, rfl, rfl⟩
      rfl rfl rfl
  | leave task =>
    simp only [stepTile, hpc]
    exact tileCount_setTile (by rw [hpc]; rfl) (by rw [hpc]; rfl)
  | count task =>
    simp only [stepTile, hpc]
    have m := setTile_move s tile { s.tiles tile with pc := .finish task }
    exact .counted task hpc ⟨m.others, m.arrives, fun _ => rfl, rfl, rfl⟩ rfl rfl rfl
  | finish task =>
    simp only [stepTile, hpc]
    exact tileCount_setTile (by rw [hpc]; rfl) (by rw [hpc]; rfl)

/-- A move of a tile that keeps the task it has still to flag. -/
theorem ActiveInv.held_open_move (inv : s.ActiveInv) (m : Move s s' tile pc)
    (held : ∀ slot, pc.held = some slot → (s.tiles tile).pc.held = some slot)
    (completed : s'.history.completed = s.history.completed) (u k : ℕ)
    (h : (s'.tiles u).pc.held = some k) :
    (s'.storage k).taskId ∉ s'.history.completed.map Completion.task := by
  rw [m.taskId, completed]
  by_cases hu : u = tile
  · rw [hu, m.arrives] at h
    exact inv.held_open tile k (held k h)
  · rw [m.others u hu] at h
    exact inv.held_open u k h

/-- A move of a tile that balances the counter and the flags. -/
theorem ActiveInv.tile_move (inv : s.ActiveInv) (m : Move s s' tile pc) (lt : tile < s.nodeCount)
    (c0 : s'.c0 = s.c0) (chosen : s'.history.chosen = s.history.chosen)
    (queued : s'.history.queued = s.history.queued)
    (counted : s'.activeTasks + s'.history.handedOut.length + (s.tiles tile).pc.owed.toNat =
      s.activeTasks + s.history.handedOut.length + pc.owed.toNat)
    (flagged : s'.history.completed.length + pc.held.isSome.toNat + s.history.handedOut.length =
      s.history.completed.length + (s.tiles tile).pc.held.isSome.toNat +
        s'.history.handedOut.length)
    (given : ∀ c ∈ s'.history.completed, ⟨c.task, c.tile, c.slot⟩ ∈ s'.history.handedOut)
    (once : (s'.history.completed.map Completion.task).Nodup)
    (isOpen : ∀ u k, (s'.tiles u).pc.held = some k →
      (s'.storage k).taskId ∉ s'.history.completed.map Completion.task) : s'.ActiveInv := by
  refine ⟨?_, ?_, ?_, given, once, isOpen⟩
  · have hsum := m.sum_eq lt fun pc => (pc.owed.toNat : ℤ)
    have hbefore := inv.counted
    rw [c0, chosen]
    omega
  · have hsum := m.sum_eq lt fun pc => (pc.held.isSome.toNat : ℤ)
    have hbefore := inv.flagged
    omega
  · rw [c0, chosen, queued, inv.queued]
    simp only [m.taskId]

/-- The task a tile gets is not completed: it was not handed out before. -/
theorem ActiveInv.handOut (inv : s.ActiveInv) (h : s.DispatchInv)
    (valid : 1 ≤ tile ∧ tile < s.nodeCount) (poll : (s.tiles tile).pc = .poll)
    (eligible : s.Eligible tile slot) : (s.handOut tile slot).ActiveInv := by
  have m := handOut_move s tile slot
  have hopen : (s.storage slot).taskId ∉ s.history.completed.map Completion.task := by
    intro hmem
    obtain ⟨c, hc, hid⟩ := List.mem_map.mp hmem
    exact h.not_given valid.1 eligible _ (inv.completed_given c hc) hid
  refine inv.tile_move m valid.2 rfl rfl rfl ?_ ?_
    (fun c hc => List.mem_cons_of_mem _ (inv.completed_given c hc)) inv.completed_once
    fun u k hk => ?_
  · rw [poll]
    change s.activeTasks + ((s.history.handedOut.length + 1 : ℕ) : ℤ) + 0 =
      s.activeTasks + s.history.handedOut.length + 1
    push_cast
    omega
  · rw [poll]
    change s.history.completed.length + 1 + s.history.handedOut.length =
      s.history.completed.length + 0 + (s.history.handedOut.length + 1)
    omega
  · rw [m.taskId]
    by_cases hu : u = tile
    · rw [hu, m.arrives] at hk
      obtain rfl := Option.some.inj hk
      exact hopen
    · rw [m.others u hu] at hk
      exact inv.held_open u k hk

/-- The task whose flag a tile sets is held by no other tile. -/
theorem ActiveInv.flag_step (inv : s.ActiveInv) (h : s.DispatchInv) (lt : tile < s.nodeCount)
    (flag : (s.tiles tile).pc = .flag slot) (m : Move s s' tile (.leave slot))
    (c0 : s'.c0 = s.c0) (chosen : s'.history.chosen = s.history.chosen)
    (queued : s'.history.queued = s.history.queued) (active : s'.activeTasks = s.activeTasks)
    (handedOut : s'.history.handedOut = s.history.handedOut)
    (completed : s'.history.completed =
      ⟨(s.storage slot).taskId, tile, slot⟩ :: s.history.completed) : s'.ActiveInv := by
  have hheld : (s.tiles tile).pc.held = some slot := by
    rw [flag]
    rfl
  have hgiven := (h.held tile slot hheld).2.2
  refine inv.tile_move m lt c0 chosen queued ?_ ?_ (fun c hc => ?_) ?_ fun u k hk => ?_
  · rw [active, handedOut, flag]
    rfl
  · rw [completed, handedOut, flag]
    change s.history.completed.length + 1 + 0 + s.history.handedOut.length =
      s.history.completed.length + 1 + s.history.handedOut.length
    omega
  · rw [completed] at hc
    rw [handedOut]
    obtain rfl | hc := List.mem_cons.mp hc
    · exact hgiven
    · exact inv.completed_given c hc
  · rw [completed]
    exact List.nodup_cons.mpr ⟨inv.held_open tile slot hheld, inv.completed_once⟩
  · have hu : u ≠ tile := by
      rintro rfl
      rw [m.arrives] at hk
      exact Option.some_ne_none k hk.symm
    rw [m.others u hu] at hk
    rw [m.taskId, completed, List.map_cons, List.mem_cons, not_or]
    refine ⟨fun heq => ?_, inv.held_open u k hk⟩
    exact hu (congrArg HandOut.tile (h.given_unique (h.held u k hk).2.2 hgiven heq))

/-- Every step of a tile keeps the counts. -/
theorem ActiveInv.stepTile (inv : s.ActiveInv) (h : s.DispatchInv)
    (valid : 1 ≤ tile ∧ tile < s.nodeCount) (value : ℤ) : (s.stepTile tile value).ActiveInv := by
  obtain ⟨c0, -, chosen, queued, -⟩ := s.stepTile_leaves tile value
  cases s.stepTile_count tile value with
  | handOut slot poll eligible eq =>
    rw [eq]
    exact inv.handOut h valid poll eligible
  | flagged slot flag move active handedOut completed =>
    exact inv.flag_step h valid.2 flag move c0 chosen queued active handedOut completed
  | counted slot count move active handedOut completed =>
    refine inv.tile_move move valid.2 c0 chosen queued ?_ ?_ ?_ ?_
      (inv.held_open_move move (fun k hk => absurd hk.symm (Option.some_ne_none k)) completed)
    · rw [active, handedOut, count]
      change s.activeTasks - 1 + s.history.handedOut.length + 1 =
        s.activeTasks + s.history.handedOut.length + 0
      omega
    · rw [completed, handedOut, count]
      rfl
    · rw [completed, handedOut]
      exact inv.completed_given
    · rw [completed]
      exact inv.completed_once
  | plain pc move held owed active handedOut completed =>
    refine inv.tile_move move valid.2 c0 chosen queued ?_ ?_ ?_ ?_
      (inv.held_open_move move (fun k hk => held ▸ hk) completed)
    · rw [active, handedOut, owed]
    · rw [completed, handedOut, held]
    · rw [completed, handedOut]
      exact inv.completed_given
    · rw [completed]
      exact inv.completed_once

/-! ### Runs -/

/-- What every step within a batch preserves. -/
theorem ActiveInv.step (inv : s.ActiveInv) (h : s.DispatchInv) {action : TaskAction}
    (keeps : action ≠ .resetStorage) (counts : action ≠ .resetCounters) :
    (s.step action).ActiveInv := by
  have hstep := s.batchStep keeps
  generalize s.step action = s' at hstep ⊢
  cases hstep with
  | stay => exact inv
  | create between => exact inv.beginCreate h between _
  | queue between => exact inv.beginQueue h between _
  | resetCounters between => exact absurd rfl counts
  | c0 => exact inv.stepC0 h
  | tile valid => exact inv.stepTile h valid _

/-- Between calls a task is counted from its queue call to its flag. -/
theorem ActiveInv.settled (inv : s.ActiveInv) (h : s.DispatchInv)
    (between : s.c0.queueing = none)
    (quiet : ∀ tile < s.nodeCount, (s.tiles tile).pc.completing = false) :
    s.activeTasks = s.outstanding := by
  have hqueued : s.history.chosen.map Prod.fst = s.history.queued := by
    rw [inv.queued, between]
    rfl
  have huncounted : s.c0.uncounted = false := by
    cases hc0 : s.c0 with
    | queueCount task => simp [hc0, C0Call.queueing] at between
    | idle | createReserve | createInit | queueStore => rfl
  -- a tile that is not completing owes the tasks whose flag it has still to set
  have howed : ∑ u ∈ Finset.range s.nodeCount, ((s.tiles u).pc.owed.toNat : ℤ) =
      ∑ u ∈ Finset.range s.nodeCount, ((s.tiles u).pc.held.isSome.toNat : ℤ) := by
    refine Finset.sum_congr rfl fun u hu => ?_
    have hpc := quiet u (Finset.mem_range.mp hu)
    revert hpc
    cases (s.tiles u).pc <;> simp [TilePc.completing, TilePc.owed, TilePc.held]
  have honce : s.history.queued.Nodup := hqueued ▸ h.handout.chosen_once
  have hsub : s.history.completed.map Completion.task ⊆ s.history.queued := by
    intro id hid
    obtain ⟨c, hc, rfl⟩ := List.mem_map.mp hid
    have hchosen := h.handout.given_chosen _ (List.mem_map_of_mem (inv.completed_given c hc))
    rw [← hqueued]
    exact List.mem_map_of_mem hchosen
  have houtstanding := length_filter_notMem_add honce inv.completed_once hsub
  have hlength : s.history.queued.length = s.history.chosen.length := by
    rw [← hqueued, List.length_map]
  have hcounted := inv.counted
  have hflagged := inv.flagged
  rw [huncounted, howed] at hcounted
  rw [List.length_map] at houtstanding
  unfold outstanding
  simp only [Bool.toNat_false] at hcounted
  omega

/-- A tile with a task to count: it counts early exactly when the counter is at zero. -/
theorem ActiveInv.countsEarly_iff (inv : s.ActiveInv) (h : s.DispatchInv)
    (valid : 1 ≤ tile ∧ tile < s.nodeCount) (count : (s.tiles tile).pc = .count slot) :
    0 ≤ s.activeTasks ∧ (s.CountsEarly (.tile tile value) ↔ s.activeTasks = 0) := by
  have hcounted := inv.counted
  have hle := h.handout.length_le
  have hall : s.history.handedOut.length = s.history.chosen.length ↔
      ∀ chosen ∈ s.history.chosen, chosen.1 ∈ s.history.handedOut.map HandOut.task := by
    have heq := h.handout.length_eq_iff
    rw [List.length_map, List.map_map] at heq
    exact heq
  rw [List.length_map] at hle
  -- the tile's own task, and those of the others
  have hmem : tile ∈ Finset.range s.nodeCount := Finset.mem_range.mpr valid.2
  have hnonneg : ∀ u ∈ (Finset.range s.nodeCount).erase tile,
      0 ≤ ((s.tiles u).pc.owed.toNat : ℤ) := fun _ _ => Int.natCast_nonneg _
  have hothers := Finset.sum_nonneg hnonneg
  have hzero : ∑ u ∈ (Finset.range s.nodeCount).erase tile, ((s.tiles u).pc.owed.toNat : ℤ) = 0 ↔
      ∀ other < s.nodeCount, other ≠ tile → (s.tiles other).pc.owed = false := by
    rw [Finset.sum_eq_zero_iff_of_nonneg hnonneg]
    simp only [Finset.mem_erase, Finset.mem_range, Int.natCast_eq_zero, Bool.toNat_eq_zero]
    exact ⟨fun all u hu hne => all u ⟨hne, hu⟩, fun all u hu => all u hu.2 hu.1⟩
  have hown : ((s.tiles tile).pc.owed.toNat : ℤ) = 1 := by
    rw [count]
    rfl
  rw [← Finset.add_sum_erase _ _ hmem, hown] at hcounted
  have huncounted : s.c0.uncounted.toNat = 1 ↔ ∃ task, s.c0 = .queueCount task := by
    cases s.c0 <;> simp [C0Call.uncounted]
  have hbound := Bool.toNat_le s.c0.uncounted
  refine ⟨by omega, ?_⟩
  simp only [CountsEarly]
  rw [← hzero, ← huncounted, ← hall]
  constructor
  · rintro ⟨-, -, hcall, hgiven, hnone⟩
    omega
  · intro hactive
    exact ⟨valid, ⟨slot, count⟩, by omega, by omega, by omega⟩

theorem activeTasks_le_stepC0 (s : TaskSystem) : s.activeTasks ≤ s.stepC0.activeTasks := by
  cases hc0 : s.c0 with
  | idle returned => simp only [TaskSystem.stepC0, hc0, le_refl]
  | createReserve id test =>
    simp only [TaskSystem.stepC0, hc0, TaskSystem.reserve]
    split_ifs <;> exact le_rfl
  | createInit slot id test writes =>
    simp only [TaskSystem.stepC0, hc0]
    cases writes <;> exact le_rfl
  | queueCount task =>
    simp only [TaskSystem.stepC0, hc0]
    omega
  | queueStore task =>
    simp only [TaskSystem.stepC0, hc0]
    exact (s.store_fields task).1.ge

/-- Only a tile with a task to count counts down. -/
theorem activeTasks_step (s : TaskSystem) {action : TaskAction}
    (keeps : action ≠ .resetStorage) (counts : action ≠ .resetCounters) :
    s.activeTasks ≤ (s.step action).activeTasks ∨
      ∃ tile value slot, action = .tile tile value ∧ (1 ≤ tile ∧ tile < s.nodeCount) ∧
        (s.tiles tile).pc = .count slot ∧ (s.step action).activeTasks = s.activeTasks - 1 := by
  have hstep := s.batchStep keeps
  generalize s.step action = s' at hstep ⊢
  cases hstep with
  | stay => exact .inl le_rfl
  | create between =>
    left
    unfold TaskSystem.beginCreate
    split_ifs <;> exact le_rfl
  | queue between => exact .inl le_rfl
  | resetCounters between => exact absurd rfl counts
  | c0 => exact .inl s.activeTasks_le_stepC0
  | @tile id value valid =>
    cases s.stepTile_count id value with
    | handOut slot poll eligible eq => exact .inl (eq ▸ le_rfl)
    | flagged slot flag move active handedOut completed => exact .inl active.ge
    | counted slot count move active handedOut completed =>
      exact .inr ⟨id, value, slot, rfl, valid, count, active⟩
    | plain pc move held owed active handedOut completed => exact .inl active.ge

/-- From a counter that is not negative, only an early count leads below zero. -/
theorem ActiveInv.nonneg_step_iff (inv : s.ActiveInv) (h : s.DispatchInv) {action : TaskAction}
    (keeps : action ≠ .resetStorage) (counts : action ≠ .resetCounters)
    (nonneg : 0 ≤ s.activeTasks) :
    0 ≤ (s.step action).activeTasks ↔ ¬ s.CountsEarly action := by
  obtain hle | ⟨tile, value, slot, rfl, valid, count, hless⟩ := s.activeTasks_step keeps counts
  · refine iff_of_true (nonneg.trans hle) fun early => ?_
    cases action with
    | tile id value =>
      obtain ⟨slot, count⟩ := early.2.1
      have hstep : (s.step (.tile id value)).activeTasks = s.activeTasks - 1 := by
        simp only [TaskSystem.step, if_pos early.1, TaskSystem.stepTile, count]
      omega
    | create | queue | resetStorage | resetCounters | c0 => exact early
  · rw [(inv.countsEarly_iff h valid count).2, hless]
    omega

theorem TrackedRun.run {actions : List BatchAction} (tracked : s.TrackedRun actions) :
    (s.run actions).ActiveTracked := by
  induction actions generalizing s with
  | nil => exact tracked
  | cons action rest ih => exact ih tracked.2

theorem trackedRun_iff_of_inv (inv : s.ActiveInv) (h : s.DispatchInv)
    (nonneg : 0 ≤ s.activeTasks) {actions : List BatchAction} (once : s.QueuesOnce actions)
    (counts : ∀ action ∈ actions, action.1 ≠ .resetCounters) :
    s.TrackedRun actions ↔ s.NoneCountsEarly actions := by
  have htracked : s.ActiveTracked := ⟨nonneg, inv.settled h⟩
  induction actions generalizing s with
  | nil => exact iff_of_true htracked trivial
  | cons action rest ih =>
    have hcounts := counts action List.mem_cons_self
    have hnonneg := inv.nonneg_step_iff h action.2 hcounts nonneg
    have inv' := inv.step h action.2 hcounts
    have h' := h.step action.2 once.1
    have hrest := fun later hlater => counts later (List.mem_cons_of_mem action hlater)
    simp only [TrackedRun, NoneCountsEarly]
    rw [and_iff_right htracked, ← hnonneg]
    constructor
    · intro tracked
      have hnext : 0 ≤ (s.step action.1).activeTasks := by
        cases rest with
        | nil => exact tracked.nonneg
        | cons later rest => exact tracked.1.nonneg
      exact ⟨hnext, (ih inv' h' hnext once.2 hrest ⟨hnext, inv'.settled h'⟩).mp tracked⟩
    · rintro ⟨hnext, early⟩
      exact (ih inv' h' hnext once.2 hrest ⟨hnext, inv'.settled h'⟩).mpr early

/-- In a run within one batch that queues no task twice, from a counter at zero and no task,
the counter is never negative, and the number of queued tasks that have not completed while
no queue or completion call is in progress, if and only if no tile counts early. -/
theorem trackedRun_iff (start : s.BatchStart) (active : s.activeTasks = 0)
    (quiet : ∀ tile < s.nodeCount, (s.tiles tile).pc.owed = false) {actions : List BatchAction}
    (once : s.QueuesOnce actions) (counts : ∀ action ∈ actions, action.1 ≠ .resetCounters) :
    s.TrackedRun actions ↔ s.NoneCountsEarly actions :=
  trackedRun_iff_of_inv (start.activeInv active quiet) start.dispatchInv active.ge once counts

/-- C0 queues a task, and tile 1 begins with it. -/
theorem trackedRun_iff_takenEarly :
    TrackedRun {} takenEarly ↔ NoneCountsEarly {} takenEarly :=
  trackedRun_iff batchStart_start rfl (fun _ _ => rfl) (by decide +kernel)
    (by simp [takenEarly])

/-- The step of a tile, as one within a batch. -/
def tileAction (tile : ℕ) (value : ℤ) : BatchAction := ⟨.tile tile value, by simp⟩

/-- Tile 1 executes the task whole before C0 counts it. -/
def countedEarly : List BatchAction := takenEarly.take 15 ++ List.replicate 10 (tileAction 1 0)

theorem not_trackedRun_countedEarly : BatchStart {} ∧ ¬ TrackedRun {} countedEarly := by
  refine ⟨batchStart_start, fun tracked => ?_⟩
  have hnonneg := tracked.run.nonneg
  have hactive : (run {} countedEarly).activeTasks = -1 := by decide +kernel
  omega

end TaskSystem

end MeshNoc
