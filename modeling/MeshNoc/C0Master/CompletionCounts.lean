import Mathlib.Order.Interval.Finset.Nat
import MeshNoc.C0Master.ActiveTasks
import MeshNoc.Lib.EveryState

/-!
# Completion counts

Each tile counts the tasks it has completed in `tasks_completed`. The counter is incremented
in `tile_complete_task`, and again in `tile_processor_main` after that call: it goes up by
two for each task.

## Main results

* `CompletionInv.tasksCompleted_eq` — between tasks the counter is twice what it should be
* `always_exact_iff` — the counters are exact exactly as long as no tile finishes a task
-/

namespace MeshNoc

open Lib

/-- The tile has incremented its counter once for the task it has. -/
def TilePc.countedOnce : TilePc → Bool
  | .count _ | .finish _ => true
  | _ => false

/-- The tile has called `tile_complete_task`, and has still to finish the loop iteration. -/
def TilePc.called : TilePc → Bool
  | .leave _ | .count _ | .finish _ => true
  | _ => false

/-- The next step of the tile is the first of `tile_complete_task`. -/
def TilePc.calls : TilePc → Bool
  | .flag _ => true
  | _ => false

/-- The next step of the tile finishes a loop iteration with a task. -/
def TilePc.finishes : TilePc → Bool
  | .finish _ => true
  | _ => false

/-- The system, with what its tiles have done since their threads started. -/
structure CompletionRun where
  system : TaskSystem
  /-- The loop iterations of each tile that finished a task. -/
  finished : ℕ → ℕ := fun _ => 0
  /-- The calls of `tile_complete_task` each tile has made. -/
  completeCalls : ℕ → ℕ := fun _ => 0

namespace CompletionRun

variable {r : CompletionRun} {t : ℕ}

/-- The action is a step of tile `t`, at one of these points. -/
def stepsAt (r : CompletionRun) (points : TilePc → Bool) (action : TaskAction) (t : ℕ) : Bool :=
  match action with
  | .tile id _ => t = id ∧ (1 ≤ id ∧ id < r.system.nodeCount) ∧ points (r.system.tiles id).pc
  | _ => false

def step (r : CompletionRun) (action : TaskAction) : CompletionRun where
  system := r.system.step action
  finished := fun t => r.finished t + (r.stepsAt TilePc.finishes action t).toNat
  completeCalls := fun t => r.completeCalls t + (r.stepsAt TilePc.calls action t).toNat

/-- A tile between two tasks has counted the tasks it finished; when no tile has a task, the
counters add up to the calls of `tile_complete_task`. -/
structure Exact (r : CompletionRun) : Prop where
  own : ∀ t, 1 ≤ t → t < r.system.nodeCount → (r.system.tiles t).pc = .poll →
    (r.system.tiles t).tasksCompleted = r.finished t
  total : (∀ t, 1 ≤ t → t < r.system.nodeCount → (r.system.tiles t).pc = .poll) →
    ∑ t ∈ Finset.Ico 1 r.system.nodeCount, (r.system.tiles t).tasksCompleted =
      ∑ t ∈ Finset.Ico 1 r.system.nodeCount, r.completeCalls t

/-- The step does not finish a loop iteration with a task. -/
def FinishesNone (r : CompletionRun) (action : TaskAction) : Prop :=
  ∀ t, r.stepsAt TilePc.finishes action t = false

/-! ### The invariant -/

/-- The counter of each tile, and its calls, by the point its thread is at. -/
structure CompletionInv (r : CompletionRun) : Prop where
  tasksCompleted : ∀ t, 1 ≤ t → t < r.system.nodeCount → (r.system.tiles t).tasksCompleted =
    2 * r.finished t + (r.system.tiles t).pc.countedOnce.toNat
  completeCalls : ∀ t, 1 ≤ t → t < r.system.nodeCount → r.completeCalls t =
    r.finished t + (r.system.tiles t).pc.called.toNat

/-- The threads start between tasks, with their counters at zero. -/
theorem completionInv_start {s : TaskSystem}
    (start : ∀ t, 1 ≤ t → t < s.nodeCount →
      (s.tiles t).pc = .poll ∧ (s.tiles t).tasksCompleted = 0) :
    CompletionInv { system := s } where
  tasksCompleted t ht hlt := by
    rw [(start t ht hlt).1, (start t ht hlt).2]
    rfl
  completeCalls t ht hlt := by
    rw [(start t ht hlt).1]
    rfl

/-- Between tasks the counter of a tile is twice what it should be. -/
theorem CompletionInv.tasksCompleted_eq (inv : r.CompletionInv) (ht : 1 ≤ t)
    (hlt : t < r.system.nodeCount) (poll : (r.system.tiles t).pc = .poll) :
    (r.system.tiles t).tasksCompleted = 2 * r.finished t := by
  rw [inv.tasksCompleted t ht hlt, poll]
  rfl

/-- The counters are exact if and only if no tile between tasks has finished any. -/
theorem CompletionInv.exact_iff (inv : r.CompletionInv) :
    r.Exact ↔ ∀ t, 1 ≤ t → t < r.system.nodeCount → (r.system.tiles t).pc = .poll →
      r.finished t = 0 := by
  constructor
  · intro exact t ht hlt poll
    have hown := exact.own t ht hlt poll
    rw [inv.tasksCompleted_eq ht hlt poll] at hown
    omega
  · intro none
    refine ⟨fun t ht hlt poll => ?_, fun idle => Finset.sum_congr rfl fun t ht => ?_⟩
    · rw [inv.tasksCompleted_eq ht hlt poll, none t ht hlt poll]
    · obtain ⟨ht, hlt⟩ := Finset.mem_Ico.mp ht
      have poll := idle t ht hlt
      rw [inv.tasksCompleted_eq ht hlt poll, inv.completeCalls t ht hlt, none t ht hlt poll, poll]
      rfl

/-! ### Steps -/

/-- What a step of a tile does to its counter, by the point its thread is at. -/
structure ThreadStep (before after : TileThread) : Prop where
  counter : after.tasksCompleted + before.pc.countedOnce.toNat =
    before.tasksCompleted + after.pc.countedOnce.toNat + 2 * before.pc.finishes.toNat
  calls : after.pc.called.toNat + before.pc.finishes.toNat =
    before.pc.called.toNat + before.pc.calls.toNat
  ends : before.pc.finishes = true → after.pc = .poll
  /-- Only the end of a loop iteration leads back to the poll. -/
  poll : after.pc = .poll → before.pc.finishes = true ∨ before.pc = .poll

/-- Before the call of `tile_complete_task` nothing is counted. -/
theorem notCalled_points {pc : TilePc} (notCalled : pc.called = false) :
    pc.countedOnce = false ∧ pc.finishes = false := by
  cases pc with
  | leave | count | finish => exact absurd notCalled Bool.true_eq_false.mp
  | _ => exact ⟨rfl, rfl⟩

/-- A step on the way to the call of `tile_complete_task`. -/
theorem threadStep_of_notCalled {before after : TileThread}
    (counter : after.tasksCompleted = before.tasksCompleted)
    (notCalled : before.pc.called = false) (notCalled' : after.pc.called = false)
    (calls : before.pc.calls = false) (poll : after.pc = .poll → before.pc = .poll) :
    ThreadStep before after := by
  obtain ⟨honce, hfinishes⟩ := notCalled_points notCalled
  obtain ⟨honce', -⟩ := notCalled_points notCalled'
  refine ⟨?_, ?_, fun h => ?_, fun h => .inr (poll h)⟩
  · rw [counter, honce, honce', hfinishes]
    rfl
  · rw [notCalled, notCalled', calls, hfinishes]
  · rw [hfinishes] at h
    exact absurd h Bool.false_ne_true

/-- On the way to the call of `tile_complete_task` nothing is counted, and no step leads back
to the poll. -/
theorem stepTile_notCalled (s : TaskSystem) (tile : ℕ) (value : ℤ)
    (notCalled : (s.tiles tile).pc.called = false) (calls : (s.tiles tile).pc.calls = false) :
    ((s.stepTile tile value).tiles tile).tasksCompleted = (s.tiles tile).tasksCompleted ∧
      ((s.stepTile tile value).tiles tile).pc.called = false ∧
        (((s.stepTile tile value).tiles tile).pc = .poll → (s.tiles tile).pc = .poll) := by
  -- the thread a step leaves, whatever else it changes
  have hset : ∀ (s' : TaskSystem) (thread : TileThread),
      (s'.setTile tile thread).tiles tile = thread := fun _ _ => Function.update_self ..
  have hmoved : ∀ {after : TileThread} {Q : Prop} (pc : TilePc),
      after = { s.tiles tile with pc := pc } → pc.called = false → pc ≠ .poll →
        after.tasksCompleted = (s.tiles tile).tasksCompleted ∧ after.pc.called = false ∧
          (after.pc = .poll → Q) := by
    rintro _ Q pc rfl hcalled hpoll
    exact ⟨rfl, hcalled, fun h => absurd h hpoll⟩
  cases hpc : (s.tiles tile).pc with
  | poll =>
    simp only [TaskSystem.stepTile, hpc]
    obtain ⟨slot, -, -, hget⟩ | hget := s.getNextTask_cases tile <;> rw [hget]
    · exact hmoved (.start slot) (hset _ _) rfl (by simp)
    · rw [hset]
      exact ⟨rfl, by rw [hpc]; rfl, fun _ => trivial⟩
  | start task =>
    simp only [TaskSystem.stepTile, hpc]
    rw [hset]
    exact ⟨rfl, rfl, by simp⟩
  | dispatch task =>
    simp only [TaskSystem.stepTile, hpc, TaskSystem.dispatch]
    cases (s.storage task).type <;> exact hmoved _ (hset _ _) rfl (by simp)
  | call task =>
    simp only [TaskSystem.stepTile, hpc, TaskSystem.callTest]
    split_ifs <;> exact hmoved _ (hset _ _) rfl (by simp)
  | running task id =>
    simp only [TaskSystem.stepTile, hpc]
    exact hmoved (.storeResult task value) (hset _ _) rfl (by simp)
  | storeResult task result =>
    simp only [TaskSystem.stepTile, hpc, TaskSystem.storeResult]
    split <;> exact hmoved (.setResult task result) (hset _ _) rfl (by simp)
  | setResult task result =>
    simp only [TaskSystem.stepTile, hpc]
    exact hmoved (.flag task) (hset _ _) rfl (by simp)
  | flag => simp [hpc, TilePc.calls] at calls
  | leave | count | finish => simp [hpc, TilePc.called] at notCalled

theorem threadStep_stepTile (s : TaskSystem) (tile : ℕ) (value : ℤ) :
    ThreadStep (s.tiles tile) ((s.stepTile tile value).tiles tile) := by
  have hset : ∀ (s' : TaskSystem) (thread : TileThread),
      (s'.setTile tile thread).tiles tile = thread := fun _ _ => Function.update_self ..
  by_cases before : (s.tiles tile).pc.called = false ∧ (s.tiles tile).pc.calls = false
  · obtain ⟨hcounter, hcalled, hpoll⟩ := stepTile_notCalled s tile value before.1 before.2
    exact threadStep_of_notCalled hcounter before.1 hcalled before.2 hpoll
  -- from the call of `tile_complete_task` on
  cases hpc : (s.tiles tile).pc with
  | flag task =>
    have hthread : (s.stepTile tile value).tiles tile =
        { s.tiles tile with pc := .leave task } := by
      simp only [TaskSystem.stepTile, hpc]
      exact hset _ _
    rw [hthread]
    exact ⟨by rw [hpc]; rfl, by rw [hpc]; rfl, fun h => by simp [hpc, TilePc.finishes] at h,
      by simp⟩
  | leave task =>
    -- the increment of `tile_complete_task`
    simp only [TaskSystem.stepTile, hpc]
    rw [hset]
    exact ⟨by rw [hpc]; rfl, by rw [hpc]; rfl, fun h => by simp [hpc, TilePc.finishes] at h,
      by simp⟩
  | count task =>
    have hthread : (s.stepTile tile value).tiles tile =
        { s.tiles tile with pc := .finish task } := by
      simp only [TaskSystem.stepTile, hpc]
      exact hset _ _
    rw [hthread]
    exact ⟨by rw [hpc]; rfl, by rw [hpc]; rfl, fun h => by simp [hpc, TilePc.finishes] at h,
      by simp⟩
  | finish task =>
    -- the increment of `tile_processor_main`
    simp only [TaskSystem.stepTile, hpc]
    rw [hset]
    exact ⟨by rw [hpc]; rfl, by rw [hpc]; rfl, fun _ => rfl, fun _ => .inl (by rw [hpc]; rfl)⟩
  | _ => exact absurd ⟨by rw [hpc]; rfl, by rw [hpc]; rfl⟩ before

/-- The threads of the other tiles stay as they are. -/
theorem stepTile_others (s : TaskSystem) {tile u : ℕ} (value : ℤ) (ne : u ≠ tile) :
    (s.stepTile tile value).tiles u = s.tiles u := by
  cases s.stepTile_count tile value with
  | handOut slot poll eligible eq =>
    rw [eq]
    exact (s.handOut_move tile slot).others u ne
  | flagged slot flag move => exact move.others u ne
  | counted slot count move => exact move.others u ne
  | plain pc move => exact move.others u ne

/-- No other action touches the tiles. -/
theorem step_tiles (s : TaskSystem) {action : TaskAction}
    (not_tile : ∀ id value, action ≠ .tile id value) :
    (s.step action).tiles = s.tiles ∧ (s.step action).nodeCount = s.nodeCount := by
  cases action with
  | tile id value => exact absurd rfl (not_tile id value)
  | create test =>
    simp only [TaskSystem.step, TaskSystem.beginCreate]
    split
    · split_ifs <;> exact ⟨rfl, rfl⟩
    · exact ⟨rfl, rfl⟩
  | queue | resetStorage | resetCounters =>
    simp only [TaskSystem.step]
    split <;> exact ⟨rfl, rfl⟩
  | c0 => exact ⟨s.stepC0_keeps.tiles, s.stepC0_keeps.nodeCount⟩

/-- A step of the system is a step of the thread of one tile, or of none. -/
theorem step_thread (r : CompletionRun) (action : TaskAction) (t : ℕ) :
    (r.system.step action).nodeCount = r.system.nodeCount ∧
      ((∀ points, r.stepsAt points action t = false) ∧
          (r.system.step action).tiles t = r.system.tiles t ∨
        (1 ≤ t ∧ t < r.system.nodeCount) ∧
          (∀ points, r.stepsAt points action t = points (r.system.tiles t).pc) ∧
            ThreadStep (r.system.tiles t) ((r.system.step action).tiles t)) := by
  by_cases htile : ∃ id value, action = .tile id value
  · obtain ⟨id, value, rfl⟩ := htile
    by_cases hvalid : 1 ≤ id ∧ id < r.system.nodeCount
    · have hstep : r.system.step (.tile id value) = r.system.stepTile id value := if_pos hvalid
      rw [hstep]
      refine ⟨(r.system.stepTile_keeps id value).nodeCount, ?_⟩
      by_cases ht : t = id
      · subst ht
        exact .inr ⟨hvalid, fun points => by simp [stepsAt, hvalid], threadStep_stepTile _ t value⟩
      · exact .inl ⟨fun points => by simp [stepsAt, ht], stepTile_others _ value ht⟩
    · have hstep : r.system.step (.tile id value) = r.system := if_neg hvalid
      rw [hstep]
      exact ⟨rfl, .inl ⟨fun points => by simp [stepsAt, hvalid], rfl⟩⟩
  · obtain ⟨htiles, hnodes⟩ := step_tiles r.system fun id value h => htile ⟨id, value, h⟩
    refine ⟨hnodes, .inl ⟨fun points => ?_, congrFun htiles t⟩⟩
    cases action with
    | tile id value => exact absurd ⟨id, value, rfl⟩ htile
    | create | queue | resetStorage | resetCounters | c0 => rfl

theorem CompletionInv.step (inv : r.CompletionInv) (action : TaskAction) :
    (r.step action).CompletionInv := by
  have hthreads := r.step_thread action
  refine ⟨fun t ht hlt => ?_, fun t ht hlt => ?_⟩
  · change ((r.system.step action).tiles t).tasksCompleted =
      2 * (r.finished t + (r.stepsAt TilePc.finishes action t).toNat) +
        ((r.system.step action).tiles t).pc.countedOnce.toNat
    have hbefore := inv.tasksCompleted t ht ((hthreads t).1 ▸ hlt)
    obtain ⟨-, ⟨hnone, hsame⟩ | ⟨-, hpoints, hthread⟩⟩ := hthreads t
    · rw [hnone, hsame]
      exact hbefore
    · rw [hpoints]
      have hcounter := hthread.counter
      omega
  · change r.completeCalls t + (r.stepsAt TilePc.calls action t).toNat =
      r.finished t + (r.stepsAt TilePc.finishes action t).toNat +
        ((r.system.step action).tiles t).pc.called.toNat
    have hbefore := inv.completeCalls t ht ((hthreads t).1 ▸ hlt)
    obtain ⟨-, ⟨hnone, hsame⟩ | ⟨-, hpoints, hthread⟩⟩ := hthreads t
    · rw [hnone, hnone, hsame]
      exact hbefore
    · rw [hpoints, hpoints]
      have hcalls := hthread.calls
      omega

/-- From exact counters, only the end of a loop iteration with a task leads to others. -/
theorem CompletionInv.exact_step_iff (inv : r.CompletionInv) (exact : r.Exact)
    (action : TaskAction) : (r.step action).Exact ↔ r.FinishesNone action := by
  have hzero := inv.exact_iff.mp exact
  have hthreads := r.step_thread action
  rw [(inv.step action).exact_iff]
  constructor
  · intro none t
    obtain ⟨hnodes, ⟨hnone, -⟩ | ⟨⟨ht, hlt⟩, hpoints, hthread⟩⟩ := hthreads t
    · exact hnone TilePc.finishes
    · -- the tile polls again, with one more iteration behind it
      by_contra hfinishes
      rw [Bool.not_eq_false] at hfinishes
      have hend := hthread.ends ((hpoints TilePc.finishes).symm.trans hfinishes)
      have hfinished := none t ht (hnodes ▸ hlt) hend
      change r.finished t + (r.stepsAt TilePc.finishes action t).toNat = 0 at hfinished
      rw [hfinishes, Bool.toNat_true] at hfinished
      omega
  · intro none t ht hlt poll
    change r.finished t + (r.stepsAt TilePc.finishes action t).toNat = 0
    rw [none t, Bool.toNat_false, Nat.add_zero]
    obtain ⟨hnodes, ⟨-, hsame⟩ | ⟨-, hpoints, hthread⟩⟩ := hthreads t
    · exact hzero t ht (hnodes ▸ hlt) (hsame ▸ poll)
    · have hpoll := (hthread.poll poll).resolve_left fun h =>
        Bool.false_ne_true ((none t).symm.trans ((hpoints TilePc.finishes).trans h))
      exact hzero t ht (hnodes ▸ hlt) hpoll

/-- In any run from the start of the tile threads on, the counters are exact at all times if
and only if no tile finishes a task. -/
theorem always_exact_iff {s : TaskSystem}
    (start : ∀ t, 1 ≤ t → t < s.nodeCount →
      (s.tiles t).pc = .poll ∧ (s.tiles t).tasksCompleted = 0)
    (actions : List TaskAction) :
    Always step Exact { system := s } actions ↔
      EachStep step FinishesNone { system := s } actions :=
  have inv := completionInv_start start
  always_iff_eachStep (fun _ action h => h.step action)
    (fun _ action h exact => h.exact_step_iff exact action) inv
    (inv.exact_iff.mpr fun _ _ _ _ => rfl)

/-- C0 creates and queues a task, and tile 1 executes it. -/
def oneTask : List TaskAction :=
  .create ⟨some "tile_to_c0_transfer_task", some "Parallel-C0-Transfer-A", some .result1⟩ ::
    List.replicate 13 .c0 ++ [.queue 0, .c0, .c0] ++ List.replicate 11 (.tile 1 1)

theorem always_exact_iff_oneTask :
    Always step Exact { system := {} } oneTask ↔
      EachStep step FinishesNone { system := {} } oneTask :=
  always_exact_iff (fun _ _ _ => ⟨rfl, rfl⟩) oneTask

/-- Tile 1 has finished one task, and counts two. -/
theorem not_always_exact_oneTask : ¬ Always step Exact { system := {} } oneTask := by
  intro always
  have hexact := always.last
  have hnodes : (oneTask.foldl step { system := {} }).system.nodeCount = numTiles := by
    decide +kernel
  have hpoll : ((oneTask.foldl step { system := {} }).system.tiles 1).pc = .poll := by
    decide +kernel
  have hcount : ((oneTask.foldl step { system := {} }).system.tiles 1).tasksCompleted = 2 := by
    decide +kernel
  have hfinished : (oneTask.foldl step { system := {} }).finished 1 = 1 := by decide +kernel
  have hown := hexact.own 1 le_rfl (by rw [hnodes]; decide) hpoll
  omega

end CompletionRun

end MeshNoc
