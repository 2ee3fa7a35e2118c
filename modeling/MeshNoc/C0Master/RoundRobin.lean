import MeshNoc.C0Master.Execution
import MeshNoc.Lib.RoundRobin
import MeshNoc.Lib.Transducer

/-!
# The round robin of the tiles

`queue_task_to_available_tile` gives each task to the tile after the last one, and leaves
out tile 0, which is C0. Its counter is a static variable of the function: neither the other
steps of the system nor a new batch touch it.

## Main results

* `queueEvent_nextTile` — a call takes the next tile of the round, other steps none
* `assignedTiles_balanced` — over any run the tiles get equally many tasks, up to one
-/

namespace MeshNoc

open Lib

/-- C0 calls `queue_task_to_available_tile` with some task, or the system makes another step. -/
inductive QueueEvent
  | call (task : ℕ)
  | other (action : TaskAction) (not_queue : ∀ task, action ≠ .queue task)

namespace TaskSystem

variable {s : TaskSystem} {chosen : List ℕ}

/-- An event, and the tile it assigns a task to. The rest of the call is in the steps of C0
that follow. -/
def queueEvent (s : TaskSystem) : QueueEvent → Option ℤ × TaskSystem
  | .call task =>
    match s.c0 with
    | .idle _ =>
      let after := s.beginQueue task
      (some (after.storage task).assignedTile, after)
    -- C0 is in another call
    | _ => (none, s)
  | .other action _ => (none, s.step action)

/-- The tiles that a run assigns tasks to, in their order. -/
def assignedTiles (s : TaskSystem) (events : List QueueEvent) : List ℤ :=
  (runTrace queueEvent s events).filterMap Prod.snd

theorem assignedTiles_cons (s : TaskSystem) (event : QueueEvent) (rest : List QueueEvent) :
    s.assignedTiles (event :: rest) =
      (s.queueEvent event).1.toList ++ (s.queueEvent event).2.assignedTiles rest := by
  unfold assignedTiles
  rw [runTrace_cons]
  cases hassigned : (s.queueEvent event).1 with
  | none => exact List.filterMap_cons_none rfl
  | some tile => exact List.filterMap_cons_some rfl

/-! ### What the counter depends on -/

theorem step_nextTile (s : TaskSystem) {action : TaskAction}
    (not_queue : ∀ task, action ≠ .queue task) :
    (s.step action).nextTile = s.nextTile ∧ (s.step action).nodeCount = s.nodeCount := by
  cases action with
  | queue task => exact absurd rfl (not_queue task)
  | create test =>
    simp only [step, beginCreate]
    split
    · split_ifs <;> exact ⟨rfl, rfl⟩
    · exact ⟨rfl, rfl⟩
  | resetStorage | resetCounters =>
    simp only [step]
    split <;> exact ⟨rfl, rfl⟩
  | c0 => exact ⟨s.stepC0_keeps.nextTile, s.stepC0_keeps.nodeCount⟩
  | tile id value =>
    simp only [step]
    split_ifs
    · exact ⟨(s.stepTile_keeps id value).nextTile, (s.stepTile_keeps id value).nodeCount⟩
    · exact ⟨rfl, rfl⟩

/-- A call assigns the next tile and advances in the round; nothing else does. -/
theorem queueEvent_nextTile (s : TaskSystem) (event : QueueEvent) :
    ((s.queueEvent event).1 = some (s.nextTile : ℤ) ∧
        (s.queueEvent event).2.nextTile = nextInRound 1 s.nodeCount s.nextTile ∨
      (s.queueEvent event).1 = none ∧ (s.queueEvent event).2.nextTile = s.nextTile) ∧
      (s.queueEvent event).2.nodeCount = s.nodeCount := by
  cases event with
  | call task =>
    simp only [queueEvent]
    split
    · refine ⟨.inl ⟨?_, rfl⟩, rfl⟩
      change some (Function.update s.storage task
        { s.storage task with assignedTile := s.nextTile } task).assignedTile = _
      rw [Function.update_self]
    · exact ⟨.inr ⟨rfl, rfl⟩, rfl⟩
  | other action not_queue =>
    obtain ⟨hnext, hnodes⟩ := s.step_nextTile not_queue
    exact ⟨.inr ⟨rfl, hnext⟩, hnodes⟩

/-! ### Runs -/

/-- A run goes on with the round robin of the choices made before it. -/
theorem roundRobin_run (h : RoundRobin 1 s.nodeCount s.nextTile chosen)
    (events : List QueueEvent) :
    ∃ later : List ℕ, s.assignedTiles events = later.map Nat.cast ∧
      RoundRobin 1 s.nodeCount (runState queueEvent s events).nextTile
        (later.reverse ++ chosen) := by
  induction events generalizing s chosen with
  | nil => exact ⟨[], rfl, h⟩
  | cons event rest ih =>
    obtain ⟨⟨hassigned, hnext⟩ | ⟨hassigned, hnext⟩, hnodes⟩ := s.queueEvent_nextTile event
    · have hchoose := h.choose
      rw [← hnext, ← hnodes] at hchoose
      obtain ⟨later, hlater, hrun⟩ := ih hchoose
      rw [hnodes] at hrun
      refine ⟨s.nextTile :: later, ?_, ?_⟩
      · rw [assignedTiles_cons, hassigned, hlater]
        rfl
      · rw [List.reverse_cons, List.append_assoc]
        exact hrun
    · rw [← hnext, ← hnodes] at h
      obtain ⟨later, hlater, hrun⟩ := ih h
      rw [hnodes] at hrun
      refine ⟨later, ?_, hrun⟩
      rw [assignedTiles_cons, hassigned, hlater]
      rfl

/-- From the start of the round on, whatever the calls and whatever happens between them:
every call assigns one of the tiles `1, …, N - 1`, the counter stays among them, and no two
of them get numbers of tasks that differ by more than one. -/
theorem assignedTiles_balanced {N : ℕ} (nodes : s.nodeCount = N) (two_le : 2 ≤ N)
    (first : s.nextTile = 1) (events : List QueueEvent) :
    (∀ tile ∈ s.assignedTiles events, 1 ≤ tile ∧ tile < N) ∧
      (1 ≤ (runState queueEvent s events).nextTile ∧
        (runState queueEvent s events).nextTile < N) ∧
        ∀ t u : ℕ, 1 ≤ t ∧ t < N → 1 ≤ u ∧ u < N →
          (s.assignedTiles events).count (t : ℤ) ≤ (s.assignedTiles events).count (u : ℤ) + 1 := by
  have hstart : RoundRobin 1 s.nodeCount s.nextTile [] := by
    rw [nodes, first]
    exact RoundRobin.start two_le
  obtain ⟨later, hlater, hrun⟩ := roundRobin_run hstart events
  rw [nodes, List.append_nil] at hrun
  rw [hlater]
  refine ⟨fun tile htile => ?_, ⟨hrun.first_le, hrun.next_lt⟩, fun t u ht hu => ?_⟩
  · obtain ⟨t, ht, rfl⟩ := List.mem_map.mp htile
    have hmem := hrun.chosen_mem t (List.mem_reverse.mpr ht)
    omega
  · have hbound := hrun.count_le ht hu
    rw [List.count_reverse, List.count_reverse] at hbound
    rw [List.count_map_of_injective later _ Nat.cast_injective,
      List.count_map_of_injective later _ Nat.cast_injective]
    exact hbound

/-- C0 queues three tasks. -/
def threeCalls : List QueueEvent :=
  [.call 0, .other .c0 (by simp), .other .c0 (by simp), .call 1, .other .c0 (by simp),
    .other .c0 (by simp), .call 2]

/-- Of three nodes, tiles 1 and 2 take turns. -/
theorem assignedTiles_balanced_threeCalls :
    assignedTiles { nodeCount := 3 } threeCalls = [1, 2, 1] ∧
      ∀ tile ∈ assignedTiles { nodeCount := 3 } threeCalls, 1 ≤ tile ∧ tile < (3 : ℕ) :=
  ⟨by decide +kernel, (assignedTiles_balanced rfl (by decide) rfl threeCalls).1⟩

end TaskSystem

end MeshNoc
