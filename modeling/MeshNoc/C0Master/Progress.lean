import MeshNoc.C0Master.Batch
import MeshNoc.Lib.Completion
import MeshNoc.Lib.RoundRobin
import Mathlib.Algebra.BigOperators.Ring.Finset

/-!
# Progress of the tasks

How much is left to be done: every step of a tile that has a task, or finds one, lowers the
work of the tiles, and every step of C0 lowers its rank, but for the wait for the counter.
When the tiles have no work left the counter is there: each row of the table got its task,
each task was given to a tile that has a thread, and each of them was counted.

## Main results

* `TaskSystem.work_stepTile` — what a tile does
* `TaskSystem.Rows`, `TaskSystem.RoundInv` — the tasks of the rows, and the tiles chosen for them
* `HalRun.rank_stepC0` — what C0 does
* `HalRun.completed_of_drained` — the wait comes to its end
-/

namespace MeshNoc

open Lib

/-! ### The work of the tiles -/

/-- How many steps a tile is away from its next poll. -/
def TilePc.rank : TilePc → ℕ
  | poll => 0
  | finish _ => 1
  | count _ => 2
  | leave _ => 3
  | flag _ => 4
  | setResult _ _ => 5
  | storeResult _ _ => 6
  | running _ _ => 7
  | call _ => 8
  | dispatch _ => 9
  | start _ => 10

/-- How many steps C0 is away from the return of its call. -/
def C0Call.rank : C0Call → ℕ
  | .idle _ => 0
  | .queueStore _ => 1
  | .queueCount _ => 2
  | .createInit _ _ _ writes => writes.length + 1
  | .createReserve _ _ => 13

/-- How many points C0 has still to pass at most, with a table of `n` rows. -/
def HalPhase.rank (n : ℕ) : HalPhase → ℕ
  | finished => 0
  | wait => 1
  | create i => 2 * (n - i) + 2
  | queue i => 2 * (n - i) + 1
  | resetCounters => 2 * n + 3
  | resetStorage => 2 * n + 4
  | waitB cycles => 2 * n + 5 + 2 * (maxWaitCycles - cycles)
  | waitA cycles => 2 * n + 6 + 2 * (maxWaitCycles - cycles)
  | queueB _ => 2 * n + 7 + 2 * maxWaitCycles
  | queueA _ => 2 * n + 8 + 2 * maxWaitCycles
  | createB => 2 * n + 9 + 2 * maxWaitCycles
  | createA => 2 * n + 10 + 2 * maxWaitCycles

/-- What C0's call is about to add to the storage. -/
def C0Call.adds : C0Call → ℕ
  | .queueCount _ | .queueStore _ => 1
  | .idle _ | .createReserve _ _ | .createInit _ _ _ _ => 0

namespace TaskSystem

variable {s s' : TaskSystem} {tile slot : ℕ} {value : ℤ}

/-- The slots in use that no tile has taken. -/
def untaken (s : TaskSystem) : Finset ℕ :=
  (Finset.range s.count).filter fun slot => (s.storage slot).taken = false

@[simp] theorem mem_untaken :
    slot ∈ s.untaken ↔ slot < s.count ∧ (s.storage slot).taken = false := by
  rw [untaken, Finset.mem_filter, Finset.mem_range]

/-- The steps the tiles have to make for what is in the storage. -/
def work (s : TaskSystem) : ℕ :=
  11 * s.untaken.card + ∑ tile ∈ Finset.range s.nodeCount, (s.tiles tile).pc.rank

/-- No tile has a task, or can get one. -/
structure Drained (s : TaskSystem) : Prop where
  polls : ∀ tile < s.nodeCount, (s.tiles tile).pc = .poll
  empty : ∀ tile, 1 ≤ tile → tile < s.nodeCount → ∀ slot, ¬ s.Eligible tile slot

theorem pc_setTile (s : TaskSystem) (tile : ℕ) (thread : TileThread) :
    ((s.setTile tile thread).tiles tile).pc = thread.pc := by
  rw [setTile_tiles, Function.update_self]

/-- Of the work of the tiles only that of the tile that moves changes. -/
theorem Move.work_lt {pc : TilePc} (m : Move s s' tile pc) (lt : tile < s.nodeCount)
    (less : 11 * s'.untaken.card + pc.rank < 11 * s.untaken.card + (s.tiles tile).pc.rank) :
    s'.work < s.work := by
  have hsum := m.sum_eq lt fun pc => (pc.rank : ℤ)
  rw [← Nat.cast_sum, ← Nat.cast_sum] at hsum
  unfold work
  omega

/-- A tile that has a task gets on with it. -/
theorem rank_stepTile (busy : (s.tiles tile).pc ≠ .poll) :
    ((s.stepTile tile value).tiles tile).pc.rank < (s.tiles tile).pc.rank := by
  have hlt {n : ℕ} (s' : TaskSystem) (thread : TileThread) (h : thread.pc.rank < n) :
      ((s'.setTile tile thread).tiles tile).pc.rank < n := by rwa [pc_setTile]
  cases hpc : (s.tiles tile).pc with
  | poll => exact absurd hpc busy
  | dispatch task =>
    simp only [stepTile, hpc, TaskSystem.dispatch]
    split <;> exact hlt _ _ (by simp [TilePc.rank])
  | call task =>
    simp only [stepTile, hpc, callTest]
    split <;> exact hlt _ _ (by simp [TilePc.rank])
  | start task | running task id | storeResult task result | setResult task result | flag task
  | leave task | count task | finish task =>
    simp only [stepTile, hpc]
    exact hlt _ _ (by simp [TilePc.rank])

/-- The scan finds a slot when there is one. -/
theorem getNextTask_of_eligible (lt : slot < s.count) (eligible : s.Eligible tile slot) :
    ∃ taken < s.count, s.Eligible tile taken ∧ s.getNextTask tile = s.handOut tile taken := by
  unfold getNextTask
  split
  · next taken hfind =>
    have htaken := List.mem_range.mp (List.mem_of_find?_eq_some hfind)
    have hfree := List.find?_some hfind
    exact ⟨taken, htaken, of_decide_eq_true hfree, rfl⟩
  · next hfind =>
    have hnone := List.find?_eq_none.mp hfind slot (List.mem_range.mpr lt)
    exact absurd (decide_eq_true eligible) hnone

/-- Every step of a tile that has a task, or finds one, lowers the work. -/
theorem work_stepTile (h : s.DispatchInv) (lt : tile < s.nodeCount)
    (works : (s.tiles tile).pc ≠ .poll ∨ ∃ slot, s.Eligible tile slot) :
    (s.stepTile tile value).work < s.work := by
  by_cases hpc : (s.tiles tile).pc = .poll
  · obtain ⟨slot, heligible⟩ := works.resolve_left fun hbusy => hbusy hpc
    have hstep : s.stepTile tile value = s.getNextTask tile := by simp only [stepTile, hpc]
    obtain ⟨taken, htaken, hfree, hget⟩ := getNextTask_of_eligible (h.lt_count heligible) heligible
    rw [hstep, hget]
    refine (handOut_move s tile taken).work_lt lt ?_
    have huntaken : (s.handOut tile taken).untaken = s.untaken.erase taken := by
      ext k
      rw [Finset.mem_erase, mem_untaken, mem_untaken, handOut_storage]
      by_cases hk : k = taken
      · simp [hk]
      · rw [Function.update_of_ne hk]
        exact (and_iff_right hk).symm
    have hmem : taken ∈ s.untaken := mem_untaken.mpr ⟨htaken, hfree.2.2.1⟩
    have hcard := Finset.card_erase_add_one hmem
    rw [huntaken, hpc]
    simp only [TilePc.rank]
    omega
  · have f := h.frame_stepTile hpc value
    obtain ⟨pc, m⟩ := (stepTile_cases h tile value).exists_move
    refine m.work_lt lt ?_
    have huntaken : (s.stepTile tile value).untaken = s.untaken := by
      ext k
      rw [mem_untaken, mem_untaken, f.count, f.taken]
    rw [huntaken, ← m.arrives]
    exact Nat.add_lt_add_left (rank_stepTile hpc) _

/-- Every tile is behind its task, and none is left for it. -/
structure Resting (s : TaskSystem) : Prop where
  counted : ∀ tile, (s.tiles tile).pc.owed = false
  empty : ∀ tile, 1 ≤ tile → ∀ slot, ¬ s.Eligible tile slot

/-! ### The rows of the table -/

/-- C0 is between calls. -/
def Between (s : TaskSystem) : Prop := ∃ returned, s.c0 = .idle returned

/-- C0 is in a call that creates a task, with `n` slots reserved before, or has the task. -/
def Creating (s : TaskSystem) (n : ℕ) : Prop :=
  match s.c0 with
  | .createReserve _ _ => s.count = n
  | .createInit _ _ _ _ | .idle (some _) => s.count = n + 1
  | .idle none | .queueCount _ | .queueStore _ => False

variable {n : ℕ} {phase : HalPhase}

theorem creating_beginCreate (room : s.count = n) {test : HalTest} (nonNull : test.NonNull) :
    (s.beginCreate test).Creating n := by
  simp only [TaskSystem.beginCreate, if_pos nonNull, Creating]
  exact room

theorem Creating.congr (creating : s.Creating n) (c0 : s'.c0 = s.c0) (count : s'.count = s.count) :
    s'.Creating n := by
  unfold Creating at creating ⊢
  rw [c0, count]
  exact creating

theorem Between.congr (between : s.Between) (c0 : s'.c0 = s.c0) : s'.Between := by
  unfold Between
  rwa [c0]

/-- The call goes on, as there is a free slot. -/
theorem Creating.stepC0 (creating : s.Creating n) (room : n < maxPendingTasks) :
    s.stepC0.Creating n := by
  unfold Creating at creating
  cases hc0 : s.c0 with
  | createReserve id test =>
    rw [hc0] at creating
    have hfree : ¬ maxPendingTasks ≤ s.count := by rw [creating]; exact Nat.not_le.mpr room
    simp only [TaskSystem.stepC0, hc0, TaskSystem.reserve, if_neg hfree, Creating]
    rw [creating]
  | createInit slot id test writes =>
    rw [hc0] at creating
    simp only [TaskSystem.stepC0, hc0]
    cases writes with
    | nil => exact creating
    | cons write writes => exact creating
  | idle returned =>
    simp only [TaskSystem.stepC0, hc0]
    unfold Creating
    rw [hc0] at creating ⊢
    exact creating
  | queueCount task | queueStore task =>
    rw [hc0] at creating
    exact creating.elim

/-- When the call has ended it has returned a task. -/
theorem Creating.returned (creating : s.Creating n) {returned : Option ℕ}
    (between : s.c0 = .idle returned) : returned ≠ none ∧ s.count = n + 1 := by
  unfold Creating at creating
  rw [between] at creating
  cases returned with
  | none => exact creating.elim
  | some task => exact ⟨Option.some_ne_none task, creating⟩

/-- A task was created for each of the first `n` rows, and assigned to a tile, in their
order. -/
structure Rows (s : TaskSystem) (n : ℕ) : Prop where
  created : s.history.created.length = n
  chosen : s.history.chosen.map Prod.fst = s.history.created.map Creation.task

/-- Since the last reset the tiles were chosen in the round, from `start` on. -/
structure RoundInv (s : TaskSystem) (start : ℕ) : Prop where
  valid : 1 ≤ start ∧ start < s.nodeCount
  chosen : ChoosesFrom 1 s.nodeCount start s.nextTile (s.history.chosen.map Prod.snd)

/-- How far C0 is with its tasks: the parallel test has two of them, and then the storage has
two slots for each row of a table of `n`. -/
def RowsInv (s : TaskSystem) (n : ℕ) : HalPhase → Prop
  | .createA => s.Between ∧ s.count = 0 ∧ s.history.chosen = []
  | .createB => s.Creating 0 ∧ s.history.chosen = []
  | .queueA task1 => task1 ≠ none ∧ s.Creating 1 ∧ s.history.chosen = []
  | .queueB _ => s.history.chosen.length = 1
  | .waitA _ | .waitB _ | .resetStorage => s.history.chosen.length = 2
  | .resetCounters => s.Between ∧ s.count = 0 ∧ s.history.chosen = []
  | .create i => s.count + s.c0.adds ≤ 2 * i ∧ s.Rows i
  | .queue i =>
    match s.c0 with
    | .createReserve _ _ => s.count ≤ 2 * i ∧ s.Rows i
    | .createInit _ _ _ _ => s.count ≤ 2 * i + 1 ∧ s.Rows i
    | .idle (some slot) => s.count ≤ 2 * i + 1 ∧ s.history.created.length = i + 1 ∧
        (s.storage slot).taskId :: s.history.chosen.map Prod.fst =
          s.history.created.map Creation.task
    | .idle none | .queueCount _ | .queueStore _ => False
  | .wait | .finished => s.Rows n

/-- Whatever leaves C0's call alone, and what it knows of the tasks. -/
theorem RowsInv.frame (inv : s.RowsInv n phase) (c0 : s'.c0 = s.c0) (count : s'.count = s.count)
    (created : s'.history.created = s.history.created)
    (chosen : s'.history.chosen = s.history.chosen)
    (taskId : ∀ slot, (s'.storage slot).taskId = (s.storage slot).taskId) :
    s'.RowsInv n phase := by
  have hrows (n : ℕ) (rows : s.Rows n) : s'.Rows n :=
    ⟨by rw [created]; exact rows.created, by rw [created, chosen]; exact rows.chosen⟩
  cases phase with
  | createA | resetCounters =>
    exact ⟨inv.1.congr c0, count.trans inv.2.1, chosen.trans inv.2.2⟩
  | createB => exact ⟨inv.1.congr c0 count, chosen.trans inv.2⟩
  | queueA task1 => exact ⟨inv.1, inv.2.1.congr c0 count, chosen.trans inv.2.2⟩
  | queueB task2 | waitA cycles | waitB cycles | resetStorage =>
    exact (congrArg List.length chosen).trans inv
  | create i => exact ⟨by rw [count, c0]; exact inv.1, hrows i inv.2⟩
  | queue i =>
    unfold RowsInv at inv ⊢
    rw [c0, count, created, chosen]
    cases hc0 : s.c0 with
    | createReserve id test | createInit slot id test writes =>
      rw [hc0] at inv
      exact ⟨inv.1, hrows i inv.2⟩
    | idle returned =>
      rw [hc0] at inv
      cases returned with
      | none => exact inv.elim
      | some slot =>
        refine ⟨inv.1, inv.2.1, ?_⟩
        rw [taskId slot]
        exact inv.2.2
    | queueCount task | queueStore task =>
      rw [hc0] at inv
      exact inv.elim
  | wait | finished => exact hrows n inv

theorem RowsInv.stepTile (inv : s.RowsInv n phase) (h : s.DispatchInv) :
    (s.stepTile tile value).RowsInv n phase := by
  obtain ⟨pc, m⟩ := (stepTile_cases h tile value).exists_move
  exact inv.frame (stepTile_leaves ..).c0 (stepTile_keeps ..).count m.created
    (stepTile_leaves ..).chosen m.taskId

theorem beginCreate_chosen (s : TaskSystem) (test : HalTest) :
    (s.beginCreate test).history.chosen = s.history.chosen := by
  unfold TaskSystem.beginCreate
  split_ifs <;> rfl

/-- In a call C0 chooses no tile. -/
theorem stepC0_chosen (s : TaskSystem) : s.stepC0.history.chosen = s.history.chosen := by
  cases hc0 : s.c0 with
  | createReserve id test =>
    simp only [TaskSystem.stepC0, hc0, TaskSystem.reserve]
    split_ifs <;> rfl
  | createInit slot id test writes =>
    simp only [TaskSystem.stepC0, hc0]
    cases writes <;> rfl
  | queueStore task =>
    simp only [TaskSystem.stepC0, hc0, TaskSystem.store]
    split_ifs <;> rfl
  | idle returned | queueCount task => simp only [TaskSystem.stepC0, hc0]

/-- A call that creates no task takes at most the slot it is to take. -/
theorem stepC0_of_not_creating (queues : s.c0.creating = none) :
    s.stepC0.history.created = s.history.created ∧
      s.stepC0.count + s.stepC0.c0.adds ≤ s.count + s.c0.adds := by
  cases hc0 : s.c0 with
  | idle returned | queueCount task => refine ⟨?_, ?_⟩ <;> simp [stepC0, hc0, C0Call.adds]
  | queueStore task =>
    simp only [stepC0, hc0, TaskSystem.store]
    split_ifs
    · exact ⟨rfl, le_rfl⟩
    · exact ⟨rfl, Nat.le_succ _⟩
  | createReserve id test | createInit slot id test writes =>
    rw [hc0] at queues
    exact absurd queues (Option.some_ne_none test)

theorem Rows.stepC0 (rows : s.Rows n) (queues : s.c0.creating = none) : s.stepC0.Rows n := by
  have hcreated := (stepC0_of_not_creating queues).1
  exact ⟨by rw [hcreated]; exact rows.created,
    by rw [hcreated, stepC0_chosen]; exact rows.chosen⟩

/-- C0 in the creation of the task for row `i`. -/
theorem RowsInv.createStep {i : ℕ} (inv : s.RowsInv n (.queue i)) (h : s.DispatchInv)
    (busy : ∀ returned, s.c0 ≠ .idle returned) (room : 2 * i < maxPendingTasks) :
    s.stepC0.RowsInv n (.queue i) := by
  have hcall := h.call
  unfold RowsInv at inv
  cases hc0 : s.c0 with
  | idle returned => exact absurd hc0 (busy returned)
  | createReserve id test =>
    rw [hc0] at inv
    have hfree : ¬ maxPendingTasks ≤ s.count := by omega
    simp only [TaskSystem.stepC0, hc0, TaskSystem.reserve, if_neg hfree]
    exact ⟨Nat.succ_le_succ inv.1, inv.2.created, inv.2.chosen⟩
  | createInit slot id test writes =>
    rw [hc0] at inv hcall
    simp only [TaskSystem.stepC0, hc0]
    cases writes with
    | nil =>
      obtain ⟨-, -, -, -, -, -, hinit, -⟩ := hcall
      have htask : (s.storage slot).taskId = id := congrArg Task.taskId hinit
      exact ⟨inv.1, congrArg Nat.succ inv.2.created, congrArg₂ List.cons htask inv.2.chosen⟩
    | cons write writes => exact ⟨inv.1, inv.2.created, inv.2.chosen⟩
  | queueCount task | queueStore task =>
    rw [hc0] at inv
    exact inv.elim

/-! ### The round robin -/

variable {start : ℕ}

/-- The tiles of the round robin have threads. -/
theorem RoundInv.mem (inv : s.RoundInv start) :
    (1 ≤ s.nextTile ∧ s.nextTile < s.nodeCount) ∧
      ∀ p ∈ s.history.chosen, 1 ≤ p.2 ∧ p.2 < s.nodeCount := by
  obtain ⟨hnext, hchosen⟩ := inv.chosen.mem inv.valid.1 inv.valid.2
  exact ⟨hnext, fun p hp => hchosen p.2 (List.mem_map_of_mem hp)⟩

theorem RoundInv.congr (inv : s.RoundInv start) (next : s'.nextTile = s.nextTile)
    (nodes : s'.nodeCount = s.nodeCount) (chosen : s'.history.chosen = s.history.chosen) :
    s'.RoundInv start where
  valid := by
    rw [nodes]
    exact inv.valid
  chosen := by
    rw [next, nodes, chosen]
    exact inv.chosen

theorem RoundInv.stepTile (inv : s.RoundInv start) : (s.stepTile tile value).RoundInv start :=
  inv.congr (stepTile_keeps ..).nextTile (stepTile_keeps ..).nodeCount (stepTile_leaves ..).chosen

theorem RoundInv.beginCreate (inv : s.RoundInv start) (test : HalTest) :
    (s.beginCreate test).RoundInv start := by
  unfold TaskSystem.beginCreate
  split_ifs <;> exact inv.congr rfl rfl rfl

theorem RoundInv.beginQueue (inv : s.RoundInv start) (task : ℕ) :
    (s.beginQueue task).RoundInv start := ⟨inv.valid, inv.chosen.choose⟩

theorem RoundInv.stepC0 (inv : s.RoundInv start) : s.stepC0.RoundInv start :=
  inv.congr s.stepC0_keeps.nextTile s.stepC0_keeps.nodeCount s.stepC0_chosen

end TaskSystem

/-- The tile at which the round begins: in the batch the parallel test has had its two turns. -/
def HalPhase.roundStart (nodes : ℕ) : HalPhase → ℕ
  | createA | createB | queueA _ | queueB _ | waitA _ | waitB _ | resetStorage => 1
  | resetCounters | create _ | queue _ | wait | finished => (nextInRound 1 nodes)^[2] 1

namespace HalRun

open TaskSystem

variable {tests : HalTable} {r : HalRun} {returned : Option ℕ}

theorem lt_of_batchTests {i : ℕ} {test : HalTest} (row : (batchTests tests)[i]? = some test) :
    i < tests.length := by
  have hlt := (List.getElem?_eq_some_iff.mp row).1
  rwa [batchTests, List.length_mapIdx] at hlt

/-- No task exists, and no tile has one. -/
structure Untouched (r : HalRun) : Prop where
  phase : r.phase = .createA
  between : r.sys.c0 = .idle none
  count : r.sys.count = 0
  polls : ∀ tile, (r.sys.tiles tile).pc = .poll

theorem Untouched.start : Untouched {} := ⟨rfl, rfl, rfl, fun _ => rfl⟩

/-- A tile that polls an empty storage polls again. -/
theorem Untouched.stepTile (untouched : Untouched r) (id : ℕ) (value : ℤ) :
    Untouched (r.step tests (.tile id value)) := by
  simp only [HalRun.step, TaskSystem.step]
  split_ifs with hid
  · have hpoll := untouched.polls id
    have hstep : r.sys.stepTile id value =
        r.sys.setTile id { r.sys.tiles id with idle := true } := by
      simp only [TaskSystem.stepTile, hpoll, getNextTask, untouched.count, List.range_zero,
        List.find?_nil]
    rw [hstep]
    refine ⟨untouched.phase, untouched.between, untouched.count, fun tile => ?_⟩
    change (Function.update r.sys.tiles id _ tile).pc = .poll
    by_cases htile : tile = id
    · rw [htile, Function.update_self]
      exact hpoll
    · rw [Function.update_of_ne htile]
      exact untouched.polls tile
  · exact untouched

/-- Between calls C0 chooses the next tile of the round, or none; with the storage the choices
are forgotten. -/
theorem roundInv_stepIdle (inv : r.sys.RoundInv (r.phase.roundStart r.sys.nodeCount))
    (rows : r.sys.RowsInv tests.length r.phase) (between : r.sys.c0 = .idle returned) :
    (r.stepIdle tests returned).sys.RoundInv
      ((r.stepIdle tests returned).phase.roundStart r.sys.nodeCount) := by
  cases hphase : r.phase with
  | createA | createB =>
    rw [hphase] at inv
    simp only [HalRun.stepIdle, hphase]
    exact inv.beginCreate _
  | queueA task1 =>
    rw [hphase] at inv
    simp only [HalRun.stepIdle, hphase]
    split
    · exact inv.beginQueue _
    · exact inv
  | queueB task2 =>
    rw [hphase] at inv
    simp only [HalRun.stepIdle, hphase]
    exact inv.beginQueue _
  | waitA cycles | waitB cycles =>
    rw [hphase] at inv
    simp only [HalRun.stepIdle, hphase, HalRun.waitCycle]
    split_ifs <;> exact inv
  | resetStorage =>
    rw [hphase] at inv rows
    have hnext := inv.chosen.next
    have hvalid := inv.mem.1
    rw [List.length_map, show r.sys.history.chosen.length = 2 from rows] at hnext
    simp only [HalRun.stepIdle, hphase, TaskSystem.step, between]
    refine ⟨hnext ▸ hvalid, ?_⟩
    change ChoosesFrom 1 r.sys.nodeCount ((nextInRound 1 r.sys.nodeCount)^[2] 1) r.sys.nextTile []
    rw [hnext]
    exact .none ..
  | resetCounters =>
    rw [hphase] at inv
    simp only [HalRun.stepIdle, hphase, TaskSystem.step, between]
    exact inv.congr rfl rfl rfl
  | create i =>
    rw [hphase] at inv
    simp only [HalRun.stepIdle, hphase]
    split
    · next row _ => exact inv.beginCreate (halTest i row)
    · exact inv
  | queue i =>
    rw [hphase] at inv
    simp only [HalRun.stepIdle, hphase]
    split
    · exact inv.beginQueue _
    · exact inv.congr rfl rfl rfl
  | wait =>
    rw [hphase] at inv
    simp only [HalRun.stepIdle, hphase]
    split_ifs
    · exact inv
    · rw [hphase]
      exact inv
  | finished =>
    rw [hphase] at inv
    simp only [HalRun.stepIdle, hphase]
    exact inv

/-- Between calls C0 goes on with its tasks. -/
theorem rowsInv_stepIdle (inv : RunInv tests r) (rows : r.sys.RowsInv tests.length r.phase)
    (between : r.sys.c0 = .idle returned) :
    (r.stepIdle tests returned).sys.RowsInv tests.length (r.stepIdle tests returned).phase := by
  have hphaseInv := inv.phase
  cases hphase : r.phase with
  | createA =>
    rw [hphase] at rows
    simp only [HalRun.stepIdle, hphase]
    exact ⟨creating_beginCreate rows.2.1 (by decide), (beginCreate_chosen _ _).trans rows.2.2⟩
  | createB =>
    rw [hphase] at rows
    obtain ⟨hreturned, hcount⟩ := rows.1.returned between
    simp only [HalRun.stepIdle, hphase]
    exact ⟨hreturned, creating_beginCreate hcount (by decide),
      (beginCreate_chosen _ _).trans rows.2⟩
  | queueA task1 =>
    rw [hphase] at rows
    obtain ⟨task1, rfl⟩ := Option.ne_none_iff_exists'.mp rows.1
    obtain ⟨task2, rfl⟩ := Option.ne_none_iff_exists'.mp (rows.2.1.returned between).1
    simp only [HalRun.stepIdle, hphase]
    exact congrArg (fun chosen => List.length (_ :: chosen)) rows.2.2
  | queueB task2 =>
    rw [hphase] at rows
    simp only [HalRun.stepIdle, hphase]
    exact congrArg Nat.succ rows
  | waitA cycles | waitB cycles =>
    rw [hphase] at rows
    simp only [HalRun.stepIdle, hphase, HalRun.waitCycle]
    split_ifs <;> exact rows
  | resetStorage =>
    simp only [HalRun.stepIdle, hphase, TaskSystem.step, between]
    exact ⟨⟨returned, rfl⟩, rfl, rfl⟩
  | resetCounters =>
    rw [hphase] at rows hphaseInv
    simp only [HalRun.stepIdle, hphase, TaskSystem.step, between]
    have hcreated : r.sys.history.created = [] := hphaseInv.2
    obtain ⟨-, hcount, hchosen⟩ := rows
    refine ⟨Nat.le_of_eq hcount, congrArg List.length hcreated, ?_⟩
    change r.sys.history.chosen.map Prod.fst = r.sys.history.created.map Creation.task
    rw [hchosen, hcreated]
    rfl
  | create i =>
    rw [hphase] at rows hphaseInv
    simp only [HalRun.stepIdle, hphase]
    cases hrow : tests[i]? with
    | none =>
      -- no more rows than there are tasks
      have hle : tests.length ≤ i := List.getElem?_eq_none_iff.mp hrow
      have hlength : i ≤ tests.length := rows.2.created ▸ hphaseInv.2.length_le
      exact Nat.le_antisymm hlength hle ▸ rows.2
    | some row =>
      have hcount : r.sys.count ≤ 2 * i := Nat.le_of_add_right_le rows.1
      simp only [TaskSystem.beginCreate, if_pos (halTest_nonNull i row)]
      exact ⟨hcount, rows.2.created, rows.2.chosen⟩
  | queue i =>
    rw [hphase] at rows
    simp only [HalRun.stepIdle, hphase]
    unfold RowsInv at rows
    rw [between] at rows
    cases returned with
    | none => exact rows.elim
    | some slot =>
      obtain ⟨hcount, hcreated, hchosen⟩ := rows
      exact ⟨Nat.succ_le_succ hcount, hcreated, hchosen⟩
  | wait =>
    rw [hphase] at rows
    simp only [HalRun.stepIdle, hphase]
    split_ifs
    · exact rows
    · rw [hphase]
      exact rows
  | finished =>
    rw [hphase] at rows
    simp only [HalRun.stepIdle, hphase]
    exact rows

/-- In a call C0 goes on with its task. -/
theorem rowsInv_stepC0 (inv : RunInv tests r) (rows : r.sys.RowsInv tests.length r.phase)
    (fits : 2 * tests.length ≤ maxPendingTasks)
    (busy : ∀ returned, r.sys.c0 ≠ .idle returned) :
    r.sys.stepC0.RowsInv tests.length r.phase := by
  have hphaseInv := inv.phase
  have hchosen := r.sys.stepC0_chosen
  cases hphase : r.phase with
  | createA | resetCounters =>
    rw [hphase] at rows
    obtain ⟨returned, hidle⟩ := rows.1
    exact absurd hidle (busy returned)
  | createB =>
    rw [hphase] at rows
    exact ⟨rows.1.stepC0 (by decide), hchosen.trans rows.2⟩
  | queueA task1 =>
    rw [hphase] at rows
    exact ⟨rows.1, rows.2.1.stepC0 (by decide), hchosen.trans rows.2.2⟩
  | queueB task2 | waitA cycles | waitB cycles | resetStorage =>
    rw [hphase] at rows
    exact (congrArg List.length hchosen).trans rows
  | create i =>
    rw [hphase] at rows hphaseInv
    have hadds := (stepC0_of_not_creating hphaseInv.1).2
    exact ⟨hadds.trans rows.1, rows.2.stepC0 hphaseInv.1⟩
  | queue i =>
    rw [hphase] at rows hphaseInv
    obtain ⟨test, hrow, -⟩ := hphaseInv
    have hi := lt_of_batchTests hrow
    exact rows.createStep inv.dispatch busy (by omega)
  | wait | finished =>
    rw [hphase] at rows hphaseInv
    exact Rows.stepC0 rows hphaseInv.1

/-- C0 leaves the tiles alone. -/
theorem stepIdle_tiles (tests : HalTable) (between : r.sys.c0 = .idle returned) :
    (r.stepIdle tests returned).sys.tiles = r.sys.tiles ∧
      (r.stepIdle tests returned).sys.nodeCount = r.sys.nodeCount := by
  have hcreate (test : HalTest) : (r.sys.beginCreate test).tiles = r.sys.tiles ∧
      (r.sys.beginCreate test).nodeCount = r.sys.nodeCount :=
    ⟨(c0Frame_beginCreate r.sys test).tiles, (c0Frame_beginCreate r.sys test).nodeCount⟩
  cases hphase : r.phase with
  | createA | createB =>
    simp only [HalRun.stepIdle, hphase]
    exact hcreate _
  | queueA task1 =>
    simp only [HalRun.stepIdle, hphase]
    split <;> exact ⟨rfl, rfl⟩
  | waitA cycles | waitB cycles | wait =>
    simp only [HalRun.stepIdle, hphase]
    split_ifs <;> exact ⟨rfl, rfl⟩
  | resetStorage | resetCounters =>
    simp only [HalRun.stepIdle, hphase, TaskSystem.step, between, and_self]
  | create i =>
    simp only [HalRun.stepIdle, hphase]
    split
    · next row _ => exact hcreate (halTest i row)
    · exact ⟨rfl, rfl⟩
  | queue i =>
    simp only [HalRun.stepIdle, hphase]
    split <;> exact ⟨rfl, rfl⟩
  | queueB task2 =>
    simp only [HalRun.stepIdle, hphase]
    exact ⟨rfl, rfl⟩
  | finished => simp only [HalRun.stepIdle, hphase, and_self]

/-- In a call or between calls. -/
theorem stepC0_tiles (r : HalRun) : (r.stepC0 tests).sys.tiles = r.sys.tiles ∧
    (r.stepC0 tests).sys.nodeCount = r.sys.nodeCount := by
  unfold HalRun.stepC0
  split
  · next returned between => exact stepIdle_tiles tests between
  · exact ⟨r.sys.stepC0_keeps.tiles, r.sys.stepC0_keeps.nodeCount⟩

/-- What else holds in the run: how far C0 is with its rows, and the round robin. -/
structure ProgressInv (tests : HalTable) (r : HalRun) : Prop extends RunInv tests r where
  rows : r.sys.RowsInv tests.length r.phase
  round : r.sys.RoundInv (r.phase.roundStart r.sys.nodeCount)
  /-- Tile 0 is C0. -/
  master : (r.sys.tiles 0).pc = .poll

namespace ProgressInv

theorem start (tests : HalTable) : ProgressInv tests {} where
  toRunInv := .start tests
  rows := ⟨⟨none, rfl⟩, rfl, rfl⟩
  round := ⟨by decide, .none ..⟩
  master := rfl

theorem stepTile (inv : ProgressInv tests r) (id : ℕ) (value : ℤ) :
    ProgressInv tests (r.step tests (.tile id value)) := by
  have hrun := inv.toRunInv.stepTile id value
  simp only [HalRun.step, TaskSystem.step] at hrun ⊢
  split_ifs at hrun ⊢ with hid
  · obtain ⟨pc, m⟩ := (stepTile_cases inv.dispatch id value).exists_move
    refine ⟨hrun, inv.rows.stepTile inv.dispatch, ?_, ?_⟩
    · change (r.sys.stepTile id value).RoundInv
        (r.phase.roundStart (r.sys.stepTile id value).nodeCount)
      rw [m.nodeCount]
      exact inv.round.stepTile
    change ((r.sys.stepTile id value).tiles 0).pc = .poll
    rw [m.others 0 (by omega)]
    exact inv.master
  · exact inv

theorem stepC0 (inv : ProgressInv tests r) (fits : 2 * tests.length ≤ maxPendingTasks)
    (quiet : r.Quiet) : ProgressInv tests (r.stepC0 tests) := by
  have hrun := inv.toRunInv.stepC0 quiet
  unfold HalRun.stepC0 at hrun ⊢
  split at hrun
  · next returned between =>
    obtain ⟨htiles, hnodes⟩ := stepIdle_tiles tests between
    refine ⟨hrun, rowsInv_stepIdle inv.toRunInv inv.rows between, ?_, ?_⟩
    · rw [hnodes]
      exact roundInv_stepIdle inv.round inv.rows between
    · rw [htiles]
      exact inv.master
  · next busy =>
    refine ⟨hrun, rowsInv_stepC0 inv.toRunInv inv.rows fits busy, ?_, ?_⟩
    · change r.sys.stepC0.RoundInv (r.phase.roundStart r.sys.stepC0.nodeCount)
      rw [r.sys.stepC0_keeps.nodeCount]
      exact inv.round.stepC0
    change (r.sys.stepC0.tiles 0).pc = .poll
    rw [r.sys.stepC0_keeps.tiles]
    exact inv.master

/-! ### The wait -/

/-- With no work left, all rows were counted. -/
theorem completed_of_drained (inv : ProgressInv tests r) (drained : r.sys.Drained)
    (waits : r.phase = .wait) : (tests.length : ℤ) ≤ r.sys.completedTasks := by
  have hphase := inv.phase
  have hrows := inv.rows
  rw [waits] at hphase hrows
  obtain ⟨-, b⟩ := hphase
  -- every task was handed out: none is left for the tile it was assigned to
  have hgiven : r.sys.history.created.map Creation.task ⊆
      r.sys.history.handedOut.map HandOut.task := by
    intro id hid
    obtain ⟨c, hc, rfl⟩ := List.mem_map.mp hid
    have hassigned : c.task ∈ r.sys.history.chosen.map Prod.fst := by
      rw [hrows.chosen]
      exact List.mem_map_of_mem hc
    obtain ⟨⟨id, tile⟩, hchosen, hpair⟩ := List.mem_map.mp hassigned
    obtain rfl : id = c.task := hpair
    by_contra hnot
    have hpending : r.sys.Pending c.task tile := by
      refine (inv.dispatch.handout.pending_iff _ _).mpr ⟨hchosen, ?_⟩
      rw [List.map_map]
      exact hnot
    obtain ⟨hpos, slot, heligible, -⟩ := hpending
    exact drained.empty tile hpos (inv.round.mem.2 _ hchosen).2 slot heligible
  have hlength := (List.subperm_of_subset inv.dispatch.created_once hgiven).length_le
  rw [List.length_map, List.length_map, hrows.created] at hlength
  have howed : ∑ tile ∈ Finset.range r.sys.nodeCount,
      ((r.sys.tiles tile).pc.owed.toNat : ℤ) = 0 :=
    Finset.sum_eq_zero fun tile htile => by
      rw [drained.polls tile (Finset.mem_range.mp htile)]
      rfl
  have hcounted := b.counted
  unfold Counted at hcounted
  omega

/-- When C0 has finished, the tiles are at rest. -/
theorem resting (inv : ProgressInv tests r) (some : tests ≠ []) (finished : r.phase = .finished) :
    r.sys.Resting := by
  have hphase := inv.phase
  rw [finished] at hphase
  obtain ⟨-, b, hempty | hwaited⟩ := hphase
  · exact absurd (List.length_eq_zero_iff.mp hempty) some
  obtain ⟨-, hgiven, hcounted⟩ := inv.all_counted b hwaited
  refine ⟨hcounted, fun tile hpos slot heligible => ?_⟩
  have hpending : r.sys.Pending (r.sys.storage slot).taskId tile := ⟨hpos, slot, heligible, rfl⟩
  -- a task that is left for a tile was created, and has not been handed out
  obtain ⟨c, hc, htask⟩ := List.mem_map.mp (inv.dispatch.chosen_created _
    (List.mem_map_of_mem (inv.dispatch.handout.mem_chosen hpending)))
  obtain ⟨given, hmem, hsame⟩ := hgiven c hc
  have hnot := inv.dispatch.handout.not_given hpending
  rw [List.map_map] at hnot
  exact hnot (List.mem_map.mpr ⟨given, hmem, hsame.trans htask⟩)

end ProgressInv

/-! ### How far C0 is -/

/-- C0's place in the run and in its call. -/
def c0Rank (tests : HalTable) (r : HalRun) : ℕ :=
  14 * r.phase.rank tests.length + r.sys.c0.rank

theorem rank_beginCreate (s : TaskSystem) (test : HalTest) : (s.beginCreate test).c0.rank ≤ 13 := by
  unfold TaskSystem.beginCreate
  split_ifs <;> simp [C0Call.rank]

/-- A call comes nearer to its return. -/
theorem rank_stepC0_call {s : TaskSystem} (busy : ∀ returned, s.c0 ≠ .idle returned) :
    s.stepC0.c0.rank < s.c0.rank := by
  cases hc0 : s.c0 with
  | idle returned => exact absurd hc0 (busy returned)
  | createReserve id test =>
    simp only [TaskSystem.stepC0, hc0, TaskSystem.reserve]
    split_ifs <;> simp [C0Call.rank, initWrites]
  | createInit slot id test writes =>
    simp only [TaskSystem.stepC0, hc0]
    cases writes <;> simp [C0Call.rank, initialise]
  | queueCount task =>
    simp only [TaskSystem.stepC0, hc0]
    simp [C0Call.rank]
  | queueStore task =>
    simp only [TaskSystem.stepC0, hc0, TaskSystem.store]
    split_ifs <;> simp [C0Call.rank, setSlot]

/-- Between calls C0 moves on, unless it waits for the counter. -/
theorem rank_stepIdle (inv : RunInv tests r) (between : r.sys.c0 = .idle returned)
    (moves : r.phase = .wait → (tests.length : ℤ) ≤ r.sys.completedTasks)
    (running : r.phase ≠ .finished) :
    (r.stepIdle tests returned).c0Rank tests < r.c0Rank tests := by
  have hidle : r.sys.c0.rank = 0 := by rw [between]; rfl
  have hlt {r' : HalRun} (hphase : r'.phase.rank tests.length < r.phase.rank tests.length)
      (hcall : r'.sys.c0.rank ≤ 13) : r'.c0Rank tests < r.c0Rank tests := by
    unfold c0Rank
    omega
  have hsame : r.sys.c0.rank ≤ 13 := hidle ▸ Nat.zero_le 13
  have hinv := inv.phase
  cases hphase : r.phase with
  | createA | createB =>
    simp only [HalRun.stepIdle, hphase]
    refine hlt ?_ (rank_beginCreate _ _)
    simp [hphase, HalPhase.rank]
  | queueA task1 =>
    simp only [HalRun.stepIdle, hphase]
    split
    · refine hlt ?_ (by simp [beginQueue, C0Call.rank])
      simp [hphase, HalPhase.rank]
    · refine hlt ?_ hsame
      simp [hphase, HalPhase.rank]
      omega
  | queueB task2 =>
    simp only [HalRun.stepIdle, hphase]
    refine hlt ?_ (by simp [beginQueue, C0Call.rank])
    simp [hphase, HalPhase.rank]
  | waitA cycles =>
    simp only [HalRun.stepIdle, hphase]
    split_ifs
    · refine hlt ?_ hsame
      simp only [HalRun.waitCycle, hphase]
      split_ifs <;> simp only [HalPhase.rank] <;> omega
    · refine hlt ?_ hsame
      simp [hphase, HalPhase.rank]
  | waitB cycles =>
    simp only [HalRun.stepIdle, hphase]
    split_ifs
    · refine hlt ?_ hsame
      simp only [HalRun.waitCycle, hphase]
      split_ifs <;> simp only [HalPhase.rank] <;> omega
    · refine hlt ?_ hsame
      simp only [hphase, HalPhase.rank]
      omega
  | resetStorage | resetCounters =>
    simp only [HalRun.stepIdle, hphase, TaskSystem.step, between]
    refine hlt ?_ (by simp [C0Call.rank])
    simp [hphase, HalPhase.rank]
  | create i =>
    simp only [HalRun.stepIdle, hphase]
    split
    · refine hlt ?_ (rank_beginCreate _ _)
      simp [hphase, HalPhase.rank]
    · refine hlt ?_ hsame
      simp [hphase, HalPhase.rank]
  | queue i =>
    rw [hphase] at hinv
    obtain ⟨test, hrow, -⟩ := hinv
    have hi : i < tests.length := lt_of_batchTests hrow
    simp only [HalRun.stepIdle, hphase]
    split
    · refine hlt ?_ (by simp [beginQueue, C0Call.rank])
      simp only [hphase, HalPhase.rank]
      omega
    · refine hlt ?_ (by simpa using hsame)
      simp only [hphase, HalPhase.rank]
      omega
  | wait =>
    simp only [HalRun.stepIdle, hphase, if_pos (Or.inr (moves hphase))]
    refine hlt ?_ hsame
    simp [hphase, HalPhase.rank]
  | finished => exact absurd hphase running

/-- Every step of C0 lowers its rank, unless it waits for the counter. -/
theorem rank_stepC0 (inv : RunInv tests r)
    (moves : r.phase = .wait → (tests.length : ℤ) ≤ r.sys.completedTasks)
    (running : r.phase ≠ .finished) : (r.stepC0 tests).c0Rank tests < r.c0Rank tests := by
  unfold HalRun.stepC0
  split
  · next returned between => exact rank_stepIdle inv between moves running
  · next busy => exact Nat.add_lt_add_left (rank_stepC0_call busy) _

end HalRun

end MeshNoc
