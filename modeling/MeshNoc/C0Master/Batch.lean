import MeshNoc.C0Master.HalRun

/-!
# Isolation of the batches

The parallel test leaves the storage to the next batch as soon as its two results are
there, or its timeout has passed; its tiles may still have to set the completed flags and
to count the tasks. When they have done so by the resets, the invariants of dispatch and
execution hold afresh for the new batch: the storage is empty, no tile works on a slot, and
the counter counts hand-outs of the batch alone.

## Main results

* `batchIsolated_of_resetsQuiet` — in every run whose resets are quiet, the batches are
  isolated and the wait is sound
* `not_batchIsolated` — a run of the repository's table in which a tile completes a task
  of the new batch that no tile has executed
-/

namespace MeshNoc

open Lib

/-- The tasks of the batch store their results in different places. -/
theorem batchTests_nodup (tests : HalTable) :
    ((batchTests tests).map HalTest.resultPtr).Nodup := by
  have hptrs : (batchTests tests).map HalTest.resultPtr =
      (List.range tests.length).map fun i => some (.halTest i) := by
    apply List.ext_getElem
    · simp [batchTests]
    · simp [batchTests, halTest]
  rw [hptrs]
  exact List.nodup_range.map fun i j h => ResultPtr.halTest.inj (Option.some.inj h)

theorem batchTests_getElem? {tests : HalTable} {i : ℕ} {row : TestFunc × String}
    (h : tests[i]? = some row) : (batchTests tests)[i]? = some (halTest i row) := by
  rw [batchTests, List.getElem?_mapIdx, h]
  rfl

theorem halTest_nonNull (i : ℕ) (row : TestFunc × String) : (halTest i row).NonNull :=
  ⟨Option.some_ne_none _, Option.some_ne_none _, Option.some_ne_none _⟩

/-- The task C0 is creating. -/
def C0Call.creating : C0Call → Option HalTest
  | .createReserve _ test | .createInit _ _ test _ => some test
  | .idle _ | .queueCount _ | .queueStore _ => none

namespace TaskSystem

variable {tests : HalTable} {s s' : TaskSystem} {made tile : ℕ}

/-- The invariant of the new batch, tasks for the first `made` rows of its table having
been created, or refused. -/
structure BatchInv (tests : HalTable) (s : TaskSystem) (made : ℕ) : Prop where
  created : (s.history.created.map Creation.test).reverse.Sublist ((batchTests tests).take made)
  results : s.ResultInv
  counted : s.Counted

namespace BatchInv

theorem created_all (b : BatchInv tests s made) :
    (s.history.created.map Creation.test).reverse.Sublist (batchTests tests) :=
  b.created.trans (List.take_sublist _ _)

theorem succ (b : BatchInv tests s made) : BatchInv tests s (made + 1) :=
  ⟨b.created.trans (List.take_prefix_take_left (Nat.le_succ made)).sublist, b.results, b.counted⟩

theorem all (b : BatchInv tests s made) : BatchInv tests s tests.length := by
  refine ⟨?_, b.results, b.counted⟩
  rw [List.take_of_length_le (by simp [batchTests])]
  exact b.created_all

theorem length_le (b : BatchInv tests s made) : s.history.created.length ≤ tests.length := by
  have h := b.created_all.length_le
  rwa [List.length_reverse, List.length_map, batchTests, List.length_mapIdx] at h

theorem distinctResults (b : BatchInv tests s made) : s.DistinctResults := by
  have hnodup : (s.history.created.map fun c => c.test.resultPtr).Nodup := by
    have h := (b.created_all.map HalTest.resultPtr).nodup (batchTests_nodup tests)
    rw [List.map_reverse, List.nodup_reverse, List.map_map] at h
    exact h
  intro c hc c' hc' ptr hptr hptr'
  exact List.inj_on_of_nodup_map hnodup hc hc' (hptr.trans hptr'.symm)

/-- No task has been created for the rows from `made` on. -/
theorem resultPtr_ne (b : BatchInv tests s made) :
    ∀ c ∈ s.history.created, c.test.resultPtr ≠ some (.halTest made) := by
  intro c hc hptr
  have hmem : c.test ∈ (batchTests tests).take made :=
    b.created.subset (List.mem_reverse.mpr (List.mem_map_of_mem hc))
  obtain ⟨i, hi, htest⟩ := List.mem_iff_getElem.mp hmem
  rw [List.length_take] at hi
  rw [← htest, List.getElem_take] at hptr
  simp only [batchTests, List.getElem_mapIdx, halTest] at hptr
  have heq := ResultPtr.halTest.inj (Option.some.inj hptr)
  omega

theorem c0_step (b : BatchInv tests s made) (e : s.ExecutionInv) (h : s.DispatchInv)
    (f : C0Frame s s') (created : s'.history.created = s.history.created) :
    BatchInv tests s' made :=
  ⟨created ▸ b.created, b.results.c0_step e h f, b.counted.c0_step f⟩

/-- The creation of the task for the next row. -/
theorem create (b : BatchInv tests s made) (e : s.ExecutionInv) (h : s.DispatchInv)
    (f : C0Frame s s') {c : Creation} (next : (batchTests tests)[made]? = some c.test)
    (created : s'.history.created = c :: s.history.created) : BatchInv tests s' (made + 1) := by
  refine ⟨?_, b.results.c0_step e h f, b.counted.c0_step f⟩
  rw [created, List.map_cons, List.reverse_cons, List.take_add_one, next]
  exact b.created.append (List.Sublist.refl _)

theorem stepTile (b : BatchInv tests s made) (e : s.ExecutionInv) (h : s.DispatchInv)
    (lt : tile < s.nodeCount) (value : ℤ) : BatchInv tests (s.stepTile tile value) made := by
  refine ⟨?_, b.results.stepTile e h b.distinctResults value, b.counted.stepTile h lt value⟩
  obtain ⟨pc, m⟩ := (stepTile_cases h tile value).exists_move
  rw [m.created]
  exact b.created

end BatchInv

/-! ### C0 in a call -/

/-- A step of C0's call: the call goes on, or ends without a task, or returns the task it
has created. -/
inductive CallStep (s s' : TaskSystem) : Prop
  | goes (created : s'.history.created = s.history.created) (handles : s'.handles = s.handles)
      (returned : ∀ task, s'.c0 ≠ .idle (some task))
      (creating : s'.c0.creating = s.c0.creating ∨ s'.c0 = .idle none)
  | returns (slot id : ℕ) (test : HalTest) (call : s.c0 = .createInit slot id test [])
      (returned : s'.c0 = .idle (some slot)) (handles : s'.handles = slot :: s.handles)
      (created : s'.history.created = ⟨id, test⟩ :: s.history.created)

theorem stepC0_cases (busy : ∀ returned, s.c0 ≠ .idle returned) : CallStep s s.stepC0 := by
  cases hc0 : s.c0 with
  | idle returned => exact absurd hc0 (busy returned)
  | createReserve id test =>
    simp only [stepC0, hc0, TaskSystem.reserve]
    split_ifs
    · exact .goes rfl rfl (by simp) (Or.inr rfl)
    · exact .goes rfl rfl (by simp) (Or.inl (by rw [hc0]; rfl))
  | createInit slot id test writes =>
    simp only [stepC0, hc0]
    cases writes with
    | nil => exact .returns slot id test hc0 rfl rfl rfl
    | cons write writes => exact .goes rfl rfl (by simp [initialise]) (Or.inl (by rw [hc0]; rfl))
  | queueCount task =>
    simp only [stepC0, hc0]
    exact .goes rfl rfl (by simp) (Or.inl (by rw [hc0]; rfl))
  | queueStore task =>
    simp only [stepC0, hc0, TaskSystem.store]
    split_ifs <;> exact .goes rfl rfl (by simp [setSlot]) (Or.inr rfl)

/-- What the last call returned is a task C0 has in hand. -/
def Returned (s : TaskSystem) : Prop := ∀ task, s.c0 = .idle (some task) → task ∈ s.handles

/-- What holds at each point of C0's run. -/
def PhaseInv (tests : HalTable) (s : TaskSystem) : HalPhase → Prop
  | .createA | .waitA _ | .waitB _ | .resetStorage => True
  | .createB => s.Returned
  | .queueA task1 => s.Returned ∧ ∀ task, task1 = some task →
      task ∈ s.handles ∧ s.c0 ≠ .idle (some task)
  | .queueB task2 => task2 ∈ s.handles
  | .resetCounters => s.c0.creating = none ∧ s.history.created = []
  | .create i => s.c0.creating = none ∧ BatchInv tests s i
  | .queue i => ∃ test, (batchTests tests)[i]? = some test ∧
      (s.c0.creating = some test ∧ BatchInv tests s i ∨
        s.c0 = .idle none ∧ BatchInv tests s i ∨
          ∃ slot ∈ s.handles, s.c0 = .idle (some slot) ∧ BatchInv tests s (i + 1))
  | .wait => s.c0.creating = none ∧ BatchInv tests s tests.length
  | .finished => s.c0.creating = none ∧ BatchInv tests s tests.length ∧
      (tests.length = 0 ∨ (tests.length : ℤ) ≤ s.completedTasks)

variable {phase : HalPhase}

/-- A step of a tile touches nothing of C0's, and keeps the invariant of the batch. -/
theorem PhaseInv.stepTile (p : PhaseInv tests s phase) (e : s.ExecutionInv) (h : s.DispatchInv)
    (lt : tile < s.nodeCount) (value : ℤ) : PhaseInv tests (s.stepTile tile value) phase := by
  obtain ⟨hc0, hhandles, -, -, hcompleted⟩ := stepTile_leaves s tile value
  obtain ⟨pc, m⟩ := (stepTile_cases h tile value).exists_move
  have hbatch : ∀ made, BatchInv tests s made → BatchInv tests (s.stepTile tile value) made :=
    fun made b => b.stepTile e h lt value
  cases phase with
  | createA | waitA cycles | waitB cycles | resetStorage => trivial
  | createB =>
    simp only [PhaseInv, Returned, hc0, hhandles]
    exact p
  | queueA task1 =>
    simp only [PhaseInv, Returned, hc0, hhandles]
    exact p
  | queueB task2 =>
    simp only [PhaseInv, hhandles]
    exact p
  | resetCounters =>
    simp only [PhaseInv, hc0, m.created]
    exact p
  | create i | wait =>
    simp only [PhaseInv, hc0]
    exact ⟨p.1, hbatch _ p.2⟩
  | queue i =>
    obtain ⟨test, htest, hstate⟩ := p
    simp only [PhaseInv, hc0, hhandles]
    refine ⟨test, htest, hstate.imp (And.imp_right (hbatch i))
      (Or.imp (And.imp_right (hbatch i)) ?_)⟩
    rintro ⟨slot, hslot, hreturned, b⟩
    exact ⟨slot, hslot, hreturned, hbatch _ b⟩
  | finished =>
    simp only [PhaseInv, hc0]
    exact ⟨p.1, hbatch _ p.2.1, p.2.2.imp_right fun hle => hle.trans hcompleted⟩

/-- The call has returned the task it has put into C0's hand. -/
theorem returned_of_cons {slot : ℕ} (returned : s'.c0 = .idle (some slot))
    (handles : s'.handles = slot :: s.handles) : s'.Returned := by
  intro task htask
  rw [returned] at htask
  obtain rfl := Option.some.inj (C0Call.idle.inj htask)
  rw [handles]
  exact List.mem_cons_self

/-- A step with which the call creates nothing. -/
theorem PhaseInv.goes (p : PhaseInv tests s phase) (e : s.ExecutionInv) (h : s.DispatchInv)
    (busy : ∀ returned, s.c0 ≠ .idle returned) (f : C0Frame s s')
    (created : s'.history.created = s.history.created) (handles : s'.handles = s.handles)
    (returned : ∀ task, s'.c0 ≠ .idle (some task))
    (creating : s'.c0.creating = s.c0.creating ∨ s'.c0 = .idle none) :
    PhaseInv tests s' phase := by
  -- nothing is created, so the batch is where it was
  have hbatch : ∀ made, BatchInv tests s made → BatchInv tests s' made :=
    fun made b => b.c0_step e h f created
  have hcreating : s.c0.creating = none → s'.c0.creating = none := by
    intro hnone
    rcases creating with hsame | hidle
    · rw [hsame, hnone]
    · rw [hidle]
      rfl
  cases phase with
  | createA | waitA cycles | waitB cycles | resetStorage => trivial
  | createB => exact fun task htask => absurd htask (returned task)
  | queueA task1 =>
    refine ⟨fun task htask => absurd htask (returned task), fun task htask => ?_⟩
    rw [handles]
    exact ⟨(p.2 task htask).1, returned task⟩
  | queueB task2 =>
    simp only [PhaseInv, handles]
    exact p
  | resetCounters => exact ⟨hcreating p.1, created.trans p.2⟩
  | create i | wait => exact ⟨hcreating p.1, hbatch _ p.2⟩
  | queue i =>
    obtain ⟨test, htest, ⟨hcall, b⟩ | ⟨hidle, -⟩ | ⟨slot, -, hidle, -⟩⟩ := p
    · refine ⟨test, htest, ?_⟩
      rcases creating with hsame | hidle
      · exact Or.inl ⟨hsame.trans hcall, hbatch i b⟩
      · exact Or.inr (Or.inl ⟨hidle, hbatch i b⟩)
    · exact absurd hidle (busy none)
    · exact absurd hidle (busy (some slot))
  | finished =>
    refine ⟨hcreating p.1, hbatch _ p.2.1, ?_⟩
    rw [f.completedTasks]
    exact p.2.2

/-- The step with which a creation returns its task. -/
theorem PhaseInv.returns (p : PhaseInv tests s phase) (e : s.ExecutionInv) (h : s.DispatchInv)
    (f : C0Frame s s') {slot id : ℕ} {test : HalTest} (call : s.c0 = .createInit slot id test [])
    (returned : s'.c0 = .idle (some slot)) (handles : s'.handles = slot :: s.handles)
    (created : s'.history.created = ⟨id, test⟩ :: s.history.created) :
    PhaseInv tests s' phase := by
  have hcreating : s.c0.creating = some test := by
    rw [call]
    rfl
  have hnone : s.c0.creating ≠ none := hcreating ▸ Option.some_ne_none test
  have hnew : slot ∉ s.handles := by
    have hcall := h.call
    rw [call] at hcall
    exact hcall.2.2.2.1
  cases phase with
  | createA | waitA cycles | waitB cycles | resetStorage => trivial
  | createB => exact returned_of_cons returned handles
  | queueA task1 =>
    refine ⟨returned_of_cons returned handles, fun task htask => ?_⟩
    -- the slot of the second task is not the first one's, which C0 has in hand
    obtain ⟨hmem, -⟩ := p.2 task htask
    rw [handles, returned]
    refine ⟨List.mem_cons_of_mem _ hmem, fun heq => hnew ?_⟩
    rw [Option.some.inj (C0Call.idle.inj heq)]
    exact hmem
  | queueB task2 =>
    simp only [PhaseInv, handles]
    exact List.mem_cons_of_mem _ p
  | resetCounters | create i | wait | finished => exact absurd p.1 hnone
  | queue i =>
    obtain ⟨test', htest, ⟨hcall, b⟩ | ⟨hidle, -⟩ | ⟨slot', -, hidle, -⟩⟩ := p
    · obtain rfl := Option.some.inj (hcreating.symm.trans hcall)
      refine ⟨test, htest, Or.inr (Or.inr ⟨slot, ?_, returned, b.create e h f htest created⟩)⟩
      rw [handles]
      exact List.mem_cons_self
    · exact C0Call.noConfusion (call.symm.trans hidle)
    · exact C0Call.noConfusion (call.symm.trans hidle)

/-- A step of C0's call keeps what holds at the point of its return. -/
theorem PhaseInv.stepC0 (p : PhaseInv tests s phase) (e : s.ExecutionInv) (h : s.DispatchInv)
    (busy : ∀ returned, s.c0 ≠ .idle returned) : PhaseInv tests s.stepC0 phase := by
  have f := h.c0Frame_stepC0
  cases stepC0_cases busy with
  | goes created handles returned creating =>
    exact p.goes e h busy f created handles returned creating
  | returns slot id test call returned handles created =>
    exact p.returns e h f call returned handles created

/-! ### C0 between calls -/

/-- With no tile at work, nothing of the batch before the reset is left. -/
theorem executionInv_resetStorage {returned : Option ℕ} (between : s.c0 = .idle returned)
    (quiet : ∀ tile, (s.tiles tile).pc.held = none) : (s.step .resetStorage).ExecutionInv := by
  have hfree : ∀ tile slot, (s.tiles tile).pc.held ≠ some slot := by
    intro tile slot hheld
    rw [quiet tile] at hheld
    exact nomatch hheld
  simp only [TaskSystem.step, between]
  exact
    { executed_given := fun _ hrun => absurd hrun List.not_mem_nil
      executed_once := List.nodup_nil
      waiting := fun tile slot hpc => absurd (TilePc.held_of_waiting hpc) (hfree tile slot)
      running := fun tile slot id hpc => by
        refine absurd ?_ (hfree tile slot)
        change (s.tiles tile).pc = _ at hpc
        rw [hpc]
        rfl
      storing := fun tile slot value hpc => by
        refine absurd ?_ (hfree tile slot)
        change (s.tiles tile).pc = _ at hpc
        rw [hpc]
        rfl
      ran := fun tile slot hpc => absurd (TilePc.held_of_ran hpc) (hfree tile slot)
      progress := fun _ hgiven => absurd hgiven List.not_mem_nil
      completed_executed := fun _ hc => absurd hc List.not_mem_nil }

/-- With no task left to be counted, the counter of the new batch starts right. -/
theorem batchInv_resetCounters (h : s.DispatchInv) {returned : Option ℕ}
    (between : s.c0 = .idle returned) (empty : s.history.created = [])
    (quiet : ∀ tile < s.nodeCount, (s.tiles tile).pc.owed = false) :
    BatchInv tests (s.step .resetCounters) 0 := by
  -- no task exists, so none was handed out since the storage was zeroed
  have hgiven : s.history.handedOut = [] := by
    refine List.eq_nil_iff_forall_not_mem.mpr fun given hmem => ?_
    have hcreated := h.mem_created hmem
    rw [empty] at hcreated
    exact List.not_mem_nil hcreated
  have howed : ∑ tile ∈ Finset.range s.nodeCount, ((s.tiles tile).pc.owed.toNat : ℤ) = 0 :=
    Finset.sum_eq_zero fun tile htile => by rw [quiet tile (Finset.mem_range.mp htile)]; rfl
  simp only [TaskSystem.step, between]
  refine ⟨?_, ?_, ?_⟩
  · rw [empty]
    exact List.nil_sublist _
  · intro run _ c hc
    rw [empty] at hc
    exact absurd hc List.not_mem_nil
  · change 0 + ∑ tile ∈ Finset.range s.nodeCount, ((s.tiles tile).pc.owed.toNat : ℤ) =
      (s.history.handedOut.length : ℤ)
    rw [howed, hgiven]
    rfl

/-- Zeroing the result of a row whose task could not be created. -/
theorem BatchInv.zeroResult (b : BatchInv tests s made) :
    BatchInv tests { s with results := Function.update s.results (.halTest made) 0 } made := by
  refine ⟨b.created, fun run hrun c hc hid ptr hptr => ?_, b.counted⟩
  have hne : ptr ≠ .halTest made := by
    rintro rfl
    exact b.resultPtr_ne c hc hptr
  have hkept : Function.update s.results (.halTest made) 0 ptr = s.results ptr :=
    Function.update_of_ne hne ..
  exact (b.results run hrun c hc hid ptr hptr).imp_left hkept.trans

/-- Only the tiles, the storage and the history matter. -/
theorem ExecutionInv.congr (e : s.ExecutionInv) (tiles : s'.tiles = s.tiles)
    (storage : s'.storage = s.storage) (history : s'.history = s.history) :
    s'.ExecutionInv where
  executed_given := history ▸ e.executed_given
  executed_once := history ▸ e.executed_once
  waiting := by
    rw [tiles, storage, history]
    exact e.waiting
  running := by
    rw [tiles, storage]
    exact e.running
  storing := by
    rw [tiles, storage, history]
    exact e.storing
  ran := by
    rw [tiles, storage, history]
    exact e.ran
  progress := by
    rw [tiles, storage, history]
    exact e.progress
  completed_executed := history ▸ e.completed_executed

theorem DispatchInv.setResults (h : s.DispatchInv) (results : ResultPtr → ℤ) :
    DispatchInv { s with results := results } :=
  Frame.dispatchInv (s := s) ⟨rfl, le_rfl, rfl, rfl, rfl, rfl, rfl, rfl, fun _ => Or.inl rfl,
    fun _ _ hheld => hheld⟩ h h.call rfl

theorem beginCreate_created (s : TaskSystem) (test : HalTest) :
    (s.beginCreate test).history.created = s.history.created := by
  unfold beginCreate
  split_ifs <;> rfl

theorem beginCreate_handles (s : TaskSystem) (test : HalTest) :
    (s.beginCreate test).handles = s.handles := by
  unfold beginCreate
  split_ifs <;> rfl

theorem beginCreate_c0_ne (s : TaskSystem) (test : HalTest) (task : ℕ) :
    (s.beginCreate test).c0 ≠ .idle (some task) := by
  unfold beginCreate
  split_ifs <;> simp

end TaskSystem

namespace HalRun

open TaskSystem

variable {tests : HalTable} {r : HalRun} {returned : Option ℕ}

/-- The invariant of the distributed run. -/
structure RunInv (tests : HalTable) (r : HalRun) : Prop where
  dispatch : r.sys.DispatchInv
  execution : r.sys.ExecutionInv
  /-- There are no tiles from `nodeCount` on. -/
  outside : ∀ tile, r.sys.nodeCount ≤ tile → (r.sys.tiles tile).pc = .poll
  phase : PhaseInv tests r.sys r.phase

namespace RunInv

/-- C0 moves on with what leaves the tiles alone. -/
theorem c0_step (inv : RunInv tests r) {s' : TaskSystem} {phase : HalPhase}
    (f : C0Frame r.sys s') (dispatch : s'.DispatchInv) (holds : PhaseInv tests s' phase) :
    RunInv tests ⟨s', phase⟩ where
  dispatch := dispatch
  execution := inv.execution.c0_step inv.dispatch f
  outside tile htile := by
    change (s'.tiles tile).pc = _
    rw [f.tiles]
    exact inv.outside tile (f.nodeCount ▸ htile)
  phase := holds

theorem setPhase (inv : RunInv tests r) {phase : HalPhase} (holds : PhaseInv tests r.sys phase) :
    RunInv tests { r with phase := phase } :=
  inv.c0_step (c0Frame_refl r.sys) inv.dispatch holds

theorem beginCreate (inv : RunInv tests r) (between : r.sys.c0 = .idle returned)
    (test : HalTest) {phase : HalPhase}
    (holds : PhaseInv tests (r.sys.beginCreate test) phase) :
    RunInv tests ⟨r.sys.beginCreate test, phase⟩ :=
  inv.c0_step (c0Frame_beginCreate r.sys test) (inv.dispatch.beginCreate between test) holds

theorem beginQueue (inv : RunInv tests r) (between : r.sys.c0 = .idle returned) {task : ℕ}
    (mem : task ∈ r.sys.handles) {phase : HalPhase}
    (holds : PhaseInv tests (r.sys.beginQueue task) phase) :
    RunInv tests ⟨r.sys.beginQueue task, phase⟩ :=
  inv.c0_step (c0Frame_beginQueue r.sys task) (inv.dispatch.beginQueue between mem) holds

/-- A tile takes its next step. -/
theorem stepTile (inv : RunInv tests r) (id : ℕ) (value : ℤ) :
    RunInv tests (r.step tests (.tile id value)) := by
  simp only [HalRun.step, TaskSystem.step]
  split_ifs with hid
  · obtain ⟨pc, m⟩ := (stepTile_cases inv.dispatch id value).exists_move
    refine ⟨inv.dispatch.stepTile hid.1 value, inv.execution.stepTile inv.dispatch hid.1 value,
      fun tile htile => ?_, inv.phase.stepTile inv.execution inv.dispatch hid.2 value⟩
    rw [m.nodeCount] at htile
    rw [m.others tile (by omega)]
    exact inv.outside tile htile
  · exact inv

/-- The parallel test goes on waiting, or gives up. -/
theorem waitCycle (inv : RunInv tests r) (cycles : ℕ) : RunInv tests (r.waitCycle cycles) := by
  refine inv.setPhase ?_
  split_ifs <;> trivial

/-- Zeroing the storage, with no tile in the middle of a task. -/
theorem resetStorage (inv : RunInv tests r) (between : r.sys.c0 = .idle returned)
    (quiet : ∀ tile < r.sys.nodeCount, (r.sys.tiles tile).pc.held = none) :
    RunInv tests ⟨r.sys.step .resetStorage, .resetCounters⟩ := by
  -- the tiles are quiet, and beyond them there are no threads
  have hfree : ∀ tile, (r.sys.tiles tile).pc.held = none := by
    intro tile
    rcases Nat.lt_or_ge tile r.sys.nodeCount with hlt | hge
    · exact quiet tile hlt
    · rw [inv.outside tile hge]
      rfl
  have start := batchStart_resetStorage between inv.dispatch.id_pos inv.dispatch.tile_pos hfree
  refine ⟨start.dispatchInv, executionInv_resetStorage between hfree, ?_, ?_⟩
  · simp only [TaskSystem.step, between]
    exact inv.outside
  · simp only [TaskSystem.step, between]
    exact ⟨rfl, rfl⟩

/-- The call for test `i` has returned: without a task, or with one that is then queued. -/
theorem queueTest (inv : RunInv tests r) (between : r.sys.c0 = .idle returned) {i : ℕ}
    (hphase : r.phase = .queue i) : RunInv tests (r.stepIdle tests returned) := by
  have holds := inv.phase
  rw [hphase] at holds
  obtain ⟨test, -, ⟨hcall, -⟩ | ⟨hidle, b⟩ | ⟨slot, hslot, hidle, b⟩⟩ := holds
  · rw [between] at hcall
    exact absurd hcall.symm (Option.some_ne_none test)
  · rw [between] at hidle
    obtain rfl := C0Call.idle.inj hidle
    simp only [HalRun.stepIdle, hphase]
    refine ⟨inv.dispatch.setResults _, inv.execution.congr rfl rfl rfl, inv.outside, ?_,
      b.zeroResult.succ⟩
    change r.sys.c0.creating = none
    rw [between]
    rfl
  · rw [between] at hidle
    obtain rfl := C0Call.idle.inj hidle
    simp only [HalRun.stepIdle, hphase]
    refine inv.beginQueue between hslot ⟨rfl, ?_⟩
    exact b.c0_step inv.execution inv.dispatch (c0Frame_beginQueue _ _) rfl

/-- Both tasks of the parallel test are in hand; the first is queued. -/
theorem queueFirst (inv : RunInv tests r) (between : r.sys.c0 = .idle returned)
    {task1 : Option ℕ} (hphase : r.phase = .queueA task1) :
    RunInv tests (r.stepIdle tests returned) := by
  have holds := inv.phase
  rw [hphase] at holds
  obtain ⟨hreturned, hfirst⟩ := holds
  simp only [HalRun.stepIdle, hphase]
  cases htask1 : task1 with
  | none => exact inv.setPhase trivial
  | some task1' =>
    cases returned with
    | none => exact inv.setPhase trivial
    | some task2 =>
      obtain ⟨hmem, hne⟩ := hfirst task1' htask1
      refine inv.beginQueue between hmem ?_
      refine (List.mem_erase_of_ne fun heq => hne ?_).mpr (hreturned task2 between)
      rw [between, heq]

/-- Zeroing the counters starts the batch. -/
theorem resetCounters (inv : RunInv tests r) (between : r.sys.c0 = .idle returned)
    (quiet : r.Quiet) (hphase : r.phase = .resetCounters) :
    RunInv tests (r.stepIdle tests returned) := by
  have holds := inv.phase
  rw [hphase] at holds
  have hbatch : BatchInv tests _ 0 :=
    batchInv_resetCounters inv.dispatch between holds.2 (quiet.2 hphase)
  have hdispatch : (r.sys.step .resetCounters).DispatchInv := inv.dispatch.step (by simp) trivial
  simp only [HalRun.stepIdle, hphase]
  simp only [TaskSystem.step, between] at hbatch hdispatch ⊢
  exact ⟨hdispatch, inv.execution.congr rfl rfl rfl, inv.outside, rfl, hbatch⟩

/-- C0 creates the task for row `i`, or has come to the end of the table. -/
theorem createTest (inv : RunInv tests r) (between : r.sys.c0 = .idle returned) {i : ℕ}
    (hphase : r.phase = .create i) : RunInv tests (r.stepIdle tests returned) := by
  have holds := inv.phase
  rw [hphase] at holds
  simp only [HalRun.stepIdle, hphase]
  cases hrow : tests[i]? with
  | none => exact inv.setPhase ⟨holds.1, holds.2.all⟩
  | some row =>
    refine inv.beginCreate between _ ⟨halTest i row, batchTests_getElem? hrow, Or.inl ⟨?_, ?_⟩⟩
    · simp only [TaskSystem.beginCreate, if_pos (halTest_nonNull i row)]
      rfl
    · exact holds.2.c0_step inv.execution inv.dispatch (c0Frame_beginCreate _ _)
        (beginCreate_created _ _)

/-- C0 takes a step between calls. -/
theorem stepIdle (inv : RunInv tests r) (between : r.sys.c0 = .idle returned)
    (quiet : r.Quiet) : RunInv tests (r.stepIdle tests returned) := by
  have holds := inv.phase
  cases hphase : r.phase with
  | createA =>
    simp only [HalRun.stepIdle, hphase]
    refine inv.beginCreate between parallelTestA fun task htask => ?_
    exact absurd htask (beginCreate_c0_ne _ _ _)
  | createB =>
    rw [hphase] at holds
    simp only [HalRun.stepIdle, hphase]
    refine inv.beginCreate between parallelTestB ⟨fun task htask => ?_, fun task htask => ?_⟩
    · exact absurd htask (beginCreate_c0_ne _ _ _)
    · rw [beginCreate_handles]
      exact ⟨holds task (by rw [between, htask]), beginCreate_c0_ne _ _ _⟩
  | queueA task1 => exact inv.queueFirst between hphase
  | queueB task2 =>
    rw [hphase] at holds
    simp only [HalRun.stepIdle, hphase]
    exact inv.beginQueue between holds trivial
  | waitA cycles =>
    simp only [HalRun.stepIdle, hphase]
    split_ifs
    · exact inv.waitCycle cycles
    · exact inv.setPhase trivial
  | waitB cycles =>
    simp only [HalRun.stepIdle, hphase]
    split_ifs
    · exact inv.waitCycle cycles
    · exact inv.setPhase trivial
  | resetStorage =>
    simp only [HalRun.stepIdle, hphase]
    exact inv.resetStorage between (quiet.1 hphase)
  | resetCounters => exact inv.resetCounters between quiet hphase
  | create i => exact inv.createTest between hphase
  | queue i => exact inv.queueTest between hphase
  | wait =>
    rw [hphase] at holds
    simp only [HalRun.stepIdle, hphase]
    split_ifs with hcompleted
    · exact inv.setPhase ⟨holds.1, holds.2, hcompleted⟩
    · exact inv
  | finished =>
    simp only [HalRun.stepIdle, hphase]
    exact inv

/-- C0 takes a step, in a call or between calls. -/
theorem stepC0 (inv : RunInv tests r) (quiet : r.Quiet) : RunInv tests (r.stepC0 tests) := by
  by_cases hidle : ∃ returned, r.sys.c0 = .idle returned
  · obtain ⟨returned, between⟩ := hidle
    have hstep : r.stepC0 tests = r.stepIdle tests returned := by
      simp only [HalRun.stepC0, between]
    rw [hstep]
    exact inv.stepIdle between quiet
  · have busy : ∀ returned, r.sys.c0 ≠ .idle returned := fun returned h => hidle ⟨returned, h⟩
    have hstep : r.stepC0 tests = { r with sys := r.sys.stepC0 } := by
      unfold HalRun.stepC0
      split
      · next returned h => exact absurd h (busy returned)
      · rfl
    rw [hstep]
    exact inv.c0_step inv.dispatch.c0Frame_stepC0 inv.dispatch.stepC0
      (inv.phase.stepC0 inv.execution inv.dispatch busy)

theorem start (tests : HalTable) : RunInv tests {} where
  dispatch := batchStart_start.dispatchInv
  execution := executionInv_resetStorage (s := {}) rfl fun _ => rfl
  outside _ _ := rfl
  phase := trivial

/-- A run whose resets are quiet keeps the invariant. -/
theorem run (inv : RunInv tests r) {actors : List Actor} (quiet : ResetsQuiet tests r actors) :
    RunInv tests (r.run tests actors) := by
  induction actors generalizing r with
  | nil => exact inv
  | cons actor rest ih =>
    cases actor with
    | c0 => exact ih (inv.stepC0 quiet.1) quiet.2
    | tile id value => exact ih (inv.stepTile id value) quiet

/-! ### When the wait returns -/

/-- The counter has reached the size of the table: all tasks of the batch exist, were handed
out, and are counted by the tiles that got them. -/
theorem all_counted (inv : RunInv tests r) (b : BatchInv tests r.sys tests.length)
    (waited : (tests.length : ℤ) ≤ r.sys.completedTasks) :
    r.sys.history.created.length = tests.length ∧
      (∀ c ∈ r.sys.history.created, ∃ given ∈ r.sys.history.handedOut, given.task = c.task) ∧
        ∀ tile, (r.sys.tiles tile).pc.owed = false := by
  have hcreated := b.length_le
  have hsubperm := inv.dispatch.handedOut_subperm
  have hgiven := hsubperm.length_le
  rw [List.length_map, List.length_map] at hgiven
  have hcounted := b.counted.completedTasks_le
  -- n ≤ counter ≤ hand-outs ≤ tasks ≤ n
  refine ⟨by omega, fun c hc => ?_, fun tile => ?_⟩
  · have hperm := hsubperm.perm_of_length_le (by rw [List.length_map, List.length_map]; omega)
    exact List.mem_map.mp (hperm.mem_iff.mpr (List.mem_map_of_mem hc))
  · rcases Nat.lt_or_ge tile r.sys.nodeCount with hlt | hge
    · exact b.counted.not_owed (by omega) tile hlt
    · rw [inv.outside tile hge]
      rfl

/-- The invariant gives what the run has to guarantee. -/
theorem batchIsolated (inv : RunInv tests r) : r.BatchIsolated tests where
  flag_executed := inv.execution.completed_executed
  waited finished := by
    have holds := inv.phase
    rw [finished] at holds
    obtain ⟨-, b, hempty | hwaited⟩ := holds
    · obtain rfl := List.length_eq_zero_iff.mp hempty
      have hnil := List.length_eq_zero_iff.mp (Nat.le_zero.mp b.length_le)
      rw [hnil]
      exact ⟨rfl, fun c hc => absurd hc List.not_mem_nil⟩
    · obtain ⟨hlength, hgiven, hidle⟩ := inv.all_counted b hwaited
      refine ⟨b.created_all.eq_of_length (by simpa [batchTests] using hlength), fun c hc => ?_⟩
      obtain ⟨given, hmem, htask⟩ := hgiven c hc
      -- its tile has counted it, so it is past the test function
      have hdone : c.task ∈ r.sys.history.executed.map Execution.task := by
        rcases inv.execution.progress given hmem with hdone | ⟨hwaiting, -⟩
        · exact htask ▸ hdone
        · rw [TilePc.waiting_of_not_owed (hidle _)] at hwaiting
          exact nomatch hwaiting
      refine ⟨List.count_eq_one_of_mem inv.execution.executed_once hdone, fun ptr hptr => ?_⟩
      obtain ⟨e, he, hid⟩ := List.mem_map.mp hdone
      refine ⟨e, he, hid, (b.results e he c hc hid.symm ptr hptr).resolve_right ?_⟩
      -- a tile that is about to store the result has not counted the task
      rintro ⟨hstoring, -⟩
      have hbusy := hidle e.tile
      rw [hstoring] at hbusy
      exact nomatch hbusy

end RunInv

/-- In every run of the C0 thread and the tiles in which no tile is in the way of the
resets, the batches are isolated and the wait is sound, in every state. -/
theorem batchIsolated_of_resetsQuiet (tests : HalTable) (actors : List Actor)
    (quiet : ResetsQuiet tests {} actors) : (run tests {} actors).BatchIsolated tests :=
  ((RunInv.start tests).run quiet).batchIsolated

/-- A table of one test. -/
def oneTest : HalTable := [("hal_test_cpu_local_move_wrapper", "CPU Local Move")]

/-- C0 and tiles 1 and 2 go through the parallel test, C0 resets and queues the batch, tile
3 executes the test, and C0 stops waiting. -/
def quietActors : List Actor :=
  List.replicate 34 .c0 ++ List.replicate 11 (.tile 1 512) ++ List.replicate 11 (.tile 2 512) ++
    List.replicate 22 .c0 ++ List.replicate 11 (.tile 3 1) ++ [.c0]

theorem batchIsolated_of_resetsQuiet_oneTest :
    (run oneTest {} quietActors).phase = .finished ∧
      (run oneTest {} quietActors).BatchIsolated oneTest :=
  ⟨by decide +kernel, batchIsolated_of_resetsQuiet oneTest quietActors (by decide +kernel)⟩

/-- Tile 1 takes the first slot and stores the result of the parallel test. C0 sees the
result of tile 2, too, zeroes the storage and creates task 3 in the first slot. Then tile 1
sets the completed flag. -/
def staleActors : List Actor :=
  List.replicate 29 .c0 ++ List.replicate 6 (.tile 1 512) ++ List.replicate 3 .c0 ++
    List.replicate 6 (.tile 2 512) ++ List.replicate 20 .c0 ++ List.replicate 2 (.tile 1 512)

/-- The flag of task 3 is set, which no tile has executed. -/
theorem not_batchIsolated : ¬ (run halTests {} staleActors).BatchIsolated halTests := by
  intro isolated
  have hcompleted : ⟨3, 1, 0⟩ ∈ (run halTests {} staleActors).sys.history.completed := by
    decide +kernel
  have hexecuted : (run halTests {} staleActors).sys.history.executed = [] := by
    decide +kernel
  obtain ⟨value, hrun⟩ := isolated.flag_executed _ hcompleted
  rw [hexecuted] at hrun
  exact List.not_mem_nil hrun

end HalRun

end MeshNoc
