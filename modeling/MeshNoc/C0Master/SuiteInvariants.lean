import MeshNoc.C0Master.SuiteRun

/-!
# Invariants of the whole run

What the steps of C0 and of the tiles keep of the tasks and of the print session: only tests
of the run are created, a task that was executed was executed with the value expected of its
function, a result that is stored is the expected one, and the tile that holds the session is
the one that is in its test function.

## Main results

* `C0Did.stepC0` — what a step of C0 does to the tasks
* `TaskSystem.ValueInv.stepTile`, `TaskSystem.ValueInv.c0_step` — the values
* `SessionInv` — the print session
-/

namespace MeshNoc

open Lib

/-! ### The tests of the run -/

/-- The tests that are queued in the run. -/
def suiteTests : List HalTest := parallelTestA :: parallelTestB :: batchTests halTests

/-- What is to be stored behind a result pointer. -/
def expectedResult : ResultPtr → ℤ
  | .result1 | .result2 => 512
  | .halTest _ => 1

/-- A test of the run has a known function, and stores its value where it is expected. -/
def HalTest.Expected (test : HalTest) : Prop :=
  ∃ func ∈ testNames, ∃ ptr, test.testFunc = some func ∧ test.resultPtr = some ptr ∧
    expectedResult ptr = expectedValue func

theorem expectedResult_pos (ptr : ResultPtr) : 0 < expectedResult ptr := by
  cases ptr <;> simp [expectedResult]

theorem halTests_expected : ∀ row ∈ halTests, row.1 ∈ testNames ∧ expectedValue row.1 = 1 := by
  decide

theorem suiteTests_expected {test : HalTest} (mem : test ∈ suiteTests) : test.Expected := by
  have hname : "tile_to_c0_transfer_task" ∈ testNames := List.mem_cons_self
  have hvalue : (512 : ℤ) = expectedValue "tile_to_c0_transfer_task" := by decide
  rcases List.mem_cons.mp mem with rfl | hmem
  · exact ⟨_, hname, .result1, rfl, rfl, hvalue⟩
  rcases List.mem_cons.mp hmem with rfl | hmem
  · exact ⟨_, hname, .result2, rfl, rfl, hvalue⟩
  obtain ⟨i, hi, rfl⟩ := List.mem_mapIdx.mp hmem
  have hrow := halTests_expected _ (List.getElem_mem hi)
  exact ⟨_, hrow.1, .halTest i, rfl, rfl, hrow.2.symm⟩

theorem mem_suiteTests_of_row {i : ℕ} {row : TestFunc × String} (h : halTests[i]? = some row) :
    halTest i row ∈ suiteTests :=
  List.mem_cons_of_mem _ (List.mem_cons_of_mem _
    (List.mem_of_getElem? (batchTests_getElem? h)))

/-! ### What C0 does to the tasks -/

/-- A step of C0 in the run: tests of the run are created and nothing is executed, or the
storage is reset; the results of the parallel test stay. -/
structure C0Did (s s' : TaskSystem) (phase : HalPhase) : Prop where
  tiles : s'.tiles = s.tiles
  nodeCount : s'.nodeCount = s.nodeCount
  created : ∀ c ∈ s'.history.created, c ∈ s.history.created ∨ s.c0.creating = some c.test
  creating : ∀ test, s'.c0.creating = some test →
    s.c0.creating = some test ∨ test ∈ suiteTests
  kept : (∀ c ∈ s.history.created, c ∈ s'.history.created) ∧
      s'.history.executed = s.history.executed ∨
    s'.history.executed = [] ∧ phase = .resetStorage
  results : ∀ ptr, s'.results ptr = s.results ptr ∨
    (∃ i, ptr = .halTest i) ∧ s'.results ptr = 0

namespace C0Did

variable {s s' : TaskSystem} {phase : HalPhase}

theorem refl (s : TaskSystem) : C0Did s s phase where
  tiles := rfl
  nodeCount := rfl
  created _ hc := Or.inl hc
  creating _ htest := Or.inl htest
  kept := Or.inl ⟨fun _ hc => hc, rfl⟩
  results _ := Or.inl rfl

/-- A step of a call. -/
theorem call (h : s.DispatchInv) (busy : ∀ returned, s.c0 ≠ .idle returned) :
    C0Did s s.stepC0 phase := by
  have f := h.c0Frame_stepC0
  have hresults : ∀ ptr, s.stepC0.results ptr = s.results ptr ∨
      (∃ i, ptr = .halTest i) ∧ s.stepC0.results ptr = 0 := fun ptr =>
    Or.inl (congrFun f.results ptr)
  cases TaskSystem.stepC0_cases busy with
  | goes created handles returned creating =>
    refine ⟨f.tiles, f.nodeCount, fun c hc => Or.inl (created ▸ hc), fun test htest => ?_,
      Or.inl ⟨fun c hc => created ▸ hc, f.executed⟩, hresults⟩
    rcases creating with hsame | hidle
    · exact Or.inl (hsame ▸ htest)
    · rw [hidle] at htest
      exact absurd htest.symm (Option.some_ne_none test)
  | returns slot id test call returned handles created =>
    refine ⟨f.tiles, f.nodeCount, fun c hc => ?_, fun test htest => ?_,
      Or.inl ⟨fun c hc => ?_, f.executed⟩, hresults⟩
    · rw [created] at hc
      rcases List.mem_cons.mp hc with rfl | hc
      · rw [call]
        exact Or.inr rfl
      · exact Or.inl hc
    · rw [returned] at htest
      exact absurd htest.symm (Option.some_ne_none test)
    · rw [created]
      exact List.mem_cons_of_mem _ hc

/-- The start of a call that creates a test of the run. -/
theorem beginCreate (s : TaskSystem) {test : HalTest} (mem : test ∈ suiteTests) :
    C0Did s (s.beginCreate test) phase := by
  unfold TaskSystem.beginCreate
  split_ifs
  · refine ⟨rfl, rfl, fun _ hc => Or.inl hc, fun test' htest => Or.inr ?_,
      Or.inl ⟨fun _ hc => hc, rfl⟩, fun _ => Or.inl rfl⟩
    exact Option.some.inj htest ▸ mem
  · exact ⟨rfl, rfl, fun _ hc => Or.inl hc, fun _ htest => absurd htest.symm
      (Option.some_ne_none _), Or.inl ⟨fun _ hc => hc, rfl⟩, fun _ => Or.inl rfl⟩

theorem beginQueue (s : TaskSystem) (task : ℕ) : C0Did s (s.beginQueue task) phase :=
  ⟨rfl, rfl, fun _ hc => Or.inl hc, fun _ htest => absurd htest.symm (Option.some_ne_none _),
    Or.inl ⟨fun _ hc => hc, rfl⟩, fun _ => Or.inl rfl⟩

/-- C0 moves on to another point. -/
theorem stepIdle {r : HalRun} {returned : Option ℕ} (between : r.sys.c0 = .idle returned) :
    C0Did r.sys (r.stepIdle halTests returned).sys r.phase := by
  have hwait (cycles : ℕ) : (r.waitCycle cycles).sys = r.sys := rfl
  cases hphase : r.phase with
  | createA =>
    simp only [HalRun.stepIdle, hphase]
    exact beginCreate _ List.mem_cons_self
  | createB =>
    simp only [HalRun.stepIdle, hphase]
    exact beginCreate _ (List.mem_cons_of_mem _ List.mem_cons_self)
  | queueA task1 =>
    simp only [HalRun.stepIdle, hphase]
    split
    · exact beginQueue _ _
    · exact refl _
  | queueB task2 =>
    simp only [HalRun.stepIdle, hphase]
    exact beginQueue _ _
  | waitA cycles | waitB cycles =>
    simp only [HalRun.stepIdle, hphase]
    split_ifs
    · exact refl _
    · exact refl _
  | resetStorage =>
    simp only [HalRun.stepIdle, hphase, TaskSystem.step, between]
    exact ⟨rfl, rfl, fun _ hc => absurd hc List.not_mem_nil,
      fun _ htest => absurd htest.symm (Option.some_ne_none _), Or.inr ⟨rfl, rfl⟩,
      fun _ => Or.inl rfl⟩
  | resetCounters =>
    simp only [HalRun.stepIdle, hphase, TaskSystem.step, between]
    exact ⟨rfl, rfl, fun _ hc => Or.inl hc,
      fun _ htest => absurd htest.symm (Option.some_ne_none _), Or.inl ⟨fun _ hc => hc, rfl⟩,
      fun _ => Or.inl rfl⟩
  | create i =>
    simp only [HalRun.stepIdle, hphase]
    split
    · next row hrow => exact beginCreate _ (mem_suiteTests_of_row hrow)
    · exact refl _
  | queue i =>
    simp only [HalRun.stepIdle, hphase]
    cases returned with
    | some task => exact beginQueue _ _
    | none =>
      refine ⟨rfl, rfl, fun _ hc => Or.inl hc, fun _ htest => Or.inl htest,
        Or.inl ⟨fun _ hc => hc, rfl⟩, fun ptr => ?_⟩
      by_cases hptr : ptr = .halTest i
      · exact Or.inr ⟨⟨i, hptr⟩, by rw [hptr]; exact Function.update_self ..⟩
      · exact Or.inl (Function.update_of_ne hptr ..)
  | wait =>
    simp only [HalRun.stepIdle, hphase]
    split_ifs
    · exact refl _
    · exact refl _
  | finished =>
    simp only [HalRun.stepIdle, hphase]
    exact refl _

theorem stepC0 {r : HalRun} (h : r.sys.DispatchInv) :
    C0Did r.sys (r.stepC0 halTests).sys r.phase := by
  by_cases hidle : ∃ returned, r.sys.c0 = .idle returned
  · obtain ⟨returned, between⟩ := hidle
    have hstep : r.stepC0 halTests = r.stepIdle halTests returned := by
      simp only [HalRun.stepC0, between]
    rw [hstep]
    exact stepIdle between
  · have busy : ∀ returned, r.sys.c0 ≠ .idle returned := fun returned h => hidle ⟨returned, h⟩
    have hstep : r.stepC0 halTests = { r with sys := r.sys.stepC0 } := by
      unfold HalRun.stepC0
      split
      · next returned h => exact absurd h (busy returned)
      · rfl
    rw [hstep]
    exact call h busy

end C0Did

/-! ### The tasks and their values -/

namespace TaskSystem

variable {s s' : TaskSystem} {phase : HalPhase} {tile : ℕ} {value : ℤ}

/-- Every task is one of the run's tests, was executed with the value expected of its
function, and every result is the expected one once it is stored. -/
structure ValueInv (s : TaskSystem) : Prop where
  nodeCount : s.nodeCount = numTiles
  created : ∀ c ∈ s.history.created, c.test ∈ suiteTests
  creating : ∀ test, s.c0.creating = some test → test ∈ suiteTests
  executed : ∀ e ∈ s.history.executed, ∃ c ∈ s.history.created, c.task = e.task ∧
    ∀ func, c.test.testFunc = some func → e.value = expectedValue func
  results : ∀ ptr, s.results ptr = 0 ∨ s.results ptr = expectedResult ptr

theorem valueInv_start : ValueInv {} where
  nodeCount := rfl
  created _ hc := absurd hc List.not_mem_nil
  creating _ htest := absurd htest.symm (Option.some_ne_none _)
  executed _ he := absurd he List.not_mem_nil
  results _ := Or.inl rfl

namespace ValueInv

theorem c0_step (v : s.ValueInv) (d : C0Did s s' phase) : s'.ValueInv where
  nodeCount := d.nodeCount.trans v.nodeCount
  created c hc := (d.created c hc).elim (v.created c) (v.creating c.test)
  creating test htest := (d.creating test htest).elim (v.creating test) id
  executed e he := by
    rcases d.kept with ⟨hcreated, hexecuted⟩ | ⟨hexecuted, -⟩
    · rw [hexecuted] at he
      obtain ⟨c, hc, hspec⟩ := v.executed e he
      exact ⟨c, hcreated c hc, hspec⟩
    · rw [hexecuted] at he
      exact absurd he List.not_mem_nil
  results ptr := by
    rcases d.results ptr with hsame | ⟨-, hzero⟩
    · rw [hsame]
      exact v.results ptr
    · exact Or.inl hzero

/-- The result a tile is about to store is the expected one. -/
theorem storing (v : s.ValueInv) (e : s.ExecutionInv) (h : s.DispatchInv) {slot : ℕ}
    (storing : (s.tiles tile).pc = .storeResult slot value) :
    ∃ ptr, (s.storage slot).params.resultPtr = some ptr ∧ value = expectedResult ptr := by
  have hheld : (s.tiles tile).pc.held = some slot := by rw [storing]; rfl
  obtain ⟨own, hown, hcore⟩ := h.carries_of_held hheld
  have hparams : (s.storage slot).params = own.test := congrArg (fun core => core.2.2.1) hcore
  have hownId : (s.storage slot).taskId = own.task := congrArg Prod.fst hcore
  obtain ⟨c, hc, hid, hvalue⟩ := v.executed _ (e.storing tile slot value storing)
  obtain rfl := List.inj_on_of_nodup_map h.created_once hc hown (hid.trans hownId)
  obtain ⟨func, -, ptr, hfunc, hptr, hexpected⟩ := suiteTests_expected (v.created c hc)
  exact ⟨ptr, by rw [hparams, hptr], (hvalue func hfunc).trans hexpected.symm⟩

/-- A step of a tile leaves a result, or stores the expected one. -/
theorem results_stepTile (v : s.ValueInv) (e : s.ExecutionInv) (h : s.DispatchInv)
    (tile : ℕ) (value : ℤ) (ptr : ResultPtr) : (s.stepTile tile value).results ptr = s.results ptr ∨
      (s.stepTile tile value).results ptr = expectedResult ptr := by
  cases stepTile_cases h tile value with
  | handOut slot poll eligible eq =>
    rw [eq]
    exact Or.inl rfl
  | returned slot id value running eq =>
    rw [eq]
    exact Or.inl rfl
  | stored slot value hstoring eq =>
    rw [eq]
    obtain ⟨ptr', hptr', hvalue⟩ := v.storing e h hstoring
    change (s.storeResult slot value).results ptr = s.results ptr ∨
      (s.storeResult slot value).results ptr = expectedResult ptr
    simp only [TaskSystem.storeResult, hptr']
    by_cases hsame : ptr = ptr'
    · rw [hsame, Function.update_self]
      exact Or.inr hvalue
    · exact Or.inl (Function.update_of_ne hsame ..)
  | plain pc move =>
    rw [move.results]
    exact Or.inl rfl

/-- A result that is there is positive. -/
theorem results_pos (v : s.ValueInv) {ptr : ResultPtr} (there : s.results ptr ≠ 0) :
    0 < s.results ptr := by
  rw [(v.results ptr).resolve_left there]
  exact expectedResult_pos ptr

/-- A result that is there stays there. -/
theorem results_ne_zero (v : s.ValueInv) (e : s.ExecutionInv) (h : s.DispatchInv)
    {ptr : ResultPtr} (there : s.results ptr ≠ 0) :
    (s.stepTile tile value).results ptr ≠ 0 := by
  rcases v.results_stepTile e h tile value ptr with hsame | hexpected
  · rwa [hsame]
  · rw [hexpected]
    exact (expectedResult_pos ptr).ne'

/-- A step of a tile whose test function, if it returns, returns the expected value. -/
theorem stepTile (v : s.ValueInv) (e : s.ExecutionInv) (h : s.DispatchInv)
    (returns : ∀ slot id, (s.tiles tile).pc = .running slot id →
      ∃ c ∈ s.history.created, c.task = id ∧
        ∀ func, c.test.testFunc = some func → value = expectedValue func) :
    (s.stepTile tile value).ValueInv := by
  obtain ⟨hc0, -, -, -, -⟩ := stepTile_leaves s tile value
  obtain ⟨pc, m⟩ := (stepTile_cases h tile value).exists_move
  -- what is left to be shown is what the tile has executed
  suffices hdone : ∀ e ∈ (s.stepTile tile value).history.executed, ∃ c ∈ s.history.created,
      c.task = e.task ∧ ∀ func, c.test.testFunc = some func → e.value = expectedValue func by
    refine ⟨m.nodeCount.trans v.nodeCount, m.created ▸ v.created, hc0 ▸ v.creating,
      m.created ▸ hdone, fun ptr => ?_⟩
    rcases v.results_stepTile e h tile value ptr with hsame | hexpected
    · rw [hsame]
      exact v.results ptr
    · exact Or.inr hexpected
  cases stepTile_cases h tile value with
  | handOut slot poll eligible eq =>
    rw [eq]
    exact v.executed
  | returned slot id value' running eq =>
    have hstep : s.stepTile tile value = s.testReturned tile slot id value := by
      simp only [TaskSystem.stepTile, running]
      rfl
    rw [hstep]
    intro run hrun
    rcases List.mem_cons.mp hrun with rfl | hrun
    · exact returns slot id running
    · exact v.executed run hrun
  | stored slot value' hstoring eq =>
    rw [eq]
    intro run hrun
    change run ∈ (s.storeResult slot value').history.executed at hrun
    rw [(s.storeResult_fields slot value').2.2.1] at hrun
    exact v.executed run hrun
  | plain pc move =>
    rw [move.executed]
    exact v.executed

end ValueInv

end TaskSystem

/-! ### The print session -/

/-- The tile is at its test function, or about to store the result. -/
def TilePc.inSession : TilePc → Bool
  | .running _ _ | .storeResult _ _ => true
  | _ => false

theorem TilePc.held_ne_none {pc : TilePc} (inside : pc.inSession = true) : pc.held ≠ none := by
  cases pc <;> simp [inSession, held] at *

/-- Only from the call of the test function does a tile get into the session. -/
theorem TaskSystem.inSession_stepTile {s : TaskSystem} {tile : ℕ} {value : ℤ}
    (outside : (s.tiles tile).pc.inSession = false)
    (elsewhere : ∀ slot, (s.tiles tile).pc ≠ .call slot) :
    ((s.stepTile tile value).tiles tile).pc.inSession = false := by
  have hset (s' : TaskSystem) (thread : TileThread) :
      ((s'.setTile tile thread).tiles tile).pc = thread.pc := by
    rw [TaskSystem.setTile_tiles, Function.update_self]
  cases hpc : (s.tiles tile).pc with
  | poll =>
    simp only [TaskSystem.stepTile, hpc, TaskSystem.getNextTask]
    split
    · rw [TaskSystem.setPc, hset]
      rfl
    · exact congrArg TilePc.inSession (hset _ _)
  | dispatch task =>
    simp only [TaskSystem.stepTile, hpc, TaskSystem.dispatch]
    split <;> exact congrArg TilePc.inSession (hset _ _)
  | call task => exact absurd hpc (elsewhere task)
  | running task id | storeResult task result =>
    rw [hpc] at outside
    exact absurd outside.symm Bool.false_ne_true
  | start task | setResult task result | flag task | leave task | count task | finish task =>
    simp only [TaskSystem.stepTile, hpc]
    exact congrArg TilePc.inSession (hset _ _)

/-- The thread that holds the session is the one tile in it: it runs the function of its
task, or has its result. -/
structure SessionInv (s : TaskSystem) (x : PrintSession) : Prop where
  holder : ∀ thread c, x.holder = some (thread, c) →
    ∃ own ∈ s.history.created, own.test.testFunc = some thread.2 ∧
      ((∃ slot, (s.tiles thread.1).pc = .running slot own.task) ∨
        ∃ slot value, (s.tiles thread.1).pc = .storeResult slot value ∧ ∃ v, c = .done v)
  occupied : ∀ tile, (s.tiles tile).pc.inSession = true →
    ∃ func c, x.holder = some ((tile, func), c)

namespace SessionInv

open TaskSystem

variable {s s' : TaskSystem} {x : PrintSession} {phase : HalPhase} {tile : ℕ}

theorem inSession (inv : SessionInv s x) {thread : ℕ × TestFunc} {c : HalClient ℤ}
    (held : x.holder = some (thread, c)) : (s.tiles thread.1).pc.inSession = true := by
  obtain ⟨own, -, -, ⟨slot, hpc⟩ | ⟨slot, value, hpc, -⟩⟩ := inv.holder thread c held
  · rw [hpc]
    rfl
  · rw [hpc]
    rfl

/-- A tile in the session is its holder. -/
theorem holder_of_inSession (inv : SessionInv s x) {thread : ℕ × TestFunc} {c : HalClient ℤ}
    (held : x.holder = some (thread, c)) (inside : (s.tiles tile).pc.inSession = true) :
    thread.1 = tile := by
  obtain ⟨func, c', hheld⟩ := inv.occupied tile inside
  rw [held] at hheld
  exact congrArg (fun holder => holder.1.1) (Option.some.inj hheld)

theorem start (st : HalSystem) : SessionInv {} ⟨none, st⟩ where
  holder _ _ held := absurd held.symm (Option.some_ne_none _)
  occupied _ inside := absurd inside Bool.false_ne_true

/-- With all tiles polling the session is free. -/
theorem free (inv : SessionInv s x) (polls : ∀ tile, (s.tiles tile).pc = .poll) :
    x.holder = none := by
  cases hheld : x.holder with
  | none => rfl
  | some holder =>
    have hinside := inv.inSession hheld
    rw [polls] at hinside
    exact absurd hinside Bool.false_ne_true

/-- Only holder and tasks matter. -/
theorem congr (inv : SessionInv s x) {y : PrintSession} (holder : y.holder = x.holder) :
    SessionInv s y := ⟨holder ▸ inv.holder, holder ▸ inv.occupied⟩

/-- A step of C0: the storage is not reset while a tile is in the session. -/
theorem c0_step (inv : SessionInv s x) (d : C0Did s s' phase)
    (quiet : phase = .resetStorage → ∀ tile, (s.tiles tile).pc.held = none) :
    SessionInv s' x := by
  refine ⟨fun thread c held => ?_, fun tile inside => inv.occupied tile (d.tiles ▸ inside)⟩
  obtain ⟨own, hown, hfunc, hpc⟩ := inv.holder thread c held
  rcases d.kept with ⟨hkept, -⟩ | ⟨-, hphase⟩
  · rw [d.tiles]
    exact ⟨own, hkept own hown, hfunc, hpc⟩
  · exact absurd (quiet hphase thread.1) (TilePc.held_ne_none (inv.inSession held))

/-- A step of a tile that neither enters the session nor is in it. -/
theorem elsewhere (inv : SessionInv s x) {pc : TilePc} (m : Move s s' tile pc)
    (before : (s.tiles tile).pc.inSession = false) (after : pc.inSession = false) :
    SessionInv s' x := by
  refine ⟨fun thread c held => ?_, fun other inside => ?_⟩
  · have hother : thread.1 ≠ tile := by
      intro heq
      have hinside := inv.inSession held
      rw [heq, before] at hinside
      exact Bool.false_ne_true hinside
    rw [m.created, m.others _ hother]
    exact inv.holder thread c held
  · refine inv.occupied other ?_
    by_cases hother : other = tile
    · rw [hother, m.arrives, after] at inside
      exact absurd inside Bool.false_ne_true
    · rwa [m.others _ hother] at inside

/-- A tile takes the free session and calls its test function. -/
theorem enter (inv : SessionInv s x) (free : x.holder = none) {func : TestFunc} {slot : ℕ}
    {own : Creation} (m : Move s s' tile (.running slot own.task))
    (mem : own ∈ s.history.created) (runs : own.test.testFunc = some func) (c : HalClient ℤ) :
    SessionInv s' (x.enter (tile, func) c) := by
  have hholder : (x.enter (tile, func) c).holder = some ((tile, func), c) := by
    rw [Session.enter_of_free free]
  refine ⟨fun thread c' held => ?_, fun other inside => ?_⟩
  · rw [hholder, Option.some.injEq, Prod.mk.injEq] at held
    obtain ⟨rfl, rfl⟩ := held
    rw [m.created]
    exact ⟨own, mem, runs, Or.inl ⟨slot, m.arrives⟩⟩
  · by_cases hother : other = tile
    · rw [hother]
      exact ⟨func, c, hholder⟩
    · rw [m.others _ hother] at inside
      obtain ⟨func', c', hheld⟩ := inv.occupied other inside
      exact absurd (free.symm.trans hheld).symm (Option.some_ne_none _)

/-- The test function of the holder makes its next request. -/
theorem advance (inv : SessionInv s x) {c : HalClient ℤ} {thread : ℕ × TestFunc}
    (held : x.holder = some (thread, c)) (running : x.ended = none) (first : Bool) :
    SessionInv s (x.advance HalRequest.exec first) := by
  rcases Session.advance_cases HalRequest.exec held first with hsame | ⟨c', s', -, hnext⟩
  · rw [hsame]
    exact inv
  rw [hnext]
  refine ⟨fun thread' c'' hheld => ?_, fun tile inside => ?_⟩
  · obtain ⟨rfl, -⟩ := Prod.mk.inj (Option.some.inj hheld)
    obtain ⟨own, hown, hfunc, hpc | ⟨slot, value, -, v, rfl⟩⟩ := inv.holder thread c held
    · exact ⟨own, hown, hfunc, Or.inl hpc⟩
    · -- a client with its value would have ended
      rw [Session.ended, held] at running
      exact absurd running (Option.some_ne_none _)
  · rw [← inv.holder_of_inSession held inside]
    exact ⟨thread.2, c', rfl⟩

/-- The test function has returned. -/
theorem returned (inv : SessionInv s x) {func : TestFunc} {v value : ℤ} {slot : ℕ}
    (held : x.holder = some ((tile, func), .done v))
    (m : Move s s' tile (.storeResult slot value)) : SessionInv s' x := by
  refine ⟨fun thread c hheld => ?_, fun other inside => ?_⟩
  · obtain ⟨own, hown, hfunc, -⟩ := inv.holder thread c hheld
    rw [held, Option.some.injEq, Prod.mk.injEq] at hheld
    obtain ⟨rfl, rfl⟩ := hheld
    rw [m.created]
    exact ⟨own, hown, hfunc, Or.inr ⟨slot, value, m.arrives, v, rfl⟩⟩
  · by_cases hother : other = tile
    · rw [hother]
      exact ⟨func, _, held⟩
    · rw [m.others _ hother] at inside
      exact inv.occupied other inside

/-- The result is stored, and the session given back. -/
theorem leave (inv : SessionInv s x) {pc : TilePc} (m : Move s s' tile pc)
    (before : (s.tiles tile).pc.inSession = true) (after : pc.inSession = false) :
    SessionInv s' x.leave := by
  refine ⟨fun thread c held => absurd held.symm (Option.some_ne_none _), fun other inside => ?_⟩
  by_cases hother : other = tile
  · rw [hother, m.arrives, after] at inside
    exact absurd inside Bool.false_ne_true
  · rw [m.others _ hother] at inside
    obtain ⟨func, c, held⟩ := inv.occupied tile before
    exact absurd (inv.holder_of_inSession held inside).symm hother

end SessionInv

end MeshNoc
