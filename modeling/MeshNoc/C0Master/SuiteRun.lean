import MeshNoc.C0Master.TestFunctions
import MeshNoc.C0Master.Batch
import MeshNoc.Lib.Session

/-!
# The whole run of the tests

`c0_run_hal_tests_distributed` with the test functions the tiles call and the platform they
call it on. C0 runs the gather and the distribution itself and clears the destination of
the parallel test; what follows is the distributed run of the task system. A tile takes the
print session before it calls its test function and keeps it until the result is stored;
every request to the HAL is one step, and steps of all threads interleave freely.
-/

namespace MeshNoc

open Lib

/-- What C0 does before it creates its first task. -/
inductive Prologue
  | gather (rest : HalClient ℤ)
  | distribute (rest : HalClient ℤ)
  /-- The `memory_set` of `test_parallel_c0_access`. -/
  | clear (rest : HalClient ℤ)
  | behind

/-- The verdict of `test_parallel_c0_access`; the two results are read one after the other. -/
inductive Verdict
  | pending
  /-- `result1 > 0`; `result2` is still to be read. -/
  | second
  | known (success : ℤ)

def Verdict.isKnown : Verdict → Bool
  | known _ => true
  | pending | second => false

/-- The print session: the thread that holds it, the function it runs in it, and the
platform. -/
abbrev PrintSession := Session (ℕ × TestFunc) HalRequest HalAnswer ℤ HalSystem

/-- The state of the run. -/
structure SuiteRun where
  run : HalRun := {}
  prologue : Prologue
  session : PrintSession
  gatherResult : ℤ := 0
  distributeResult : ℤ := 0
  /-- `wait_cycles` of the parallel test. -/
  waitCycles : ℕ := 0
  parallel : Verdict := .pending

/-- Whose step is next. The scheduler says which of two racing threads of a test goes first,
and what a test finds in its uninitialised memory. -/
inductive SuiteActor
  | c0 (first : Bool) (u : Uninitialised)
  | tile (id : ℕ) (first : Bool) (u : Uninitialised)

def SuiteActor.uninitialised : SuiteActor → Uninitialised
  | c0 _ u | tile _ _ u => u

namespace SuiteRun

/-- C0 enters `c0_run_hal_tests_distributed`. -/
def start (st : HalSystem) (u : Uninitialised) : SuiteRun :=
  { prologue := .gather (testC0Gather u platformAfterSetup), session := ⟨none, st⟩ }

variable (r : SuiteRun)

/-- The next request of a test that runs on C0 itself. -/
def advanceC0 (rest : HalClient ℤ) (first : Bool) (back : HalClient ℤ → Prologue) : SuiteRun :=
  match rest.advance HalRequest.exec first r.session.shared with
  | some (rest', shared') =>
    { r with prologue := back rest', session := ⟨r.session.holder, shared'⟩ }
  | none => r

/-- C0 in the distributed run. Between the waiting loop of the parallel test and the reset of
the storage it reads the two results. -/
def stepRun : SuiteRun :=
  let next := { r with run := r.run.stepC0 halTests }
  match r.run.sys.c0, r.run.phase with
  | .idle returned, .queueA task1 =>
    -- without both tasks the parallel test fails at once
    if task1 = none ∨ returned = none then { next with parallel := .known 0 } else next
  | .idle _, .waitA cycles | .idle _, .waitB cycles => { next with waitCycles := cycles }
  | .idle _, .resetStorage =>
    match r.parallel with
    | .pending =>
      { r with parallel := if 0 < r.run.sys.results .result1 then .second else .known 0 }
    | .second => { r with parallel := .known (truth (0 < r.run.sys.results .result2)) }
    | .known _ => next
  | _, _ => next

/-- C0's next step. -/
def stepC0 (first : Bool) (u : Uninitialised) : SuiteRun :=
  match r.prologue with
  | .gather (.done value) =>
    { r with
      gatherResult := value, prologue := .distribute (testC0Distribute u platformAfterSetup) }
  | .gather rest => r.advanceC0 rest first .gather
  | .distribute (.done value) =>
    { r with distributeResult := value, prologue := .clear clearParallelDestination }
  | .distribute rest => r.advanceC0 rest first .distribute
  | .clear (.done _) => { r with prologue := .behind }
  | .clear rest => r.advanceC0 rest first .clear
  | .behind => r.stepRun

/-- A tile takes the print session and calls the test function of the task, unless that or
the platform is null. A tile that finds the session taken waits. -/
def enter (id task : ℕ) (u : Uninitialised) : SuiteRun :=
  match r.session.holder with
  | some _ => r
  | none =>
    let t := r.run.sys.storage task
    let next := { r with run := r.run.step halTests (.tile id 0) }
    match t.params.testFunc, t.platform with
    | some func, true => { next with session := r.session.enter (id, func) (testClient u id func) }
    | _, _ => next

/-- The tile whose thread holds the print session. -/
def holderTile : Option ℕ := r.session.holder.map fun holder => holder.1.1

/-- The next request of the test function that runs on a tile, or its return. -/
def proceed (id : ℕ) (first : Bool) : SuiteRun :=
  if r.holderTile = some id then
    match r.session.ended with
    | some (_, value) => { r with run := r.run.step halTests (.tile id value) }
    | none => { r with session := r.session.advance HalRequest.exec first }
  else r

/-- A tile's next step. -/
def stepTile (id : ℕ) (first : Bool) (u : Uninitialised) : SuiteRun :=
  match (r.run.sys.tiles id).pc with
  | .call task => r.enter id task u
  | .running _ _ => r.proceed id first
  -- behind the result the print session ends
  | .storeResult _ _ =>
    { r with run := r.run.step halTests (.tile id 0), session := r.session.leave }
  | _ => { r with run := r.run.step halTests (.tile id 0) }

def step : SuiteActor → SuiteRun
  | .c0 first u => r.stepC0 first u
  | .tile id first u =>
    if 1 ≤ id ∧ id < r.run.sys.nodeCount then r.stepTile id first u else r

/-- The state after a list of steps. -/
def runFrom : List SuiteActor → SuiteRun := List.foldl step r

/-- `hal_passed`. -/
def halPassed : ℤ := ∑ i ∈ Finset.range halTests.length, r.run.sys.results (.halTest i)

/-- `parallel_c0_result`. -/
def parallelResult : ℤ :=
  match r.parallel with
  | .known success => success
  | .pending | .second => 0

/-- `total_passed`. -/
def totalPassed : ℤ := r.gatherResult + r.distributeResult + r.parallelResult + r.halPassed

/-- No tile is in the way of the reset C0 is about to make. -/
def Quiet : Prop := r.parallel.isKnown = true → r.run.Quiet

instance : Decidable r.Quiet := inferInstanceAs (Decidable (_ → _))

/-- Every step of C0 in the run is made in a state that is quiet. -/
def ResetsQuiet (r : SuiteRun) : List SuiteActor → Prop
  | [] => True
  | .c0 first u :: rest => r.Quiet ∧ ResetsQuiet (r.stepC0 first u) rest
  | .tile id first u :: rest => ResetsQuiet (r.step (.tile id first u)) rest

end SuiteRun

end MeshNoc
