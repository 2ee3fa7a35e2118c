import MeshNoc.C0Master.TestSuite
import MeshNoc.C0Master.SuiteFinishes
import MeshNoc.C0Master.CompletionCounts

/-!
# The threads of the test suite

What holds of the threads at each point of C0: which of them exist, which have still to be
initialised, which run and which are about to end; where the thread of a tile with a task is;
and where the suite is that they run.

## Main results

* `ProcessorThread.Moves` — what a thread does by itself
* `LifeInv.step`, `LifeInv.run_from` — what a step keeps, and a run
-/

namespace MeshNoc

open Lib
open TaskSystem
open PlicRegDef (IsSource)

/-! ### One thread -/

/-- The thread is in its loop, or on the way to it. -/
def ThreadPoint.inLoop : ThreadPoint → Bool
  | registering | loop | signal | check => true
  | absent | created | leaving | notifying | exited => false

/-- The thread has begun. -/
def ThreadPoint.begun : ThreadPoint → Bool
  | absent | created => false
  | registering | loop | signal | check | leaving | notifying | exited => true

/-- Where the tile of a thread may be in its loop. -/
def ThreadPoint.Allows (pc : TilePc) : ThreadPoint → Prop
  | loop => True
  | signal => ∃ task, pc = .flag task
  | absent | created | registering | check | leaving | notifying | exited => pc = .poll

theorem ThreadPoint.begun_of_inLoop {point : ThreadPoint} (inLoop : point.inLoop = true) :
    point.begun = true := by
  cases point <;> first | rfl | exact absurd inLoop Bool.false_ne_true

namespace ProcessorThread

/-- The thread is to go on in its loop. -/
structure Live (thread : ProcessorThread) : Prop where
  running : thread.running = true
  initialized : thread.initialized = true
  inLoop : thread.point.inLoop = true

/-- The thread is live, or has still to be initialised. -/
def Starting (thread : ProcessorThread) : Prop :=
  thread = ⟨.created, false, false⟩ ∨ thread.Live

/-- The flag of the thread is cleared. -/
structure Stopping (thread : ProcessorThread) : Prop where
  stopped : thread.running = false
  begun : thread.point.begun = true

/-- What a thread does by itself. -/
inductive Moves (before after : ProcessorThread) : Prop
  | begins (point : before.point = .created) (eq : after = ⟨.registering, true, true⟩)
  | goes (inLoop : before.point.inLoop = true) (stays : after.point.inLoop = true)
      (eq : after = { before with point := after.point })
  | leaves (out : before.running = false ∨ before.point.inLoop = false)
      (begun : before.point.begun = true) (unfinished : before.point ≠ .exited)
      (stays : after.point.begun = true) (eq : after = { before with point := after.point })

variable {before after : ProcessorThread}

theorem Live.clear (live : before.Live) : Stopping { before with running := false } :=
  ⟨rfl, ThreadPoint.begun_of_inLoop live.inLoop⟩

theorem Live.moves (live : before.Live) (moves : Moves before after) : after.Live := by
  cases moves with
  | begins point eq =>
    have hloop := live.inLoop
    rw [point] at hloop
    exact absurd hloop Bool.false_ne_true
  | goes inLoop stays eq =>
    rw [eq]
    exact ⟨live.running, live.initialized, stays⟩
  | leaves out begun unfinished stays eq =>
    rcases out with stopped | out
    · exact absurd (live.running.symm.trans stopped) Bool.true_eq_false.mp
    · exact absurd (live.inLoop.symm.trans out) Bool.true_eq_false.mp

theorem Starting.moves (starting : before.Starting) (moves : Moves before after) :
    after.Live := by
  rcases starting with rfl | live
  · cases moves with
    | begins point eq =>
      rw [eq]
      exact ⟨rfl, rfl, rfl⟩
    | goes inLoop stays eq => exact absurd inLoop Bool.false_ne_true
    | leaves out begun unfinished stays eq => exact absurd begun Bool.false_ne_true
  · exact live.moves moves

theorem Stopping.moves (stopping : before.Stopping) (moves : Moves before after) :
    after.Stopping := by
  cases moves with
  | begins point eq =>
    have hbegun := stopping.begun
    rw [point] at hbegun
    exact absurd hbegun Bool.false_ne_true
  | goes inLoop stays eq =>
    rw [eq]
    exact ⟨stopping.stopped, ThreadPoint.begun_of_inLoop stays⟩
  | leaves out begun unfinished stays eq =>
    rw [eq]
    exact ⟨stopping.stopped, stays⟩

/-- A thread that has ended does nothing. -/
theorem not_moves_exited (exited : before.point = .exited) : ¬ Moves before after := by
  intro moves
  cases moves with
  | begins point eq => exact absurd (exited.symm.trans point) (by decide)
  | goes inLoop stays eq =>
    rw [exited] at inLoop
    exact absurd inLoop Bool.false_ne_true
  | leaves out begun unfinished stays eq => exact unfinished exited

theorem not_moves_absent (absent : before.point = .absent) : ¬ Moves before after := by
  intro moves
  cases moves with
  | begins point eq => exact absurd (absent.symm.trans point) (by decide)
  | goes inLoop stays eq =>
    rw [absent] at inLoop
    exact absurd inLoop Bool.false_ne_true
  | leaves out begun unfinished stays eq =>
    rw [absent] at begun
    exact absurd begun Bool.false_ne_true

end ProcessorThread

/-! ### The threads at the points of C0 -/

namespace SuitePoint

/-- The thread C0 expects for a tile. -/
def Expects (tile : ℕ) (thread : ProcessorThread) : SuitePoint → Prop
  | start => thread = {}
  | create i => (tile < i → thread.Starting) ∧ (i ≤ tile → thread = {})
  | await i => thread.Starting ∧ (tile < i → thread.Live)
  | enable | supervise _ | service _ _ | tests | disable => thread.Live
  | stop i => (tile < i → thread.Stopping) ∧ (i ≤ tile → thread.Live)
  | join i => thread.Stopping ∧ (tile < i → thread.point = .exited)
  | returned => thread.Stopping ∧ thread.point = .exited
  | alone _ => thread = {} ∨ thread.Starting

/-- The distributed run is still to come. -/
def before : SuitePoint → Bool
  | start | create _ | await _ | enable | supervise _ | service _ _ => true
  | tests | disable | stop _ | join _ | returned | alone _ => false

/-- The distributed run has finished. -/
def behind : SuitePoint → Bool
  | disable | stop _ | join _ | returned => true
  | start | create _ | await _ | enable | supervise _ | service _ _ | tests | alone _ => false

/-- The distributed run has begun. -/
def Began (point : SuitePoint) : Prop := point = .tests ∨ point.behind = true

/-- The loops over the tiles begin with tile 1. -/
def FromOne : SuitePoint → Prop
  | create i | await i | stop i | join i => 1 ≤ i
  | start | enable | supervise _ | service _ _ | tests | disable | returned | alone _ => True

/-- The threads are being stopped, or were. -/
def stopping : SuitePoint → Bool
  | stop _ | join _ | returned => true
  | start | create _ | await _ | enable | supervise _ | service _ _ | tests | disable
  | alone _ => false

variable {tile : ℕ} {thread thread' : ProcessorThread} {point : SuitePoint}

/-- What C0 expects of a thread outlasts the thread's own steps. -/
theorem Expects.moves (expects : point.Expects tile thread) (moves : thread.Moves thread') :
    point.Expects tile thread' := by
  have hthere : thread ≠ {} := by
    rintro rfl
    exact ProcessorThread.not_moves_absent rfl moves
  cases point with
  | start => exact absurd expects hthere
  | create i =>
    exact ⟨fun hlt => Or.inr ((expects.1 hlt).moves moves),
      fun hle => absurd (expects.2 hle) hthere⟩
  | await i =>
    have hlive := expects.1.moves moves
    exact ⟨Or.inr hlive, fun _ => hlive⟩
  | enable | supervise cycles | service cycles drain | tests | disable =>
    exact ProcessorThread.Live.moves expects moves
  | stop i =>
    exact ⟨fun hlt => (expects.1 hlt).moves moves, fun hle => (expects.2 hle).moves moves⟩
  | join i =>
    refine ⟨expects.1.moves moves, fun hlt => ?_⟩
    exact absurd moves (ProcessorThread.not_moves_exited (expects.2 hlt))
  | returned => exact absurd moves (ProcessorThread.not_moves_exited expects.2)
  | alone rest =>
    rcases expects with rfl | starting
    · exact absurd rfl hthere
    · exact Or.inr (Or.inr (starting.moves moves))

/-- Only threads that are being stopped have a cleared flag, or leave their loop. -/
theorem Expects.stopping_of_out (expects : point.Expects tile thread)
    (begun : thread.point.begun = true)
    (out : thread.running = false ∨ thread.point.inLoop = false) : point.stopping = true := by
  have hlive : ¬ thread.Live := by
    rintro ⟨hrunning, -, hloop⟩
    rw [hrunning, hloop] at out
    exact out.elim Bool.true_eq_false.mp Bool.true_eq_false.mp
  have hstarting : ¬ thread.Starting := by
    rintro (rfl | live)
    · exact absurd begun Bool.false_ne_true
    · exact hlive live
  have hthere : thread ≠ {} := by
    rintro rfl
    exact absurd begun Bool.false_ne_true
  cases point with
  | start => exact absurd expects hthere
  | create i =>
    rcases Nat.lt_or_ge tile i with hlt | hge
    · exact absurd (expects.1 hlt) hstarting
    · exact absurd (expects.2 hge) hthere
  | await i => exact absurd expects.1 hstarting
  | enable | supervise cycles | service cycles drain | tests | disable => exact absurd expects hlive
  | stop i | join i | returned => rfl
  | alone rest => exact absurd expects (not_or.mpr ⟨hthere, hstarting⟩)

/-- A thread that has still to be initialised belongs to the time before the distributed run,
or beside it. -/
theorem Expects.unbegun (expects : point.Expects tile thread) (created : thread.point = .created) :
    ¬ point.Began := by
  have hlive : ¬ thread.Live := by
    rintro ⟨-, -, hloop⟩
    rw [created] at hloop
    exact absurd hloop Bool.false_ne_true
  have hstopping : ¬ thread.Stopping := by
    rintro ⟨-, hbegun⟩
    rw [created] at hbegun
    exact absurd hbegun Bool.false_ne_true
  rintro (rfl | behind)
  · exact hlive expects
  cases point with
  | start | create i | await i | enable | supervise cycles | service cycles drain | tests
  | alone rest => exact absurd behind Bool.false_ne_true
  | disable => exact absurd expects hlive
  | stop i =>
    rcases Nat.lt_or_ge tile i with hlt | hge
    · exact absurd (expects.1 hlt) hstopping
    · exact absurd (expects.2 hge) hlive
  | join i | returned => exact absurd expects.1 hstopping

theorem Began.not_before (began : point.Began) : point.before = false := by
  rcases began with rfl | hbehind
  · rfl
  · cases point <;> first | rfl | exact absurd hbehind Bool.false_ne_true

theorem not_began (before : point.before = true) : ¬ point.Began := fun began =>
  absurd (before.symm.trans began.not_before) Bool.true_eq_false.mp

theorem not_began_alone {rest : HalClient (ℤ × ℤ)} : ¬ (SuitePoint.alone rest).Began := by
  rintro (h | h)
  · exact SuitePoint.noConfusion h
  · exact Bool.false_ne_true h

end SuitePoint

/-! ### The suite that the threads run -/

/-- C0 is in its service and has claimed nothing. -/
def DrainPoint.Claimless : DrainPoint → Prop
  | .outside _ => True
  | .claim call => call.plic = .c0c1 ∧ call.targetLocal = 0
  | .handle _ _ | .complete _ _ => False

/-- Where the suite is at each point of C0. -/
structure SuiteAt (point : SuitePoint) (r : SuiteRun) : Prop where
  before : point.before = true → ∃ st, HalReady st ∧ r = (TestSuite.afterSetup st).suite
  during : point = .tests → r.ProgressInv
  behind : point.behind = true → r.ProgressInv ∧ r.run.phase = .finished
  alone : ∀ rest, point = .alone rest → r.run = {} ∧ r.session.holder = none ∧
    rest.wp HalRequest.exec (fun count st => count = (8, 8) ∧ HalReady st) r.session.shared

namespace SuiteAt

variable {point : SuitePoint} {r : SuiteRun} {id : ℕ} {first : Bool} {u : Uninitialised}

/-- No task exists but in the distributed run. -/
theorem untouched (at_ : SuiteAt point r) (unbegun : ¬ point.Began) : r.run = {} := by
  cases point with
  | start | create i | await i | enable | supervise cycles | service cycles drain =>
    obtain ⟨st, -, rfl⟩ := at_.before rfl
    rfl
  | tests => exact absurd (Or.inl rfl) unbegun
  | disable | stop i | join i | returned => exact absurd (Or.inr rfl) unbegun
  | alone rest => exact (at_.alone rest rfl).1

/-- In the distributed run and behind it. -/
theorem progress (at_ : SuiteAt point r) (began : point.Began) : r.ProgressInv := by
  rcases began with htests | hbehind
  · exact at_.during htests
  · exact (at_.behind hbehind).1

/-- Either nothing has happened yet, or the invariant of the run holds. -/
theorem untouched_or_progress (at_ : SuiteAt point r) : r.run = {} ∨ r.ProgressInv := by
  by_cases began : point.Began
  · exact Or.inr (at_.progress began)
  · exact Or.inl (at_.untouched began)

theorem nodeCount (at_ : SuiteAt point r) : r.run.sys.nodeCount = numTiles := by
  rcases at_.untouched_or_progress with hrun | inv
  · rw [hrun]
  · exact inv.values.nodeCount

/-- A tile that polls an empty storage changes nothing. -/
theorem step_tile_untouched (untouched : r.run = {}) : r.step (.tile id first u) = r := by
  have hpoll : ({} : TaskSystem).stepTile id 0 = {} := by
    change TaskSystem.setTile {} id {} = {}
    unfold TaskSystem.setTile
    rw [Function.update_eq_self_iff.mpr rfl]
  have hstep : r.run.step halTests (.tile id 0) = r.run := by
    rw [untouched]
    simp only [HalRun.step, TaskSystem.step, hpoll, ite_self]
  have hpc : (r.run.sys.tiles id).pc = .poll := by rw [untouched]
  simp only [SuiteRun.step, SuiteRun.stepTile, hpc, hstep, ite_self]

theorem phase_step_tile (r : SuiteRun) : (r.step (.tile id first u)).run.phase = r.run.phase := by
  simp only [SuiteRun.step]
  split_ifs
  · obtain ⟨run, session, heq, rfl | ⟨value, rfl⟩⟩ := r.stepTile_frame id first u
    · rw [heq]
    · rw [heq]
      rfl
  · rfl

/-- Only the tile that steps moves. -/
theorem others_step_tile (r : SuiteRun) {other : ℕ} (ne : other ≠ id) :
    (r.step (.tile id first u)).run.sys.tiles other = r.run.sys.tiles other := by
  simp only [SuiteRun.step]
  split_ifs with hvalid
  · obtain ⟨run, session, heq, rfl | ⟨value, rfl⟩⟩ := r.stepTile_frame id first u
    · rw [heq]
    · rw [heq]
      simp only [HalRun.step, TaskSystem.step, if_pos hvalid]
      exact CompletionRun.stepTile_others r.run.sys value ne
  · rfl

/-- A step of a tile in its loop. -/
theorem stepTile (at_ : SuiteAt point r) (allocates : u.Allocates) :
    SuiteAt point (r.step (.tile id first u)) := by
  have hmeets : r.Meets (.tile id first u) := ⟨allocates, fun _ _ h => nomatch h⟩
  refine ⟨fun hbefore => ?_, fun htests => ?_, fun hbehind => ?_, fun rest halone => ?_⟩
  · obtain ⟨st, ready, rfl⟩ := at_.before hbefore
    exact ⟨st, ready, step_tile_untouched rfl⟩
  · exact (at_.during htests).step hmeets
  · obtain ⟨inv, finished⟩ := at_.behind hbehind
    exact ⟨inv.step hmeets, (phase_step_tile r).trans finished⟩
  · obtain ⟨hrun, hfree, hwp⟩ := at_.alone rest halone
    rw [step_tile_untouched hrun]
    exact ⟨hrun, hfree, hwp⟩

/-! ### Points of C0 -/

theorem of_before {st : HalSystem} (ready : HalReady st) (before : point.before = true) :
    SuiteAt point (TestSuite.afterSetup st).suite where
  before _ := ⟨st, ready, rfl⟩
  during h := by
    rw [h] at before
    exact absurd before Bool.false_ne_true
  behind h := by
    cases point <;>
      first | exact absurd h Bool.false_ne_true | exact absurd before Bool.false_ne_true
  alone rest h := by
    rw [h] at before
    exact absurd before Bool.false_ne_true

theorem of_tests (inv : r.ProgressInv) : SuiteAt .tests r where
  before h := absurd h Bool.false_ne_true
  during _ := inv
  behind h := absurd h Bool.false_ne_true
  alone _ h := SuitePoint.noConfusion h

theorem of_behind (behind : point.behind = true) (inv : r.ProgressInv)
    (finished : r.run.phase = .finished) : SuiteAt point r where
  before h := by
    rw [SuitePoint.Began.not_before (Or.inr behind)] at h
    exact absurd h Bool.false_ne_true
  during _ := inv
  behind _ := ⟨inv, finished⟩
  alone rest h := by
    rw [h] at behind
    exact absurd behind Bool.false_ne_true

theorem of_alone {rest : HalClient (ℤ × ℤ)} (run : r.run = {}) (free : r.session.holder = none)
    (verified : rest.wp HalRequest.exec (fun count st => count = (8, 8) ∧ HalReady st)
      r.session.shared) : SuiteAt (.alone rest) r where
  before h := absurd h Bool.false_ne_true
  during h := SuitePoint.noConfusion h
  behind h := absurd h Bool.false_ne_true
  alone rest' h := by
    obtain rfl := SuitePoint.alone.inj h
    exact ⟨run, free, verified⟩

/-- C0 is at a point before the distributed run, and goes on to another. -/
theorem goes {point' : SuitePoint} (at_ : SuiteAt point r) (before : point.before = true)
    (before' : point'.before = true) : SuiteAt point' r := by
  obtain ⟨st, ready, rfl⟩ := at_.before before
  exact of_before ready before'

/-- C0 goes on behind the distributed run. -/
theorem stays {point' : SuitePoint} (at_ : SuiteAt point r) (behind : point.behind = true)
    (behind' : point'.behind = true) : SuiteAt point' r :=
  of_behind behind' (at_.behind behind).1 (at_.behind behind).2

/-- Without its threads C0 runs the tests alone. -/
theorem runAlone (at_ : SuiteAt point r) {w : ℕ → Uninitialised} (before : point.before = true) :
    SuiteAt (.alone (runAllTests w platformAfterSetup)) r := by
  obtain ⟨st, ready, rfl⟩ := at_.before before
  refine of_alone rfl rfl (Client.wp_mono (ready.wp wp_runAllTests) ?_)
  rintro count st' ⟨mem, holds, hcount⟩
  exact ⟨hcount, holds.ready⟩

end SuiteAt

/-! ### The invariant -/

namespace TestSuite

variable {t t' : TestSuite} {id : ℕ} {first : Bool} {u : Uninitialised} {thread : ProcessorThread}

/-- What holds of the threads. -/
structure ThreadsInv (t : TestSuite) : Prop where
  fromOne : t.point.FromOne
  threads : ∀ tile, 1 ≤ tile → tile < numTiles → t.point.Expects tile (t.threads tile)
  outside : ∀ tile, ¬ (1 ≤ tile ∧ tile < numTiles) → t.threads tile = {}
  tasks : ∀ tile, (t.threads tile).point.Allows (t.suite.run.sys.tiles tile).pc
  silent : ∀ tile, (t.threads tile).point ≠ .notifying

/-- The signal of a tile is pending at C0. -/
def Signalled (t : TestSuite) (tile : ℕ) : Prop :=
  t.plic.pending .c0c1 (plicCalculateSourceId tile 0 irqMeshNode) = true

/-- What holds of the interrupts: in the distributed run and behind it signals of tiles are
pending, and before it nothing is; C0 serves none, and no thread notifies C0 of its end. -/
structure IrqInv (t : TestSuite) : Prop where
  config : PlicSystem.SameConfig setupSystem t.plic
  signals : ∀ b s, IsSource s → t.plic.pending b s = true → t.point.Began ∧ b = .c0c1 ∧
    ∃ tile, (1 ≤ tile ∧ tile < numTiles) ∧ s = plicCalculateSourceId tile 0 irqMeshNode
  draining : ∀ cycles drain, t.point = .service cycles drain → drain.Claimless
  log : t.log = []
  disabled : t.point.stopping = true → t.plicEnabled = false
  unsent : ∀ tile, t.interruptsSent tile = 0
  processed : t.plicInterruptsProcessed = 0

/-- The invariant of the test suite. -/
structure LifeInv (t : TestSuite) : Prop where
  threads : ThreadsInv t
  suite : SuiteAt t.point t.suite
  irq : IrqInv t

theorem lifeInv_afterSetup {st : HalSystem} (ready : HalReady st) : LifeInv (afterSetup st) where
  threads :=
    { fromOne := trivial
      threads := fun _ _ _ => rfl
      outside := fun _ _ => rfl
      tasks := fun _ => rfl
      silent := fun _ h => ThreadPoint.noConfusion h }
  suite := .of_before ready rfl
  irq :=
    { config := .refl _
      signals := fun b s _ h =>
        absurd ((pending_setupSystem b s).symm.trans h) Bool.false_ne_true
      draining := fun _ _ h => SuitePoint.noConfusion h
      log := rfl
      disabled := fun h => absurd h Bool.false_ne_true
      unsent := fun _ => rfl
      processed := rfl }

/-! ### Steps of the threads -/

/-- A thread makes a step of its own. -/
theorem ThreadsInv.moves (inv : ThreadsInv t) (moves : (t.threads id).Moves thread)
    (point : t'.point = t.point) (threads : t'.threads = Function.update t.threads id thread)
    (others : ∀ tile, tile ≠ id → t'.suite.run.sys.tiles tile = t.suite.run.sys.tiles tile)
    (allows : thread.point.Allows (t'.suite.run.sys.tiles id).pc)
    (silent : thread.point ≠ .notifying) : ThreadsInv t' where
  fromOne := point ▸ inv.fromOne
  threads tile hpos hlt := by
    rw [point, threads]
    by_cases htile : tile = id
    · rw [htile, Function.update_self]
      exact (htile ▸ inv.threads tile hpos hlt).moves moves
    · rw [Function.update_of_ne htile]
      exact inv.threads tile hpos hlt
  outside tile hout := by
    have hne : tile ≠ id := by
      rintro rfl
      rw [inv.outside tile hout] at moves
      exact ProcessorThread.not_moves_absent rfl moves
    rw [threads, Function.update_of_ne hne]
    exact inv.outside tile hout
  tasks tile := by
    rw [threads]
    by_cases htile : tile = id
    · rw [htile, Function.update_self]
      exact allows
    · rw [Function.update_of_ne htile, others tile htile]
      exact inv.tasks tile
  silent tile := by
    rw [threads]
    by_cases htile : tile = id
    · rw [htile, Function.update_self]
      exact silent
    · rw [Function.update_of_ne htile]
      exact inv.silent tile

/-- A thread that exists is one of a tile `1, …, 7`. -/
theorem ThreadsInv.valid (inv : ThreadsInv t) (there : (t.threads id).point ≠ .absent) :
    1 ≤ id ∧ id < numTiles := by
  by_contra hout
  rw [inv.outside id hout] at there
  exact there rfl

theorem IrqInv.clear (inv : IrqInv t) (unbegun : ¬ t.point.Began) (b : PlicBlock) (s : ℕ)
    (hs : IsSource s) : t.plic.pending b s = false := by
  by_contra hpending
  exact unbegun (inv.signals b s hs (Bool.not_eq_false _ ▸ hpending)).1

/-- What the interrupts depend on. -/
theorem IrqInv.congr (inv : IrqInv t) (point : t'.point = t.point) (plic : t'.plic = t.plic)
    (log : t'.log = t.log) (enabled : t'.plicEnabled = t.plicEnabled)
    (sent : t'.interruptsSent = t.interruptsSent)
    (processed : t'.plicInterruptsProcessed = t.plicInterruptsProcessed) : IrqInv t' where
  config := plic ▸ inv.config
  signals := by
    rw [point, plic]
    exact inv.signals
  draining := by
    rw [point]
    exact inv.draining
  log := log.trans inv.log
  disabled := by
    rw [point, enabled]
    exact inv.disabled
  unsent tile := by
    rw [sent]
    exact inv.unsent tile
  processed := processed.trans inv.processed

/-- The initialisation of a thread finds the tile as it leaves it. -/
theorem suite_initialise (untouched : t.suite.run = {}) : (t.initialise id).suite = t.suite := by
  have hsys : t.suite.run.sys.setTile id { t.suite.run.sys.tiles id with
      idle := true, tasksCompleted := 0, taskPending := false, currentTask := none } =
        t.suite.run.sys := by
    rw [untouched]
    change TaskSystem.setTile {} id {} = {}
    unfold TaskSystem.setTile
    rw [Function.update_eq_self_iff.mpr rfl]
  simp only [initialise, hsys]

theorem interruptsSent_initialise (unsent : t.interruptsSent id = 0) :
    (t.initialise id).interruptsSent = t.interruptsSent :=
  Function.update_eq_self_iff.mpr unsent.symm

/-- From its task a tile gets to the flag, which its thread is to signal first. -/
theorem pc_step_setResult {r : SuiteRun} {slot : ℕ} {value : ℤ}
    (valid : 1 ≤ id ∧ id < r.run.sys.nodeCount)
    (setting : (r.run.sys.tiles id).pc = .setResult slot value) :
    ((r.step (.tile id first u)).run.sys.tiles id).pc = .flag slot := by
  simp only [SuiteRun.step, if_pos valid, SuiteRun.stepTile, setting, HalRun.step, TaskSystem.step,
    TaskSystem.stepTile, setPc, setTile_tiles, Function.update_self]

theorem inLoop_loopPoint (before after : TilePc) : (loopPoint before after).inLoop = true := by
  unfold loopPoint
  split <;> rfl

theorem loopPoint_allows {before after : TilePc}
    (signals : ∀ slot value, before = .setResult slot value → after = .flag slot) :
    (loopPoint before after).Allows after := by
  unfold loopPoint
  split
  · next slot value => exact ⟨slot, signals slot value rfl⟩
  · rfl
  · trivial

theorem loopPoint_ne_notifying (before after : TilePc) : loopPoint before after ≠ .notifying := by
  intro h
  have hloop := inLoop_loopPoint before after
  rw [h] at hloop
  exact absurd hloop Bool.false_ne_true

/-- A step of a thread in its loop. -/
theorem LifeInv.stepLoop (inv : LifeInv t) (loop : (t.threads id).point = .loop)
    (allocates : u.Allocates) : LifeInv (t.stepLoop id first u) where
  threads := by
    have hvalid : 1 ≤ id ∧ id < t.suite.run.sys.nodeCount := by
      rw [inv.suite.nodeCount]
      exact inv.threads.valid (by rw [loop]; decide)
    have hmoves (before after : TilePc) :
        (t.threads id).Moves { t.threads id with point := loopPoint before after } :=
      .goes (by rw [loop]; rfl) (inLoop_loopPoint before after) rfl
    refine inv.threads.moves (hmoves _ _) rfl rfl
      (fun tile htile => SuiteAt.others_step_tile t.suite htile) (loopPoint_allows ?_)
      (loopPoint_ne_notifying _ _)
    intro slot value hsetting
    exact pc_step_setResult hvalid hsetting
  suite := inv.suite.stepTile allocates
  irq := inv.irq.congr rfl rfl rfl rfl rfl rfl

/-- A thread moves on to a point, and touches neither its task nor the interrupts. -/
theorem LifeInv.setPoint (inv : LifeInv t) (point : ThreadPoint)
    (moves : (t.threads id).Moves { t.threads id with point := point })
    (allows : point.Allows (t.suite.run.sys.tiles id).pc) (silent : point ≠ .notifying)
    (stats : ℕ → TileStats) :
    LifeInv { t.setThread id { t.threads id with point := point } with stats := stats } where
  threads := inv.threads.moves moves rfl rfl (fun _ _ => rfl) allows silent
  suite := inv.suite
  irq := inv.irq.congr rfl rfl rfl rfl rfl rfl

/-- After the trigger of a tile. -/
theorem pending_signal (plic : PlicSystem) (valid : 1 ≤ id ∧ id < numTiles) (b : PlicBlock)
    {s : ℕ} (hs : IsSource s) : (plic.triggerInterrupt id 0).2.pending b s =
      if b = .c0c1 ∧ s / 32 = plicCalculateSourceId id 0 irqMeshNode / 32 then
        decide (s = plicCalculateSourceId id 0 irqMeshNode)
      else plic.pending b s :=
  PlicSystem.pending_trigger (FinishingSystem.accepts_signal valid) hs

/-- A tile signals C0 in the distributed run. -/
theorem IrqInv.signal (inv : IrqInv t) (began : t.point.Began) (valid : 1 ≤ id ∧ id < numTiles) :
    IrqInv { t.setThread id thread with plic := (t.plic.triggerInterrupt id 0).2 } where
  config := inv.config.trans PlicSystem.sameConfig_trigger
  signals b s hs hpending := by
    change (t.plic.triggerInterrupt id 0).2.pending b s = true at hpending
    rw [pending_signal t.plic valid b hs] at hpending
    split_ifs at hpending with hword
    · exact ⟨began, hword.1, id, valid, of_decide_eq_true hpending⟩
    · exact inv.signals b s hs hpending
  draining := inv.draining
  log := inv.log
  disabled := inv.disabled
  unsent := inv.unsent
  processed := inv.processed

/-- Only in the distributed run and behind it does a tile have a task. -/
theorem LifeInv.began_of_busy (inv : LifeInv t) (busy : (t.suite.run.sys.tiles id).pc ≠ .poll) :
    t.point.Began := by
  by_contra unbegun
  rw [inv.suite.untouched unbegun] at busy
  exact busy rfl

/-- A step of a thread. -/
theorem LifeInv.stepThread (inv : LifeInv t) (allocates : u.Allocates) :
    LifeInv (t.stepThread id first u) := by
  have htask := inv.threads.tasks id
  cases point : (t.threads id).point with
  | absent | exited =>
    simp only [TestSuite.stepThread, point]
    exact inv
  | created =>
    rw [point] at htask
    simp only [TestSuite.stepThread, point]
    have hvalid := inv.threads.valid (by rw [point]; decide)
    have hunbegun := (inv.threads.threads id hvalid.1 hvalid.2).unbegun point
    have hsuite : (t.initialise id).suite = t.suite :=
      suite_initialise (inv.suite.untouched hunbegun)
    have hsent := interruptsSent_initialise (inv.irq.unsent id)
    refine ⟨?_, ?_, inv.irq.congr rfl rfl rfl rfl hsent rfl⟩
    · refine inv.threads.moves (.begins point rfl) rfl rfl (fun _ _ => by rw [hsuite]) ?_
        (by decide)
      rw [hsuite]
      exact htask
    · change SuiteAt t.point (t.initialise id).suite
      rw [hsuite]
      exact inv.suite
  | registering =>
    simp only [TestSuite.stepThread, point]
    exact inv.setPoint .loop (.goes (by rw [point]; rfl) rfl rfl) trivial (by decide) _
  | loop =>
    simp only [TestSuite.stepThread, point]
    exact inv.stepLoop point allocates
  | signal =>
    rw [point] at htask
    simp only [TestSuite.stepThread, point]
    obtain ⟨slot, hflag⟩ := htask
    have hbusy : (t.suite.run.sys.tiles id).pc ≠ .poll := by
      rw [hflag]
      exact TilePc.noConfusion
    have hvalid := inv.threads.valid (by rw [point]; decide)
    refine ⟨?_, inv.suite, inv.irq.signal (inv.began_of_busy hbusy) hvalid⟩
    exact inv.threads.moves (.goes (by rw [point]; rfl) rfl rfl) rfl rfl (fun _ _ => rfl) trivial
      ThreadPoint.noConfusion
  | check =>
    rw [point] at htask
    simp only [TestSuite.stepThread, point]
    by_cases hrunning : (t.threads id).running = true
    · rw [if_pos hrunning]
      exact inv.setPoint .loop (.goes (by rw [point]; rfl) rfl rfl) trivial (by decide) _
    · rw [if_neg hrunning]
      refine inv.setPoint .leaving ?_ htask (by decide) _
      exact .leaves (Or.inl (Bool.not_eq_true _ ▸ hrunning)) (by rw [point]; rfl)
        (by rw [point]; decide) rfl rfl
  | leaving =>
    rw [point] at htask
    simp only [TestSuite.stepThread, point]
    have hvalid := inv.threads.valid (by rw [point]; decide)
    have hout : (t.threads id).point.inLoop = false := by rw [point]; rfl
    have hstopping := (inv.threads.threads id hvalid.1 hvalid.2).stopping_of_out
      (by rw [point]; rfl) (Or.inr hout)
    -- the interrupts are disabled before the first flag is cleared
    have hdisabled : ¬ t.plicEnabled = true := by
      rw [inv.irq.disabled hstopping]
      exact Bool.false_ne_true
    rw [if_neg hdisabled]
    refine inv.setPoint .exited ?_ htask (by decide) _
    exact .leaves (Or.inr hout) (by rw [point]; rfl) (by rw [point]; decide) rfl rfl
  | notifying => exact absurd point (inv.threads.silent id)

/-! ### Steps of C0 -/

variable {granted : Bool} {w : ℕ → Uninitialised}

/-- C0 goes on, and the threads stay where they are. -/
theorem ThreadsInv.goes (inv : ThreadsInv t) (threads : t'.threads = t.threads)
    (tiles : t'.suite.run.sys.tiles = t.suite.run.sys.tiles) (fromOne : t'.point.FromOne)
    (expects : ∀ tile, 1 ≤ tile ∧ tile < numTiles → t.point.Expects tile (t.threads tile) →
      t'.point.Expects tile (t.threads tile)) : ThreadsInv t' where
  fromOne := fromOne
  threads tile hpos hlt := by
    rw [threads]
    exact expects tile ⟨hpos, hlt⟩ (inv.threads tile hpos hlt)
  outside tile hout := by
    rw [threads]
    exact inv.outside tile hout
  tasks tile := by
    rw [threads, tiles]
    exact inv.tasks tile
  silent tile := by
    rw [threads]
    exact inv.silent tile

/-- C0 changes one thread, which stays where its tile is. -/
theorem ThreadsInv.sets (inv : ThreadsInv t) (valid : 1 ≤ id ∧ id < numTiles)
    (threads : t'.threads = Function.update t.threads id thread)
    (tiles : t'.suite.run.sys.tiles = t.suite.run.sys.tiles) (fromOne : t'.point.FromOne)
    (expects : ∀ tile, tile ≠ id → t.point.Expects tile (t.threads tile) →
      t'.point.Expects tile (t.threads tile)) (set : t'.point.Expects id thread)
    (allows : thread.point.Allows (t.suite.run.sys.tiles id).pc)
    (silent : thread.point ≠ .notifying) : ThreadsInv t' where
  fromOne := fromOne
  threads tile hpos hlt := by
    rw [threads]
    by_cases htile : tile = id
    · rw [htile, Function.update_self]
      exact set
    · rw [Function.update_of_ne htile]
      exact expects tile htile (inv.threads tile hpos hlt)
  outside tile hout := by
    have hne : tile ≠ id := fun h => hout (h ▸ valid)
    rw [threads, Function.update_of_ne hne]
    exact inv.outside tile hout
  tasks tile := by
    rw [threads, tiles]
    by_cases htile : tile = id
    · rw [htile, Function.update_self]
      exact allows
    · rw [Function.update_of_ne htile]
      exact inv.tasks tile
  silent tile := by
    rw [threads]
    by_cases htile : tile = id
    · rw [htile, Function.update_self]
      exact silent
    · rw [Function.update_of_ne htile]
      exact inv.silent tile

/-- C0 goes on outside the service of interrupts. -/
theorem IrqInv.goes (inv : IrqInv t) (plic : t'.plic = t.plic) (log : t'.log = t.log)
    (sent : t'.interruptsSent = t.interruptsSent) (processed : t'.plicInterruptsProcessed = 0)
    (began : t.point.Began → t'.point.Began)
    (outside : ∀ cycles drain, t'.point ≠ .service cycles drain)
    (disabled : t'.point.stopping = true → t'.plicEnabled = false) : IrqInv t' where
  config := plic ▸ inv.config
  signals b s hs hpending := by
    rw [plic] at hpending
    exact (inv.signals b s hs hpending).imp_left began
  draining cycles drain h := absurd h (outside cycles drain)
  log := log.trans inv.log
  disabled := disabled
  unsent tile := by
    rw [sent]
    exact inv.unsent tile
  processed := processed

/-- Before the distributed run nothing is there for C0 to set back. -/
theorem suite_startTileThreads (inv : LifeInv t) (start : t.point = .start) (granted : Bool)
    (w : ℕ → Uninitialised) : (t.startTileThreads granted w).suite = t.suite := by
  obtain ⟨st, -, hsuite⟩ := inv.suite.before (by rw [start]; rfl)
  cases granted <;> simp only [startTileThreads, runAlone, hsuite] <;> rfl

theorem LifeInv.startTileThreads (inv : LifeInv t) (start : t.point = .start) :
    LifeInv (t.startTileThreads granted w) := by
  have hsuite := suite_startTileThreads inv start granted w
  have hbefore : t.point.before = true := by rw [start]; rfl
  have hunbegun := SuitePoint.not_began hbefore
  have htiles := congrArg (fun r : SuiteRun => r.run.sys.tiles) hsuite
  have hnone : ∀ tile, t.point.Expects tile (t.threads tile) → t.threads tile = {} := by
    rw [start]
    exact fun _ h => h
  cases granted with
  | true =>
    refine ⟨inv.threads.goes rfl htiles le_rfl fun tile hvalid h => ?_, ?_, ?_⟩
    · exact ⟨fun hlt => absurd hlt (Nat.not_lt.mpr hvalid.1), fun _ => hnone tile h⟩
    · rw [hsuite]
      exact inv.suite.goes hbefore rfl
    · exact inv.irq.goes rfl rfl rfl inv.irq.processed (fun h => absurd h hunbegun)
        (fun _ _ => SuitePoint.noConfusion) fun h => absurd h Bool.false_ne_true
  | false =>
    refine ⟨inv.threads.goes rfl htiles trivial fun tile _ h => Or.inl (hnone tile h), ?_, ?_⟩
    · rw [hsuite]
      exact inv.suite.runAlone hbefore
    · exact inv.irq.goes rfl rfl rfl inv.irq.processed (fun h => absurd h hunbegun)
        (fun _ _ => SuitePoint.noConfusion) fun h => absurd h Bool.false_ne_true

/-- C0 creates a thread, or is not granted it, or has created all of them. -/
theorem LifeInv.create (inv : LifeInv t) {i : ℕ} (create : t.point = .create i) :
    LifeInv (t.stepC0 granted first w) := by
  have hbefore : t.point.before = true := by rw [create]; rfl
  have hunbegun := SuitePoint.not_began hbefore
  have hone : 1 ≤ i := by
    have h := inv.threads.fromOne
    rwa [create] at h
  have hexpects : ∀ tile, t.point.Expects tile (t.threads tile) →
      (tile < i → (t.threads tile).Starting) ∧ (i ≤ tile → t.threads tile = {}) := by
    rw [create]
    exact fun _ h => h
  have hnodes : t.nodeCount = numTiles := inv.suite.nodeCount
  simp only [TestSuite.stepC0, create, hnodes]
  split_ifs with hlt hgranted
  · have hvalid : 1 ≤ i ∧ i < numTiles := ⟨hone, hlt⟩
    have hthreads : ((t.setThread i ⟨(t.threads i).point, false, false⟩).setThread i
        ⟨.created, false, false⟩).threads = Function.update t.threads i ⟨.created, false, false⟩ :=
      Function.update_idem ..
    have habsent : t.threads i = {} :=
      (hexpects i (inv.threads.threads i hone hlt)).2 le_rfl
    have hpoll : (t.suite.run.sys.tiles i).pc = .poll := by
      have htask := inv.threads.tasks i
      rwa [habsent] at htask
    refine ⟨?_, inv.suite.goes hbefore rfl, ?_⟩
    · refine inv.threads.sets hvalid hthreads rfl (Nat.le_succ_of_le hone) (fun tile hne h => ?_)
        ⟨fun _ => Or.inl rfl, fun hle => absurd hle (Nat.not_succ_le_self i)⟩ hpoll
        ThreadPoint.noConfusion
      exact ⟨fun hlt' => (hexpects tile h).1 (by omega), fun hle => (hexpects tile h).2 (by omega)⟩
    · exact inv.irq.goes rfl rfl rfl inv.irq.processed (fun h => absurd h hunbegun)
        (fun _ _ => SuitePoint.noConfusion) fun h => absurd h Bool.false_ne_true
  · have hvalid : 1 ≤ i ∧ i < numTiles := ⟨hone, hlt⟩
    have habsent : t.threads i = {} :=
      (hexpects i (inv.threads.threads i hone hlt)).2 le_rfl
    refine ⟨?_, inv.suite.runAlone hbefore, ?_⟩
    · refine inv.threads.sets hvalid rfl rfl trivial (fun tile hne h => ?_) ?_ ?_ ?_
      · rcases Nat.lt_or_ge tile i with hlt' | hge
        · exact Or.inr ((hexpects tile h).1 hlt')
        · exact Or.inl ((hexpects tile h).2 hge)
      · rw [habsent]
        exact Or.inl rfl
      · exact inv.threads.tasks i
      · exact inv.threads.silent i
    · exact inv.irq.goes rfl rfl rfl inv.irq.processed (fun h => absurd h hunbegun)
        (fun _ _ => SuitePoint.noConfusion) fun h => absurd h Bool.false_ne_true
  · refine ⟨inv.threads.goes rfl rfl le_rfl fun tile hvalid h => ?_, inv.suite.goes hbefore rfl, ?_⟩
    · exact ⟨(hexpects tile h).1 (by omega), fun hlt' => absurd hlt' (by omega)⟩
    · exact inv.irq.goes rfl rfl rfl inv.irq.processed (fun h => absurd h hunbegun)
        (fun _ _ => SuitePoint.noConfusion) fun h => absurd h Bool.false_ne_true

/-- C0 waits for the next thread, or all of them are initialised. -/
theorem LifeInv.await (inv : LifeInv t) {i : ℕ} (await : t.point = .await i) :
    LifeInv (t.stepC0 granted first w) := by
  have hbefore : t.point.before = true := by rw [await]; rfl
  have hunbegun := SuitePoint.not_began hbefore
  have hone : 1 ≤ i := by
    have h := inv.threads.fromOne
    rwa [await] at h
  have hexpects : ∀ tile, t.point.Expects tile (t.threads tile) →
      (t.threads tile).Starting ∧ (tile < i → (t.threads tile).Live) := by
    rw [await]
    exact fun _ h => h
  have hnodes : t.nodeCount = numTiles := inv.suite.nodeCount
  have hirq {point : SuitePoint} (outside : ∀ cycles drain, point ≠ .service cycles drain)
      (notStopping : point.stopping = false) : IrqInv { t with point := point } :=
    inv.irq.goes rfl rfl rfl inv.irq.processed (fun h => absurd h hunbegun) outside
      fun h => absurd (h.symm.trans notStopping) Bool.true_eq_false.mp
  simp only [TestSuite.stepC0, await, hnodes]
  split_ifs with hlt hready
  · refine ⟨inv.threads.goes rfl rfl (Nat.le_succ_of_le hone) fun tile hvalid h => ?_,
      inv.suite.goes hbefore rfl, hirq (fun _ _ => SuitePoint.noConfusion) rfl⟩
    obtain ⟨hstarting, hlive⟩ := hexpects tile h
    refine ⟨hstarting, fun hlt' => ?_⟩
    rcases Nat.lt_succ_iff_lt_or_eq.mp hlt' with hless | rfl
    · exact hlive hless
    · rcases hstarting with hcreated | hlive
      · rw [hcreated] at hready
        exact absurd hready Bool.false_ne_true
      · exact hlive
  · exact inv
  · refine ⟨inv.threads.goes rfl rfl trivial fun tile hvalid h => ?_, inv.suite.goes hbefore rfl,
      hirq (fun _ _ => SuitePoint.noConfusion) rfl⟩
    exact (hexpects tile h).2 (by omega)

/-- A step of the service of interrupts when none is pending: nothing is claimed, and behind the
claim the service is over. -/
theorem serve_eq (clear : ∀ b s, IsSource s → t.plic.pending b s = false) {drain : DrainPoint}
    (claimless : drain.Claimless) (cycles : ℕ) : ∃ plic drain',
      t.serve cycles drain = { t with plic := plic, point := .service cycles drain' } ∧
        (drain'.Claimless ∧ ∀ call, drain = .claim call → ∃ returned, drain' = .outside returned) ∧
          PlicSystem.SameConfig t.plic plic ∧ ∀ b s, IsSource s → plic.pending b s = false := by
  cases drain with
  | outside returned =>
    have hselect : t.c0State.plic.plicSelect 0 = (some .c0c1, 0) :=
      PlicState.plicSelect_eq t.c0State.plic.selected (by decide)
    refine ⟨t.plic, .claim ⟨.c0c1, 0, 0⟩, ?_, ⟨⟨rfl, rfl⟩, fun _ => DrainPoint.noConfusion⟩,
      .refl _, clear⟩
    simp only [serve, drainStep, hselect]
    rfl
  | claim call =>
    obtain ⟨plic, targetLocal, processed⟩ := call
    obtain ⟨rfl, rfl⟩ : plic = .c0c1 ∧ targetLocal = 0 := claimless
    have hzero : ¬ 0 < t.c0State.claim.1 := by
      intro hpos
      obtain ⟨⟨hsource, heligible⟩, -⟩ := C0State.eligible_of_claim hpos
      have hpending := (PlicRegDef.eligible_iff.mp heligible).1
      exact absurd ((clear .c0c1 _ hsource).symm.trans hpending) Bool.false_ne_true
    refine ⟨t.c0State.claim.2.plic, .outside processed, ?_,
      ⟨trivial, fun _ _ => ⟨processed, rfl⟩⟩, PlicSystem.sameConfig_claim, fun b s hs => ?_⟩
    · have hclaim : t.c0State.claimRead .c0c1 0 = t.c0State.claim := rfl
      simp only [serve, drainStep, hclaim, if_neg hzero]
      rfl
    · have hpending : t.c0State.claim.2.plic.pending b s = _ := PlicSystem.pending_claim hs
      rw [hpending, show t.c0State.plic.pending b s = false from clear b s hs, Bool.false_and]
  | handle call claimId => exact claimless.elim
  | complete call claimId => exact claimless.elim

/-- C0 supervises: whatever it finds, it goes on, and no interrupt is there to be served. -/
theorem LifeInv.supervising (inv : LifeInv t) (point : SuitePoint) {plic : PlicSystem}
    (before : t.point.before = true) (before' : point.before = true)
    (live : ∀ tile, t.point.Expects tile (t.threads tile) → (t.threads tile).Live)
    (expects : ∀ tile, (t.threads tile).Live → point.Expects tile (t.threads tile))
    (fromOne : point.FromOne) (notStopping : point.stopping = false)
    (config : PlicSystem.SameConfig t.plic plic)
    (clear : ∀ b s, IsSource s → plic.pending b s = false)
    (draining : ∀ cycles drain, point = .service cycles drain → drain.Claimless) (enabled : Bool)
    {processed : ℕ} (none : processed = 0) :
    LifeInv { t with
      plic := plic, plicEnabled := enabled, plicInterruptsProcessed := processed,
      point := point } where
  threads := inv.threads.goes rfl rfl fromOne fun tile _ h => expects tile (live tile h)
  suite := inv.suite.goes before before'
  irq :=
    { config := inv.irq.config.trans config
      signals := fun b s hs h => absurd ((clear b s hs).symm.trans h) Bool.false_ne_true
      draining := draining
      log := inv.irq.log
      disabled := fun h => absurd (h.symm.trans notStopping) Bool.true_eq_false.mp
      unsent := inv.irq.unsent
      processed := none }

/-- C0 enables the interrupts. -/
theorem LifeInv.enable (inv : LifeInv t) (enable : t.point = .enable) :
    LifeInv (t.stepC0 granted first w) := by
  have hbefore : t.point.before = true := by rw [enable]; rfl
  have hunbegun := SuitePoint.not_began hbefore
  simp only [TestSuite.stepC0, enable]
  exact inv.supervising (.supervise 0) hbefore rfl (fun tile h => by rwa [enable] at h)
    (fun _ h => h) trivial rfl (.refl _) (inv.irq.clear hunbegun)
    (fun _ _ => SuitePoint.noConfusion) true rfl

/-- C0 in its service of interrupts. -/
theorem LifeInv.serve (inv : LifeInv t) {drain : DrainPoint} (before : t.point.before = true)
    (live : ∀ tile, t.point.Expects tile (t.threads tile) → (t.threads tile).Live)
    (claimless : drain.Claimless) (cycles : ℕ) : LifeInv (t.serve cycles drain) := by
  obtain ⟨plic, drain', hserve, ⟨hclaimless, -⟩, hconfig, hclear⟩ :=
    serve_eq (inv.irq.clear (SuitePoint.not_began before)) claimless cycles
  rw [hserve]
  exact inv.supervising (.service cycles drain') before rfl live (fun _ h => h) trivial rfl hconfig
    hclear (fun _ _ h => (SuitePoint.service.inj h).2 ▸ hclaimless) t.plicEnabled inv.irq.processed

/-- C0 at the head of the loop in which it supervises the tiles, and in it. -/
theorem LifeInv.supervise (inv : LifeInv t) {cycles : ℕ} (supervise : t.point = .supervise cycles) :
    LifeInv (t.stepC0 granted first w) := by
  have hbefore : t.point.before = true := by rw [supervise]; rfl
  have hlive : ∀ tile, t.point.Expects tile (t.threads tile) → (t.threads tile).Live :=
    fun tile h => by rwa [supervise] at h
  simp only [TestSuite.stepC0, supervise]
  have hclaimless : DrainPoint.Claimless (.outside 0) := trivial
  split_ifs
  · exact inv.serve hbefore hlive hclaimless cycles
  · obtain ⟨st, ready, hsuite⟩ := inv.suite.before hbefore
    refine ⟨inv.threads.goes rfl rfl trivial fun tile _ h => hlive tile h, ?_, ?_⟩
    · rw [hsuite]
      exact .of_tests (.start ready (w 0))
    · exact inv.irq.goes rfl rfl rfl inv.irq.processed (fun _ => Or.inl rfl)
        (fun _ _ => SuitePoint.noConfusion) fun h => absurd h Bool.false_ne_true

theorem LifeInv.service (inv : LifeInv t) {cycles : ℕ} {drain : DrainPoint}
    (service : t.point = .service cycles drain) : LifeInv (t.stepC0 granted first w) := by
  have hbefore : t.point.before = true := by rw [service]; rfl
  have hunbegun := SuitePoint.not_began hbefore
  have hlive : ∀ tile, t.point.Expects tile (t.threads tile) → (t.threads tile).Live :=
    fun tile h => by rwa [service] at h
  have hclaimless := inv.irq.draining cycles drain service
  cases drain with
  | outside returned =>
    simp only [TestSuite.stepC0, service]
    exact inv.supervising (.supervise (cycles + 1)) hbefore rfl hlive (fun _ h => h) trivial rfl
      (.refl _) (inv.irq.clear hunbegun) (fun _ _ => SuitePoint.noConfusion) t.plicEnabled
      inv.irq.processed
  | claim call =>
    simp only [TestSuite.stepC0, service]
    exact inv.serve hbefore hlive hclaimless cycles
  | handle call claimId => exact hclaimless.elim
  | complete call claimId => exact hclaimless.elim

/-- C0 leaves the tiles alone. -/
theorem tiles_stepC0 {r : SuiteRun} (inv : r.SuiteInv) (quiet : r.Quiet) (first : Bool)
    (u : Uninitialised) : (r.stepC0 first u).run.sys.tiles = r.run.sys.tiles := by
  rcases SuiteRun.stepC0_run inv quiet first u with hrun | ⟨hrun, -⟩
  · rw [hrun]
  · rw [hrun]
    exact (HalRun.stepC0_tiles r.run).1

/-- C0 in the distributed run, or at its end. -/
theorem LifeInv.tests (inv : LifeInv t) (tests : t.point = .tests) (quiet : t.Quiet)
    (allocates : (w 0).Allocates) : LifeInv (t.stepC0 granted first w) := by
  have hprogress := inv.suite.during tests
  have hlive : ∀ tile, t.point.Expects tile (t.threads tile) → (t.threads tile).Live :=
    fun tile h => by rwa [tests] at h
  have hirq (t' : TestSuite) (hpoint : t'.point = .tests ∨ t'.point = .disable)
      (hplic : t'.plic = t.plic) (hlog : t'.log = t.log)
      (hsent : t'.interruptsSent = t.interruptsSent)
      (hprocessed : t'.plicInterruptsProcessed = t.plicInterruptsProcessed) : IrqInv t' := by
    refine inv.irq.goes hplic hlog hsent (hprocessed.trans inv.irq.processed) ?_ ?_ ?_
    · exact fun _ => hpoint.imp_right fun h => by rw [h]; rfl
    · rcases hpoint with h | h <;> rw [h] <;> exact fun _ _ => SuitePoint.noConfusion
    · rcases hpoint with h | h <;> rw [h] <;> exact fun h => absurd h Bool.false_ne_true
  simp only [TestSuite.stepC0, tests]
  split_ifs with hfinished
  · refine ⟨inv.threads.goes rfl rfl trivial fun tile _ h => hlive tile h, ?_,
      hirq _ (Or.inr rfl) rfl rfl rfl rfl⟩
    exact .of_behind rfl hprogress hfinished
  · have hquiet := quiet tests
    have htiles := tiles_stepC0 hprogress.toSuiteInv hquiet first (w 0)
    have hstep : SuiteRun.ProgressInv (t.suite.step (.c0 first (w 0))) :=
      hprogress.step ⟨allocates, fun _ _ _ => hquiet⟩
    exact ⟨inv.threads.goes rfl htiles trivial fun tile _ h => hlive tile h, .of_tests hstep,
      hirq _ (Or.inl rfl) rfl rfl rfl rfl⟩

/-- The interrupts behind the distributed run, once they are disabled. -/
theorem IrqInv.stays (inv : IrqInv t) (behind : t'.point.behind = true) (plic : t'.plic = t.plic)
    (log : t'.log = t.log) (sent : t'.interruptsSent = t.interruptsSent)
    (processed : t'.plicInterruptsProcessed = t.plicInterruptsProcessed)
    (disabled : t'.plicEnabled = false) : IrqInv t' := by
  refine inv.goes plic log sent (processed.trans inv.processed) (fun _ => Or.inr behind)
    (fun _ _ h => ?_) fun _ => disabled
  rw [h] at behind
  exact absurd behind Bool.false_ne_true

theorem LifeInv.disable (inv : LifeInv t) (disable : t.point = .disable) :
    LifeInv (t.stepC0 granted first w) := by
  simp only [TestSuite.stepC0, disable]
  refine ⟨inv.threads.goes rfl rfl le_rfl fun tile hvalid h => ?_,
    inv.suite.stays (by rw [disable]; rfl) rfl, inv.irq.stays rfl rfl rfl rfl rfl rfl⟩
  rw [disable] at h
  exact ⟨fun hlt => absurd hlt (Nat.not_lt.mpr hvalid.1), fun _ => h⟩

/-- C0 clears the next flag. -/
theorem LifeInv.stop (inv : LifeInv t) {i : ℕ} (stop : t.point = .stop i) :
    LifeInv (t.stepC0 granted first w) := by
  have hbehind : t.point.behind = true := by rw [stop]; rfl
  have hdisabled : t.plicEnabled = false := inv.irq.disabled (by rw [stop]; rfl)
  have hone : 1 ≤ i := by
    have h := inv.threads.fromOne
    rwa [stop] at h
  have hexpects : ∀ tile, t.point.Expects tile (t.threads tile) →
      (tile < i → (t.threads tile).Stopping) ∧ (i ≤ tile → (t.threads tile).Live) := by
    rw [stop]
    exact fun _ h => h
  have hnodes : t.nodeCount = numTiles := inv.suite.nodeCount
  simp only [TestSuite.stepC0, stop, hnodes]
  split_ifs with hlt
  · refine ⟨?_, inv.suite.stays hbehind rfl, inv.irq.stays rfl rfl rfl rfl rfl hdisabled⟩
    refine inv.threads.sets ⟨hone, hlt⟩ rfl rfl (Nat.le_succ_of_le hone) (fun tile hne h => ?_)
      ?_ (inv.threads.tasks i) (inv.threads.silent i)
    · exact ⟨fun hlt' => (hexpects tile h).1 (by omega), fun hle => (hexpects tile h).2 (by omega)⟩
    · have hlive := (hexpects i (inv.threads.threads i hone hlt)).2 le_rfl
      exact ⟨fun _ => hlive.clear, fun hle => absurd hle (Nat.not_succ_le_self i)⟩
  · refine ⟨inv.threads.goes rfl rfl le_rfl fun tile hvalid h => ?_, inv.suite.stays hbehind rfl,
      inv.irq.stays rfl rfl rfl rfl rfl hdisabled⟩
    exact ⟨(hexpects tile h).1 (by omega), fun hlt' => absurd hlt' (by omega)⟩

/-- C0 waits for the next thread to end, or all of them have. -/
theorem LifeInv.join (inv : LifeInv t) {i : ℕ} (join : t.point = .join i) :
    LifeInv (t.stepC0 granted first w) := by
  have hbehind : t.point.behind = true := by rw [join]; rfl
  have hdisabled : t.plicEnabled = false := inv.irq.disabled (by rw [join]; rfl)
  have hone : 1 ≤ i := by
    have h := inv.threads.fromOne
    rwa [join] at h
  have hexpects : ∀ tile, t.point.Expects tile (t.threads tile) →
      (t.threads tile).Stopping ∧ (tile < i → (t.threads tile).point = .exited) := by
    rw [join]
    exact fun _ h => h
  have hnodes : t.nodeCount = numTiles := inv.suite.nodeCount
  simp only [TestSuite.stepC0, join, hnodes]
  split_ifs with hlt hexited
  · refine ⟨inv.threads.goes rfl rfl (Nat.le_succ_of_le hone) fun tile hvalid h => ?_,
      inv.suite.stays hbehind rfl, inv.irq.stays rfl rfl rfl rfl rfl hdisabled⟩
    obtain ⟨hstopping, hended⟩ := hexpects tile h
    refine ⟨hstopping, fun hlt' => ?_⟩
    rcases Nat.lt_succ_iff_lt_or_eq.mp hlt' with hless | rfl
    · exact hended hless
    · exact hexited
  · exact inv
  · refine ⟨inv.threads.goes rfl rfl trivial fun tile hvalid h => ?_, inv.suite.stays hbehind rfl,
      inv.irq.stays rfl rfl rfl rfl rfl hdisabled⟩
    exact ⟨(hexpects tile h).1, (hexpects tile h).2 (by omega)⟩

/-- C0 runs the tests alone. -/
theorem LifeInv.alone (inv : LifeInv t) {rest : HalClient (ℤ × ℤ)} (alone : t.point = .alone rest) :
    LifeInv (t.stepC0 granted first w) := by
  obtain ⟨hrun, hfree, hwp⟩ := inv.suite.alone rest alone
  have hexpects : ∀ tile, t.point.Expects tile (t.threads tile) →
      t.threads tile = {} ∨ (t.threads tile).Starting := by
    rw [alone]
    exact fun _ h => h
  simp only [TestSuite.stepC0, alone]
  cases hadvance : rest.advance HalRequest.exec first t.suite.session.shared with
  | none => exact inv
  | some out =>
    refine ⟨inv.threads.goes rfl rfl trivial fun tile _ h => hexpects tile h,
      .of_alone hrun hfree (Client.wp_advance hwp hadvance), ?_⟩
    exact inv.irq.goes rfl rfl rfl inv.irq.processed
      (fun h => absurd (alone ▸ h) SuitePoint.not_began_alone) (fun _ _ => SuitePoint.noConfusion)
      fun h => absurd h Bool.false_ne_true

/-! ### Runs -/

/-- A step of the test suite. -/
theorem LifeInv.step (inv : LifeInv t) {actor : ThreadActor} (meets : t.Meets actor) :
    LifeInv (t.step actor) := by
  cases actor with
  | tile id first u => exact inv.stepThread meets.1
  | c0 granted first w =>
    have hquiet := meets.2 granted first w rfl
    have hallocates : ∀ i, (w i).Allocates := meets.1
    simp only [TestSuite.step]
    cases point : t.point with
    | start =>
      simp only [TestSuite.stepC0, point]
      exact inv.startTileThreads point
    | create i => exact inv.create point
    | await i => exact inv.await point
    | enable => exact inv.enable point
    | supervise cycles => exact inv.supervise point
    | service cycles drain => exact inv.service point
    | tests => exact inv.tests point hquiet (hallocates 0)
    | disable => exact inv.disable point
    | stop i => exact inv.stop point
    | join i => exact inv.join point
    | returned =>
      simp only [TestSuite.stepC0, point]
      exact inv
    | alone rest => exact inv.alone point

theorem LifeInv.run_from {actors : List ThreadActor} (inv : LifeInv t)
    (each : EachStep TestSuite.step Meets t actors) : LifeInv (t.runFrom actors) := by
  induction actors generalizing t with
  | nil => exact inv
  | cons actor rest ih => exact ih (inv.step each.1) each.2

end TestSuite

end MeshNoc
