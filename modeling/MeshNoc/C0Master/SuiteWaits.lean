import MeshNoc.C0Master.SuiteThreads
import MeshNoc.Lib.Rounds

/-!
# The waits of the suite

C0 waits twice for the threads of the tiles: until all of them are initialised, and, behind the
distributed run, until all of them have ended. Whatever the order of the steps, each wait is over
after a number of rounds in each of which every thread makes a step.

## Main results

* `helped_start` — until C0 is past the first wait, every round brings it nearer
* `helped_end` — until C0 has returned, every round brings it nearer
-/

namespace MeshNoc

open Lib
open TaskSystem

/-- The thread of a step: the one of a tile, or C0's. -/
def ThreadActor.thread : ThreadActor → Option ℕ
  | c0 _ _ _ => none
  | tile id _ _ => some id

/-- C0 and the tiles. -/
def suiteThreads : Set (Option ℕ) := {thread | ∀ id ∈ thread, 1 ≤ id ∧ id < numTiles}

/-- Every thread makes a step. -/
def SuiteRound (round : List ThreadActor) : Prop := IsRound ThreadActor.thread suiteThreads round

/-- How far C0 is from the tests. -/
def SuitePoint.startRank : SuitePoint → ℕ
  | start => 26 + numTiles
  | create tile => 26 + (numTiles - tile)
  | await tile => 18 + (numTiles - tile)
  | enable => 17
  | supervise cycles => 3 * (5 - cycles) + 1
  | service cycles (.outside _) => 3 * (4 - cycles) + 2
  | service cycles _ => 3 * (4 - cycles) + 3
  | tests | disable | stop _ | join _ | returned | alone _ => 0

theorem SuitePoint.startRank_pos {point : SuitePoint} (before : point.before = true) :
    0 < point.startRank := by
  cases point with
  | start | create i | await i | enable | supervise cycles => simp [startRank]
  | service cycles drain => cases drain <;> simp [startRank]
  | tests | disable | stop i | join i | returned | alone rest =>
    exact absurd before Bool.false_ne_true

/-- How far C0 is from its return. -/
def SuitePoint.endRank : SuitePoint → ℕ
  | disable => 9 + numTiles
  | stop tile => 9 + (numTiles - tile)
  | join tile => 1 + (numTiles - tile)
  | start | create _ | await _ | enable | supervise _ | service _ _ | tests | returned
  | alone _ => 0

/-- How many steps a thread is away from its end once it has left its loop for it. -/
def ThreadPoint.rank : ThreadPoint → ℕ
  | exited => 0
  | notifying => 1
  | leaving => 2
  | check => 3
  | loop => 4
  | signal | registering => 5
  | created | absent => 6

theorem ThreadPoint.rank_le (point : ThreadPoint) : point.rank ≤ 6 := by
  cases point <;> decide

/-- A thread that is to go on has all its steps to the end before it. -/
def ProcessorThread.rank (thread : ProcessorThread) : ℕ :=
  if thread.running then 6 else thread.point.rank

namespace TestSuite

variable {t : TestSuite} {id : ℕ} {first granted : Bool} {u : Uninitialised}
  {w : ℕ → Uninitialised}

/-- The thread C0 waits for. -/
def awaited (t : TestSuite) : Option ℕ :=
  match t.point with
  | .await tile =>
    if tile < t.nodeCount ∧ (t.threads tile).initialized = false then some tile else none
  | .join tile =>
    if tile < t.nodeCount ∧ (t.threads tile).point ≠ .exited then some tile else none
  | _ => none

theorem awaited_mem (inv : LifeInv t) : t.awaited ∈ suiteThreads := by
  intro id hid
  have hone := inv.threads.fromOne
  have hnodes : t.nodeCount = numTiles := inv.suite.nodeCount
  unfold awaited at hid
  split at hid
  · next tile point =>
    rw [point] at hone
    split_ifs at hid with h
    · obtain rfl := Option.some.inj hid
      exact ⟨hone, hnodes ▸ h.1⟩
    · exact absurd hid (Option.not_mem_none id)
  · next tile point =>
    rw [point] at hone
    split_ifs at hid with h
    · obtain rfl := Option.some.inj hid
      exact ⟨hone, hnodes ▸ h.1⟩
    · exact absurd hid (Option.not_mem_none id)
  · exact absurd hid (Option.not_mem_none id)

/-- While C0 waits for a thread it does nothing. -/
theorem stepC0_of_awaited (waits : t.awaited = some id) : t.stepC0 granted first w = t := by
  unfold awaited at waits
  split at waits
  · next tile point =>
    split_ifs at waits with h
    simp only [TestSuite.stepC0, point, if_pos h.1, h.2, Bool.false_eq_true, if_false]
  · next tile point =>
    split_ifs at waits with h
    simp only [TestSuite.stepC0, point, if_pos h.1, if_neg h.2]
  · exact absurd waits.symm (Option.some_ne_none id)

/-! ### What a thread's step changes -/

theorem point_stepThread (t : TestSuite) (id : ℕ) (first : Bool) (u : Uninitialised) :
    (t.stepThread id first u).point = t.point := by
  cases point : (t.threads id).point <;> simp only [TestSuite.stepThread, point] <;> rfl

/-- Only the thread itself changes. -/
theorem others_stepThread (t : TestSuite) {tile : ℕ} (ne : tile ≠ id) (first : Bool)
    (u : Uninitialised) : (t.stepThread id first u).threads tile = t.threads tile := by
  cases point : (t.threads id).point <;> simp only [TestSuite.stepThread, point] <;>
    exact Function.update_of_ne ne ..

/-- A thread that has begun moves on to a point. -/
theorem self_stepThread (begun : (t.threads id).point.begun = true)
    (unfinished : (t.threads id).point ≠ .exited) (first : Bool) (u : Uninitialised) :
    ∃ point, (t.stepThread id first u).threads id = { t.threads id with point := point } := by
  cases point : (t.threads id).point with
  | absent | created =>
    rw [point] at begun
    exact absurd begun Bool.false_ne_true
  | exited => exact absurd point unfinished
  | registering | loop | signal | check | leaving | notifying =>
    simp only [TestSuite.stepThread, point]
    exact ⟨_, Function.update_self ..⟩

theorem stepThread_of_exited (exited : (t.threads id).point = .exited) :
    t.stepThread id first u = t := by
  simp only [TestSuite.stepThread, exited]

theorem initialized_stepThread
    (ready : (t.threads id).initialized = true ∨ (t.threads id).point = .created) :
    ((t.stepThread id first u).threads id).initialized = true := by
  cases point : (t.threads id).point with
  | created =>
    simp only [TestSuite.stepThread, point]
    change (Function.update t.threads id _ id).initialized = true
    rw [Function.update_self]
  | absent | exited =>
    simp only [TestSuite.stepThread, point]
    exact ready.resolve_right fun h => absurd (point.symm.trans h) (by decide)
  | registering | loop | signal | check | leaving | notifying =>
    obtain ⟨point', hself⟩ := self_stepThread (t := t) (by rw [point]; rfl)
      (by rw [point]; decide) first u
    rw [hself]
    exact ready.resolve_right fun h => absurd (point.symm.trans h) (by decide)

/-- A thread that C0 does not wait for does not change for whom it waits. -/
theorem awaited_stepThread (inv : LifeInv t) (allocates : u.Allocates)
    (ne : t.awaited ≠ some id) : (t.stepThread id first u).awaited = t.awaited := by
  have hnodes : (t.stepThread id first u).nodeCount = t.nodeCount :=
    (inv.stepThread allocates).suite.nodeCount.trans inv.suite.nodeCount.symm
  unfold awaited at ne ⊢
  rw [point_stepThread, hnodes]
  cases point : t.point with
  | await tile =>
    simp only [point] at ne ⊢
    refine if_congr (and_congr_right fun hlt => ?_) rfl rfl
    by_cases htile : tile = id
    · subst htile
      have hready : (t.threads tile).initialized = true := by
        by_contra h
        exact ne (if_pos ⟨hlt, Bool.not_eq_true _ ▸ h⟩)
      rw [initialized_stepThread (Or.inl hready), hready]
    · rw [others_stepThread t htile]
  | join tile =>
    simp only [point] at ne ⊢
    refine if_congr (and_congr_right fun hlt => ?_) rfl rfl
    by_cases htile : tile = id
    · subst htile
      have hexited : (t.threads tile).point = .exited := by
        by_contra h
        exact ne (if_pos ⟨hlt, h⟩)
      rw [stepThread_of_exited hexited]
    · rw [others_stepThread t htile]
  | _ => rfl

/-- What it takes for the suite to get on: C0, waiting for no thread, lowers the measure, and so
does the thread it waits for. -/
theorem helped {I : TestSuite → Prop} {measure : TestSuite → ℕ} (life : ∀ t, I t → LifeInv t)
    (keeps : ∀ t actor, I t → t.Meets actor → I (t.step actor))
    (c0 : ∀ t granted first w, I t → t.Quiet → t.awaited = none →
      measure (t.stepC0 granted first w) < measure t ∨
        measure (t.stepC0 granted first w) = 0)
    (own : ∀ t id first u, I t → 0 < measure t → t.awaited = some id →
      measure (t.stepThread id first u) < measure t)
    (others : ∀ t id first u, I t → measure (t.stepThread id first u) ≤ measure t) :
    Helped TestSuite.step Meets I ThreadActor.thread suiteThreads awaited measure where
  keeps := keeps
  mem t inv := awaited_mem (life t inv)
  le t actor inv meets := by
    cases actor with
    | tile id first u => exact others t id first u inv
    | c0 granted first w =>
      simp only [TestSuite.step]
      cases waits : t.awaited with
      | some id => rw [stepC0_of_awaited waits]
      | none =>
        rcases c0 t granted first w inv (meets.2 granted first w rfl) waits with hlt | hzero
        · exact hlt.le
        · exact hzero ▸ Nat.zero_le _
  lt t actor inv meets pos helper := by
    cases actor with
    | tile id first u => exact own t id first u inv pos helper.symm
    | c0 granted first w =>
      simp only [TestSuite.step]
      rcases c0 t granted first w inv (meets.2 granted first w rfl) helper.symm with hlt | hzero
      · exact hlt
      · exact hzero ▸ pos
  stays t actor inv meets pos same := by
    cases actor with
    | tile id first u =>
      refine awaited_stepThread (life t inv) meets.1 fun helper => ?_
      exact absurd same (own t id first u inv pos helper).ne
    | c0 granted first w =>
      simp only [TestSuite.step] at same ⊢
      cases waits : t.awaited with
      | some id => rw [stepC0_of_awaited waits, waits]
      | none =>
        rcases c0 t granted first w inv (meets.2 granted first w rfl) waits with hlt | hzero
        · exact absurd same hlt.ne
        · omega

/-! ### The start of the threads -/

/-- How far the suite is from the tests. -/
def startRank (t : TestSuite) : ℕ :=
  if t.point.before then
    t.point.startRank +
      ∑ tile ∈ Finset.Ico 1 numTiles, (!(t.threads tile).initialized).toNat
  else 0

theorem startRank_pos_iff : 0 < t.startRank ↔ t.point.before = true := by
  unfold startRank
  split_ifs with before
  · exact iff_of_true (Nat.add_pos_left (SuitePoint.startRank_pos before) _) before
  · exact iff_of_false (lt_irrefl 0) before

/-- C0 goes on, and no thread has to be initialised again. -/
theorem startRank_lt {t' : TestSuite} (before : t.point.before = true)
    (less : t'.point.startRank < t.point.startRank)
    (initialized : ∀ tile, 1 ≤ tile ∧ tile < numTiles → (t.threads tile).initialized = true →
      (t'.threads tile).initialized = true) : t'.startRank < t.startRank := by
  unfold startRank
  rw [if_pos before]
  split_ifs
  · refine Nat.add_lt_add_of_lt_of_le less (Finset.sum_le_sum fun tile htile => ?_)
    have hready := initialized tile (Finset.mem_Ico.mp htile)
    cases h : (t.threads tile).initialized with
    | true => rw [hready h]
    | false => exact Bool.toNat_le _
  · exact Nat.add_pos_left (Nat.zero_lt_of_lt less) _

/-- C0 does not come back. -/
theorem not_before_stepC0 (past : t.point.before = false) :
    (t.stepC0 granted first w).point.before = false := by
  cases point : t.point with
  | start | create i | await i | enable | supervise cycles | service cycles drain =>
    rw [point] at past
    exact absurd past Bool.true_eq_false.mp
  | tests | stop i =>
    simp only [TestSuite.stepC0, point]
    split_ifs <;> rfl
  | join i =>
    simp only [TestSuite.stepC0, point]
    split_ifs
    · rfl
    · exact past
    · rfl
  | disable | returned =>
    simp only [TestSuite.stepC0, point]
    rfl
  | alone rest =>
    simp only [TestSuite.stepC0, point]
    split
    · rfl
    · exact past

theorem startRank_of_not_before (past : t.point.before = false) : t.startRank = 0 :=
  if_neg (by rw [past]; exact Bool.false_ne_true)

/-- C0, waiting for no thread, goes on to the tests. -/
theorem startRank_stepC0 (inv : LifeInv t) (free : t.awaited = none) :
    (t.stepC0 granted first w).startRank < t.startRank ∨
      (t.stepC0 granted first w).startRank = 0 := by
  have hnodes : t.nodeCount = numTiles := inv.suite.nodeCount
  have height : numTiles = 8 := rfl
  have hgoes {t' : TestSuite} (point' : SuitePoint) (before : t.point.before = true)
      (point : t'.point = point') (threads : t'.threads = t.threads)
      (less : point'.startRank < t.point.startRank) :
      t'.startRank < t.startRank ∨ t'.startRank = 0 :=
    Or.inl (startRank_lt before (point ▸ less) fun _ _ h => by rwa [threads])
  cases point : t.point with
  | start =>
    simp only [TestSuite.stepC0, point, TestSuite.startTileThreads]
    split_ifs
    · exact hgoes (.create 1) (by rw [point]; rfl) rfl rfl (by rw [point]; decide)
    · exact Or.inr (startRank_of_not_before rfl)
  | create i =>
    have hbefore : t.point.before = true := by rw [point]; rfl
    simp only [TestSuite.stepC0, point, hnodes]
    split_ifs with hlt hgranted
    · refine Or.inl (startRank_lt hbefore ?_ fun tile htile h => ?_)
      · rw [point]
        simp only [SuitePoint.startRank]
        omega
      · -- the thread that is created was not initialised
        have hother : tile ≠ i := by
          rintro rfl
          have hexpects := inv.threads.threads tile htile.1 htile.2
          rw [point] at hexpects
          rw [hexpects.2 le_rfl] at h
          exact absurd h Bool.false_ne_true
        change (Function.update (Function.update t.threads i _) i _ tile).initialized = true
        rwa [Function.update_of_ne hother, Function.update_of_ne hother]
    · exact Or.inr (startRank_of_not_before rfl)
    · refine hgoes (.await 1) hbefore rfl rfl ?_
      rw [point]
      simp only [SuitePoint.startRank]
      omega
  | await i =>
    have hbefore : t.point.before = true := by rw [point]; rfl
    simp only [awaited, point, hnodes, ite_eq_right_iff] at free
    simp only [TestSuite.stepC0, point, hnodes]
    split_ifs with hlt hready
    · refine hgoes (.await (i + 1)) hbefore rfl rfl ?_
      rw [point]
      simp only [SuitePoint.startRank]
      omega
    · exact absurd (free ⟨hlt, Bool.not_eq_true _ ▸ hready⟩) (Option.some_ne_none i)
    · refine hgoes .enable hbefore rfl rfl ?_
      rw [point]
      simp only [SuitePoint.startRank]
      omega
  | enable =>
    simp only [TestSuite.stepC0, point]
    exact hgoes (.supervise 0) (by rw [point]; rfl) rfl rfl (by rw [point]; decide)
  | supervise cycles =>
    have hbefore : t.point.before = true := by rw [point]; rfl
    simp only [TestSuite.stepC0, point]
    split_ifs with hcycles
    · obtain ⟨plic, drain, hserve, -⟩ :=
        serve_eq (inv.irq.clear (SuitePoint.not_began hbefore))
          (show DrainPoint.Claimless (.outside 0) from trivial) cycles
      rw [hserve]
      refine hgoes (.service cycles drain) hbefore rfl rfl ?_
      rw [point]
      cases drain <;> simp only [SuitePoint.startRank] <;> omega
    · exact Or.inr (startRank_of_not_before rfl)
  | service cycles drain =>
    have hbefore : t.point.before = true := by rw [point]; rfl
    have hclaimless := inv.irq.draining cycles drain point
    cases drain with
    | outside returned =>
      simp only [TestSuite.stepC0, point]
      refine hgoes (.supervise (cycles + 1)) hbefore rfl rfl ?_
      rw [point]
      simp only [SuitePoint.startRank]
      omega
    | claim call =>
      obtain ⟨plic, drain, hserve, ⟨-, hends⟩, -⟩ :=
        serve_eq (inv.irq.clear (SuitePoint.not_began hbefore)) hclaimless cycles
      obtain ⟨returned, rfl⟩ := hends call rfl
      simp only [TestSuite.stepC0, point, hserve]
      refine hgoes (.service cycles (.outside returned)) hbefore rfl rfl ?_
      rw [point]
      simp only [SuitePoint.startRank]
      omega
    | handle call claimId => exact hclaimless.elim
    | complete call claimId => exact hclaimless.elim
  | tests | stop i | join i | alone rest | disable | returned =>
    refine Or.inr (startRank_of_not_before (not_before_stepC0 ?_))
    rw [point]
    rfl

theorem startRank_stepThread (t : TestSuite) (id : ℕ) (first : Bool) (u : Uninitialised) :
    (t.stepThread id first u).startRank ≤ t.startRank := by
  unfold startRank
  rw [point_stepThread]
  split_ifs
  · refine Nat.add_le_add_left (Finset.sum_le_sum fun tile _ => ?_) _
    by_cases htile : tile = id
    · subst htile
      cases h : (t.threads tile).initialized with
      | true => rw [initialized_stepThread (Or.inl h)]
      | false => exact Bool.toNat_le _
    · rw [others_stepThread t htile]
  · exact le_rfl

/-- The thread C0 waits for gets initialised. -/
theorem startRank_awaited (inv : LifeInv t) (before : t.point.before = true)
    (waits : t.awaited = some id) : (t.stepThread id first u).startRank < t.startRank := by
  have hvalid := awaited_mem inv id waits
  have hnew : (t.threads id).initialized = false ∧ (t.threads id).point = .created := by
    unfold awaited at waits
    split at waits
    · next tile point =>
      split_ifs at waits with h
      obtain rfl := Option.some.inj waits
      have hexpects := inv.threads.threads tile hvalid.1 hvalid.2
      rw [point] at hexpects
      rcases hexpects.1 with hcreated | hlive
      · exact ⟨h.2, by rw [hcreated]⟩
      · exact absurd (h.2.symm.trans hlive.initialized) Bool.false_ne_true
    · next tile point =>
      rw [point] at before
      exact absurd before Bool.false_ne_true
    · exact absurd waits.symm (Option.some_ne_none id)
  unfold startRank
  rw [point_stepThread, if_pos before, if_pos before]
  refine Nat.add_lt_add_left (Finset.sum_lt_sum (fun tile _ => ?_)
    ⟨id, Finset.mem_Ico.mpr hvalid, ?_⟩) _
  · by_cases htile : tile = id
    · rw [htile, hnew.1]
      exact Bool.toNat_le _
    · rw [others_stepThread t htile]
  · rw [hnew.1, initialized_stepThread (Or.inr hnew.2)]
    decide

theorem helped_start : Helped TestSuite.step Meets LifeInv ThreadActor.thread suiteThreads awaited
    startRank :=
  helped (fun _ inv => inv) (fun _ _ inv meets => inv.step meets)
    (fun _ _ _ _ inv _ free => startRank_stepC0 inv free)
    (fun _ _ _ _ inv pos waits => startRank_awaited inv (startRank_pos_iff.mp pos) waits)
    fun t id first u _ => startRank_stepThread t id first u

theorem startRank_le (t : TestSuite) : t.startRank ≤ 41 := by
  unfold startRank
  split_ifs
  · have hsum : ∑ tile ∈ Finset.Ico 1 numTiles, (!(t.threads tile).initialized).toNat ≤ 7 := by
      refine (Finset.sum_le_card_nsmul _ _ 1 fun _ _ => Bool.toNat_le _).trans ?_
      decide
    have hpoint : t.point.startRank ≤ 34 := by
      have height : numTiles = 8 := rfl
      cases t.point with
      | service cycles drain => cases drain <;> simp only [SuitePoint.startRank] <;> omega
      | _ =>
        simp only [SuitePoint.startRank]
        omega
    omega
  · exact Nat.zero_le _

/-! ### The end of the threads -/

/-- How far the suite is from its return. -/
def endRank (t : TestSuite) : ℕ :=
  t.point.endRank + ∑ tile ∈ Finset.Ico 1 numTiles, (t.threads tile).rank

theorem behind_stepC0 (behind : t.point.behind = true) :
    (t.stepC0 granted first w).point.behind = true := by
  cases point : t.point with
  | start | create i | await i | enable | supervise cycles | service cycles drain | tests
  | alone rest =>
    rw [point] at behind
    exact absurd behind Bool.false_ne_true
  | disable | returned =>
    simp only [TestSuite.stepC0, point]
    rfl
  | stop i =>
    simp only [TestSuite.stepC0, point]
    split_ifs <;> rfl
  | join i =>
    simp only [TestSuite.stepC0, point]
    split_ifs
    · rfl
    · exact behind
    · rfl

theorem behind_step (behind : t.point.behind = true) (actor : ThreadActor) :
    (t.step actor).point.behind = true := by
  cases actor with
  | c0 granted first w => exact behind_stepC0 behind
  | tile id first u =>
    simp only [TestSuite.step]
    rwa [point_stepThread]

/-- Behind the distributed run a thread in its loop finds no task, and comes to the check of its
flag. -/
theorem loopPoint_resting (resting : t.suite.run.sys.Resting)
    (valid : 1 ≤ id ∧ id < t.suite.run.sys.nodeCount) :
    loopPoint (t.suite.run.sys.tiles id).pc
      ((t.suite.step (.tile id first u)).run.sys.tiles id).pc = .check := by
  have hcounted := resting.counted id
  simp only [SuiteRun.step, if_pos valid, SuiteRun.stepTile]
  cases hpc : (t.suite.run.sys.tiles id).pc with
  | poll =>
    have hstep : t.suite.run.sys.stepTile id 0 = t.suite.run.sys.getNextTask id := by
      simp only [TaskSystem.stepTile, hpc]
    simp only [HalRun.step, TaskSystem.step, if_pos valid, hstep]
    rcases t.suite.run.sys.getNextTask_cases id with ⟨slot, -, heligible, -⟩ | hget
    · exact absurd heligible (resting.empty id valid.1 slot)
    · have harrives : ((t.suite.run.sys.setTile id
          { t.suite.run.sys.tiles id with idle := true }).tiles id).pc = .poll :=
        (pc_setTile ..).trans hpc
      rw [hget, harrives]
      rfl
  | finish task =>
    simp only [HalRun.step, TaskSystem.step, if_pos valid, TaskSystem.stepTile, hpc, pc_setTile]
    rfl
  | start | dispatch | call | running | storeResult | setResult | flag | leave | count =>
    rw [hpc] at hcounted
    exact absurd hcounted Bool.true_eq_false.mp

theorem resting_of_behind (inv : LifeInv t) (behind : t.point.behind = true) :
    t.suite.run.sys.Resting := by
  obtain ⟨hprogress, finished⟩ := inv.suite.behind behind
  exact hprogress.progress.resting (by decide) finished

/-- A thread whose flag is cleared gets nearer to its end. -/
theorem rank_stepThread_lt (inv : LifeInv t) (behind : t.point.behind = true)
    (stopping : (t.threads id).Stopping) (unfinished : (t.threads id).point ≠ .exited) :
    ((t.stepThread id first u).threads id).rank < (t.threads id).rank := by
  have hstopped := stopping.stopped
  have hbegun := stopping.begun
  have hgoes {point : ThreadPoint} {thread : ProcessorThread}
      (eq : thread = { t.threads id with point := point })
      (less : point.rank < (t.threads id).point.rank) : thread.rank < (t.threads id).rank := by
    rw [eq]
    unfold ProcessorThread.rank
    rwa [if_neg (by rw [hstopped]; exact Bool.false_ne_true),
      if_neg (by rw [hstopped]; exact Bool.false_ne_true)]
  cases point : (t.threads id).point with
  | absent | created =>
    rw [point] at hbegun
    exact absurd hbegun Bool.false_ne_true
  | exited => exact absurd point unfinished
  | registering | signal | notifying =>
    simp only [TestSuite.stepThread, point]
    exact hgoes (Function.update_self ..) (by rw [point]; decide)
  | check =>
    simp only [TestSuite.stepThread, point]
    refine hgoes (Function.update_self ..) ?_
    rw [if_neg (by rw [hstopped]; exact Bool.false_ne_true), point]
    decide
  | leaving =>
    simp only [TestSuite.stepThread, point]
    refine hgoes (Function.update_self ..) ?_
    rw [point]
    split_ifs <;> decide
  | loop =>
    have hvalid : 1 ≤ id ∧ id < t.suite.run.sys.nodeCount := by
      rw [inv.suite.nodeCount]
      exact inv.threads.valid (by rw [point]; decide)
    simp only [TestSuite.stepThread, point]
    refine hgoes (Function.update_self ..) ?_
    rw [loopPoint_resting (resting_of_behind inv behind) hvalid, point]
    decide

/-- No thread gets further away from its end. -/
theorem rank_stepThread_le (inv : LifeInv t) (behind : t.point.behind = true)
    (valid : 1 ≤ id ∧ id < numTiles) :
    ((t.stepThread id first u).threads id).rank ≤ (t.threads id).rank := by
  by_cases hexited : (t.threads id).point = .exited
  · rw [stepThread_of_exited hexited]
  have hbegun : (t.threads id).Live ∨ (t.threads id).Stopping := by
    have hexpects := inv.threads.threads id valid.1 valid.2
    cases point : t.point with
    | start | create i | await i | enable | supervise cycles | service cycles drain | tests
    | alone rest =>
      rw [point] at behind
      exact absurd behind Bool.false_ne_true
    | disable =>
      rw [point] at hexpects
      exact Or.inl hexpects
    | stop i =>
      rw [point] at hexpects
      rcases Nat.lt_or_ge id i with hlt | hge
      · exact Or.inr (hexpects.1 hlt)
      · exact Or.inl (hexpects.2 hge)
    | join i | returned =>
      rw [point] at hexpects
      exact Or.inr hexpects.1
  rcases hbegun with live | stopping
  · obtain ⟨point, hself⟩ :=
      self_stepThread (ThreadPoint.begun_of_inLoop live.inLoop) hexited first u
    rw [hself]
    unfold ProcessorThread.rank
    rw [if_pos live.running, if_pos live.running]
  · exact (rank_stepThread_lt inv behind stopping hexited).le

theorem endRank_stepThread (inv : LifeInv t) (behind : t.point.behind = true) (id : ℕ)
    (first : Bool) (u : Uninitialised) : (t.stepThread id first u).endRank ≤ t.endRank := by
  unfold endRank
  rw [point_stepThread]
  refine Nat.add_le_add_left (Finset.sum_le_sum fun tile htile => ?_) _
  by_cases heq : tile = id
  · subst heq
    exact rank_stepThread_le inv behind (Finset.mem_Ico.mp htile)
  · rw [others_stepThread t heq]

/-- The thread C0 waits for gets nearer to its end. -/
theorem endRank_awaited (inv : LifeInv t) (behind : t.point.behind = true)
    (waits : t.awaited = some id) : (t.stepThread id first u).endRank < t.endRank := by
  have hvalid := awaited_mem inv id waits
  have hstopping : (t.threads id).Stopping ∧ (t.threads id).point ≠ .exited := by
    unfold awaited at waits
    split at waits
    · next tile point =>
      rw [point] at behind
      exact absurd behind Bool.false_ne_true
    · next tile point =>
      split_ifs at waits with h
      obtain rfl := Option.some.inj waits
      have hexpects := inv.threads.threads tile hvalid.1 hvalid.2
      rw [point] at hexpects
      exact ⟨hexpects.1, h.2⟩
    · exact absurd waits.symm (Option.some_ne_none id)
  unfold endRank
  rw [point_stepThread]
  refine Nat.add_lt_add_left (Finset.sum_lt_sum (fun tile htile => ?_)
    ⟨id, Finset.mem_Ico.mpr hvalid, ?_⟩) _
  · by_cases heq : tile = id
    · subst heq
      exact rank_stepThread_le inv behind (Finset.mem_Ico.mp htile)
    · rw [others_stepThread t heq]
  · exact rank_stepThread_lt inv behind hstopping.1 hstopping.2

/-- C0, waiting for no thread, goes on to its return. -/
theorem endRank_stepC0 (inv : LifeInv t) (behind : t.point.behind = true)
    (free : t.awaited = none) :
    (t.stepC0 granted first w).endRank < t.endRank ∨ (t.stepC0 granted first w).endRank = 0 := by
  have hnodes : t.nodeCount = numTiles := inv.suite.nodeCount
  have height : numTiles = 8 := rfl
  have hgoes {t' : TestSuite} (point' : SuitePoint) (point : t'.point = point')
      (threads : t'.threads = t.threads) (less : point'.endRank < t.point.endRank) :
      t'.endRank < t.endRank ∨ t'.endRank = 0 := by
    unfold endRank
    rw [point, threads]
    exact Or.inl (Nat.add_lt_add_right less _)
  cases point : t.point with
  | start | create i | await i | enable | supervise cycles | service cycles drain | tests
  | alone rest =>
    rw [point] at behind
    exact absurd behind Bool.false_ne_true
  | disable =>
    simp only [TestSuite.stepC0, point]
    exact hgoes (.stop 1) rfl rfl (by rw [point]; decide)
  | stop i =>
    simp only [TestSuite.stepC0, point, hnodes]
    split_ifs with hlt
    · refine Or.inl ?_
      unfold endRank
      refine Nat.add_lt_add_of_lt_of_le ?_ (Finset.sum_le_sum fun tile htile => ?_)
      · rw [point]
        simp only [SuitePoint.endRank]
        omega
      · change (Function.update t.threads i _ tile).rank ≤ _
        by_cases heq : tile = i
        · subst heq
          have hvalid := Finset.mem_Ico.mp htile
          have hexpects := inv.threads.threads tile hvalid.1 hvalid.2
          rw [point] at hexpects
          rw [Function.update_self]
          unfold ProcessorThread.rank
          rw [if_neg Bool.false_ne_true, if_pos (hexpects.2 le_rfl).running]
          exact ThreadPoint.rank_le _
        · rw [Function.update_of_ne heq]
    · refine hgoes (.join 1) rfl rfl ?_
      rw [point]
      simp only [SuitePoint.endRank]
      omega
  | join i =>
    simp only [awaited, point, hnodes, ite_eq_right_iff] at free
    simp only [TestSuite.stepC0, point, hnodes]
    split_ifs with hlt hexited
    · refine hgoes (.join (i + 1)) rfl rfl ?_
      rw [point]
      simp only [SuitePoint.endRank]
      omega
    · exact absurd (free ⟨hlt, hexited⟩) (Option.some_ne_none i)
    · refine hgoes .returned rfl rfl ?_
      rw [point]
      simp only [SuitePoint.endRank]
      omega
  | returned =>
    simp only [TestSuite.stepC0, point]
    refine Or.inr ?_
    unfold endRank
    rw [point]
    refine (Nat.zero_add _).trans (Finset.sum_eq_zero fun tile htile => ?_)
    have hvalid := Finset.mem_Ico.mp htile
    have hexpects := inv.threads.threads tile hvalid.1 hvalid.2
    rw [point] at hexpects
    unfold ProcessorThread.rank
    rw [if_neg (by rw [hexpects.1.stopped]; exact Bool.false_ne_true), hexpects.2]
    rfl

theorem helped_end : Helped TestSuite.step Meets (fun t => LifeInv t ∧ t.point.behind = true)
    ThreadActor.thread suiteThreads awaited endRank :=
  helped (fun _ inv => inv.1)
    (fun _ actor inv meets => ⟨inv.1.step meets, behind_step inv.2 actor⟩)
    (fun _ _ _ _ inv _ free => endRank_stepC0 inv.1 inv.2 free)
    (fun _ _ _ _ inv _ waits => endRank_awaited inv.1 inv.2 waits)
    fun _ id first u inv => endRank_stepThread inv.1 inv.2 id first u

theorem endRank_le (t : TestSuite) : t.endRank ≤ 59 := by
  have hsum : ∑ tile ∈ Finset.Ico 1 numTiles, (t.threads tile).rank ≤ 42 := by
    refine (Finset.sum_le_card_nsmul _ _ 6 fun tile _ => ?_).trans (by decide)
    unfold ProcessorThread.rank
    split_ifs
    · exact le_rfl
    · exact ThreadPoint.rank_le _
  have hpoint : t.point.endRank ≤ 17 := by
    have height : numTiles = 8 := rfl
    cases t.point <;> simp only [SuitePoint.endRank] <;> omega
  exact Nat.add_le_add hpoint hsum

theorem returned_of_endRank (behind : t.point.behind = true) (zero : t.endRank = 0) :
    t.point = .returned := by
  have hzero := (Nat.add_eq_zero_iff.mp zero).1
  cases point : t.point with
  | start | create i | await i | enable | supervise cycles | service cycles drain | tests
  | alone rest =>
    rw [point] at behind
    exact absurd behind Bool.false_ne_true
  | disable | stop i | join i =>
    rw [point] at hzero
    simp only [SuitePoint.endRank] at hzero
    omega
  | returned => rfl

end TestSuite

end MeshNoc
