import MeshNoc.C0Master.Signalling

/-!
# Finished tasks

A tile that has executed a task signals C0 with `PLIC_trigger_interrupt` and then calls
`tile_complete_task`, which counts the task. The signal has the type of a mesh node, and
the enhanced handler of C0 counts every interrupt of that type as a completed task, too.

## Main results

* `FinishingSystem.run_drain` — undisturbed, C0 makes `c0_process_enhanced_plic_interrupts`
* `countedOnceRun_iff` — no task is counted twice, exactly if C0 never goes on after a
  claim that has found a signal
-/

namespace MeshNoc

open Lib PlicRegDef

/-- The local variables of `c0_process_enhanced_plic_interrupts`. -/
structure DrainCall where
  plic : PlicBlock
  targetLocal : ℕ
  processed : ℕ := 0

/-- Where C0 is in `c0_process_enhanced_plic_interrupts`. -/
inductive DrainPoint
  /-- Not in the function; what it returned last. -/
  | outside (returned : ℕ)
  /-- Before a claim. -/
  | claim (call : DrainCall)
  /-- Before a claimed id is decoded and handled. -/
  | handle (call : DrainCall) (claimId : ℕ)
  /-- Before the completion of a claimed id. -/
  | complete (call : DrainCall) (claimId : ℕ)

/-- The next step of C0, which calls the service again and again. -/
def drainStep (dispatch : C0State → ℕ → C0State) :
    C0State × DrainPoint → C0State × DrainPoint
  | (c0, .outside _) =>
    match c0.plic.plicSelect 0 with
    | (none, _) => (c0, .outside 0)
    | (some plic, targetLocal) => (c0, .claim ⟨plic, targetLocal, 0⟩)
  | (c0, .claim call) =>
    let (claimId, c0) := c0.claimRead call.plic call.targetLocal
    (c0, if 0 < claimId then .handle call claimId else .outside call.processed)
  | (c0, .handle call claimId) => (dispatch c0 claimId, .complete call claimId)
  | (c0, .complete call claimId) =>
    (c0.compWrite call.plic call.targetLocal claimId,
      .claim { call with processed := call.processed + 1 })

/-- C0 between the claims of one call, as the loop of the service has it. -/
def DrainFrame.point (f : DrainFrame) : C0State × DrainPoint :=
  (f.c0, if 0 < f.claimId then .handle ⟨.c0c1, 0, f.processed⟩ f.claimId
    else .outside f.processed)

section DrainStep

variable {dispatch : C0State → ℕ → C0State}

/-- One iteration of the loop is three steps of C0. -/
theorem iterate_drainStep_point {f f' : DrainFrame}
    (continues : drainBody .c0c1 0 dispatch f = some f') :
    (drainStep dispatch)^[3] f.point = f'.point := by
  obtain ⟨hpos, rfl⟩ := drainBody_eq_some_iff.mp continues
  have hhandle : f.point = (f.c0, .handle ⟨.c0c1, 0, f.processed⟩ f.claimId) := by
    rw [DrainFrame.point, if_pos hpos]
  rw [hhandle]
  rfl

/-- The loop, from its head. -/
theorem iterate_drainStep_loop {fuel : ℕ} {f final : DrainFrame}
    (exits : loop (drainBody .c0c1 0 dispatch) fuel f = some final) :
    ∃ k, (drainStep dispatch)^[k] f.point = (final.c0, .outside final.processed) := by
  induction fuel generalizing f with
  | zero => exact absurd exits (by simp [loop])
  | succ fuel ih =>
    cases hbody : drainBody .c0c1 0 dispatch f with
    | none =>
      rw [loop_succ_of_none _ hbody] at exits
      obtain rfl := Option.some.inj exits
      have hzero : ¬ 0 < f.claimId := fun hpos => by simp [drainBody, hpos] at hbody
      exact ⟨0, by rw [Function.iterate_zero_apply, DrainFrame.point, if_neg hzero]⟩
    | some f' =>
      rw [loop_succ_of_some _ hbody] at exits
      obtain ⟨k, hk⟩ := ih exits
      exact ⟨k + 3, by rw [Function.iterate_add_apply, iterate_drainStep_point hbody, hk]⟩

/-- Undisturbed, C0 makes the whole function. -/
theorem iterate_drainStep {c0 c0' : C0State} {n : ℕ} (r : ℕ)
    (serves : Serves (drainInterrupts dispatch) c0 n c0') :
    ∃ k, (drainStep dispatch)^[k] (c0, .outside r) = (c0', .outside n) := by
  obtain ⟨fuel, hserves⟩ := serves
  rw [drainInterrupts_eq, Option.map_eq_some_iff] at hserves
  obtain ⟨final, hloop, hresult⟩ := hserves
  obtain ⟨rfl, rfl⟩ := Prod.mk.inj hresult
  obtain ⟨k, hk⟩ := iterate_drainStep_loop hloop
  have hselect : c0.plic.plicSelect 0 = (some .c0c1, 0) :=
    PlicState.plicSelect_eq c0.plic.selected (by decide)
  have hcall : drainStep dispatch (c0, .outside r) = (c0, .claim ⟨.c0c1, 0, 0⟩) := by
    simp only [drainStep, hselect]
  -- the call, the first claim, and the loop
  have hfirst : (drainStep dispatch)^[2] (c0, .outside r) =
      DrainFrame.point ⟨c0.claim.2, c0.claim.1, 0⟩ :=
    congrArg (drainStep dispatch) hcall
  refine ⟨k + 2, ?_⟩
  rw [Function.iterate_add_apply, hfirst, hk]

end DrainStep

/-- The counters of `tile_complete_task`. -/
def C0State.tileCompleteTask (c0 : C0State) : C0State :=
  { c0 with completedTasks := c0.completedTasks + 1, activeTasks := c0.activeTasks - 1 }

/-- C0, the tiles that finish tasks, and what they share. -/
structure FinishingSystem where
  c0 : C0State
  point : DrainPoint := .outside 0
  /-- The tile has signalled C0 and not completed its task yet. -/
  signalled : ℕ → Bool := fun _ => false
  /-- The number of tasks for which `tile_complete_task` has run. -/
  finished : ℕ := 0

/-- What a thread does next. -/
inductive FinishAction
  | c0
  | tile (id : ℕ)
  deriving DecidableEq

namespace FinishingSystem

/-- The next step of C0: it calls the function again and again. -/
def stepC0 (s : FinishingSystem) : FinishingSystem :=
  let (c0, point) := drainStep C0State.dispatchEnhanced (s.c0, s.point)
  { s with c0 := c0, point := point }

/-- The next step of a tile that has executed a task: the signal to C0, whose result is only
printed, or the completion of the task. -/
def stepTile (s : FinishingSystem) (tile : ℕ) : FinishingSystem :=
  if s.signalled tile then
    { s with
      c0 := s.c0.tileCompleteTask
      signalled := Function.update s.signalled tile false
      finished := s.finished + 1 }
  else
    { s with
      c0 := { s.c0 with plic := (s.c0.plic.triggerInterrupt tile 0).2 }
      signalled := Function.update s.signalled tile true }

/-- One step of one thread; tile 0 is C0. -/
def step (s : FinishingSystem) : FinishAction → FinishingSystem
  | .c0 => s.stepC0
  | .tile id => if 1 ≤ id ∧ id < nrHarts then s.stepTile id else s

/-- Nothing has been counted, the controllers are configured as set-up does it, nothing is
pending, and C0 is not in the function. -/
structure Start (s : FinishingSystem) : Prop where
  config : PlicSystem.SameConfig setupSystem s.c0.plic
  clear : ∀ b src, IsSource src → s.c0.plic.pending b src = false
  uncounted : s.c0.completedTasks = 0
  unfinished : s.finished = 0
  outside : ∃ returned, s.point = .outside returned

/-- No more tasks are counted than are finished. -/
def CountedOnce (s : FinishingSystem) : Prop := s.c0.completedTasks ≤ s.finished

/-- So it is in every state of the run. -/
def CountedOnceRun (s : FinishingSystem) : List FinishAction → Prop
  | [] => s.CountedOnce
  | a :: rest => s.CountedOnce ∧ CountedOnceRun (s.step a) rest

/-- The signal of a tile is pending at C0. -/
def Signal (s : FinishingSystem) (tile : ℕ) : Prop :=
  (1 ≤ tile ∧ tile < nrHarts) ∧
    s.c0.plic.pending .c0c1 (plicCalculateSourceId tile 0 irqMeshNode) = true

/-- C0 is about to claim, and the signal of a tile is pending. -/
def ClaimsSignal (s : FinishingSystem) : Prop :=
  (∃ call, s.point = .claim call) ∧ ∃ tile, s.Signal tile

/-- C0 makes no step after a claim for which a signal was pending. -/
def SignalsLeft (s : FinishingSystem) : List FinishAction → Prop
  | [] => True
  | a :: rest => (a = .c0 → s.ClaimsSignal → .c0 ∉ rest) ∧ SignalsLeft (s.step a) rest

variable {s : FinishingSystem} {tile src : ℕ} {call : DrainCall} {actions : List FinishAction}

/-! ### C0 alone -/

theorem iterate_stepC0_eq (s : FinishingSystem) (k : ℕ) : stepC0^[k] s =
    { s with
      c0 := ((drainStep C0State.dispatchEnhanced)^[k] (s.c0, s.point)).1
      point := ((drainStep C0State.dispatchEnhanced)^[k] (s.c0, s.point)).2 } := by
  induction k with
  | zero => rfl
  | succ k ih =>
    rw [Function.iterate_succ_apply', ih]
    simp only [stepC0, Function.iterate_succ_apply', Prod.mk.eta]

/-- Undisturbed, C0 makes the whole function. -/
theorem run_drain {n r : ℕ} {c0' : C0State} (outside : s.point = .outside r)
    (serves : Serves c0ProcessEnhancedPlicInterrupts s.c0 n c0') :
    ∃ k, stepC0^[k] s = { s with c0 := c0', point := .outside n } := by
  obtain ⟨k, hk⟩ := iterate_drainStep r serves
  exact ⟨k, by rw [iterate_stepC0_eq, outside, hk]⟩

/-! ### The invariant -/

/-- The source of the signal of a tile. -/
theorem signalId_eq (valid : tile < nrHarts) :
    plicCalculateSourceId tile 0 irqMeshNode = 32 + 32 * tile + 20 :=
  plicCalculateSourceId_eq 0 valid (by decide)

theorem isSource_signalId (valid : tile < nrHarts) :
    IsSource (plicCalculateSourceId tile 0 irqMeshNode) := by
  have hlt : tile < 8 := valid
  rw [signalId_eq valid]
  exact ⟨by omega, by omega⟩

/-- Only signals are pending at C0, each task is counted once, and C0 has no claimed id to
complete; the id it has to handle is that of a signal. -/
structure Inv (s : FinishingSystem) : Prop where
  config : PlicSystem.SameConfig setupSystem s.c0.plic
  signals : ∀ src, IsSource src → s.c0.plic.pending .c0c1 src = true →
    ∃ tile, (1 ≤ tile ∧ tile < nrHarts) ∧ src = plicCalculateSourceId tile 0 irqMeshNode
  counted : s.c0.completedTasks = s.finished
  point : match s.point with
    | .outside _ => True
    | .claim call => call.plic = .c0c1 ∧ call.targetLocal = 0
    | .handle _ claimId => ∃ tile, (1 ≤ tile ∧ tile < nrHarts) ∧
        claimId = plicCalculateSourceId tile 0 irqMeshNode
    | .complete _ _ => False

theorem Start.inv (start : s.Start) : s.Inv := by
  obtain ⟨returned, houtside⟩ := start.outside
  refine ⟨start.config, fun src hsrc hpending => ?_, ?_, ?_⟩
  · rw [start.clear .c0c1 src hsrc] at hpending
    exact absurd hpending Bool.false_ne_true
  · rw [start.uncounted, start.unfinished]
    rfl
  · rw [houtside]
    trivial

theorem Inv.countedOnce (inv : s.Inv) : s.CountedOnce := inv.counted.le

theorem accepts_signal (valid : 1 ≤ tile ∧ tile < nrHarts) : Accepts tile 0 irqMeshNode :=
  ⟨valid.2, by decide, by omega, Nat.pos_iff_ne_zero.mp (isSource_signalId valid.2).1⟩

/-- The signal of a tile that has sent none for its task. -/
theorem signal_step_tile (valid : 1 ≤ tile ∧ tile < nrHarts)
    (unsignalled : s.signalled tile = false) : (s.step (.tile tile)).Signal tile := by
  have hsrc := isSource_signalId valid.2
  have hstep : (s.step (.tile tile)).c0.plic = (s.c0.plic.trigger tile 0 irqMeshNode).2 := by
    simp only [step, if_pos valid, stepTile, unsignalled]
    rfl
  refine ⟨valid, ?_⟩
  rw [hstep, PlicSystem.pending_trigger (accepts_signal valid) hsrc]
  simp [hartBlock]

/-- A tile's steps keep the invariant, and the point of C0. -/
theorem Inv.step_tile (inv : s.Inv) (tile : ℕ) :
    (s.step (.tile tile)).Inv ∧ (s.step (.tile tile)).point = s.point := by
  simp only [step, stepTile]
  split_ifs with valid hsignalled
  · refine ⟨⟨inv.config, inv.signals, ?_, inv.point⟩, rfl⟩
    change s.c0.completedTasks + 1 = ((s.finished + 1 : ℕ) : ℤ)
    rw [inv.counted]
    push_cast
    rfl
  · refine ⟨⟨inv.config.trans PlicSystem.sameConfig_trigger, fun src hsrc hpending => ?_,
      inv.counted, inv.point⟩, rfl⟩
    change (s.c0.plic.trigger tile 0 irqMeshNode).2.pending .c0c1 src = true at hpending
    rw [PlicSystem.pending_trigger (accepts_signal valid) hsrc] at hpending
    -- in the word of the signal only the signal is pending
    split_ifs at hpending
    · exact ⟨tile, valid, of_decide_eq_true hpending⟩
    · exact inv.signals src hsrc hpending
  · exact ⟨inv, rfl⟩

/-- A claim returns the id of a signal, if one is pending, and nothing otherwise. -/
theorem Inv.claim_pos_iff (inv : s.Inv) : 0 < s.c0.claim.1 ↔ ∃ tile, s.Signal tile := by
  constructor
  · intro hpos
    obtain ⟨⟨hsrc, helig⟩, -⟩ := C0State.eligible_of_claim hpos
    have hpending := (eligible_iff.mp helig).1
    obtain ⟨tile, valid, heq⟩ := inv.signals _ hsrc hpending
    exact ⟨tile, valid, heq ▸ hpending⟩
  · rintro ⟨tile, valid, hpending⟩
    have hsrc := isSource_signalId valid.2
    have helig : (s.c0.plic.regs (hartBlock 0)).eligible 0
        (plicCalculateSourceId tile 0 irqMeshNode) = true :=
      (PlicSystem.eligible_iff_of_setup inv.config (by decide) hsrc).mpr
        ⟨hpending, tile, valid.2, by omega, irqMeshNode, by decide, rfl⟩
    exact Nat.pos_of_ne_zero fun hzero => C0State.not_eligible_of_claim hzero ⟨hsrc, helig⟩

/-- The call of the function selects the controller of hart 0. -/
theorem Inv.step_outside (inv : s.Inv) {returned : ℕ} (point : s.point = .outside returned) :
    s.stepC0.Inv ∧ s.stepC0.point = .claim ⟨.c0c1, 0, 0⟩ ∧ s.stepC0.c0 = s.c0 := by
  have hselect : s.c0.plic.plicSelect 0 = (some .c0c1, 0) :=
    PlicState.plicSelect_eq s.c0.plic.selected (by decide)
  have hstep : s.stepC0 = { s with point := .claim ⟨.c0c1, 0, 0⟩ } := by
    simp only [stepC0, point, drainStep, hselect]
  rw [hstep]
  exact ⟨⟨inv.config, inv.signals, inv.counted, rfl, rfl⟩, rfl, rfl⟩

/-- The claim of C0, from a state with the invariant. -/
theorem Inv.step_claim (inv : s.Inv) (point : s.point = .claim call) : s.stepC0.Inv ∧
    ((∃ tile, s.Signal tile) → ∃ id, s.stepC0.point = .handle call id) ∧
      ((¬ ∃ tile, s.Signal tile) → s.stepC0.point = .outside call.processed) := by
  have hpoint := inv.point
  rw [point] at hpoint
  obtain ⟨hplic, htarget⟩ := hpoint
  have hstep : s.stepC0 = { s with
      c0 := s.c0.claim.2
      point := if 0 < s.c0.claim.1 then .handle call s.c0.claim.1
        else .outside call.processed } := by
    simp only [stepC0, point, drainStep, hplic, htarget]
    rfl
  rw [hstep]
  refine ⟨⟨inv.config.trans C0State.sameConfig_claim, fun src hsrc hpending => ?_, inv.counted,
    ?_⟩, fun hsignal => ?_, fun hnone => ?_⟩
  · rw [C0State.pending_claim hsrc, Bool.and_eq_true] at hpending
    exact inv.signals src hsrc hpending.1
  · by_cases hpos : 0 < s.c0.claim.1
    · obtain ⟨⟨hsrc, helig⟩, -⟩ := C0State.eligible_of_claim hpos
      simp only [if_pos hpos]
      exact inv.signals _ hsrc (eligible_iff.mp helig).1
    · simp only [if_neg hpos]
  · exact ⟨_, if_pos (inv.claim_pos_iff.mpr hsignal)⟩
  · exact if_neg fun hpos => hnone (inv.claim_pos_iff.mp hpos)

/-- Handling a signal counts a task. -/
theorem completedTasks_dispatchEnhanced (c0 : C0State) (valid : tile < nrHarts) :
    (c0.dispatchEnhanced (plicCalculateSourceId tile 0 irqMeshNode)).completedTasks =
      c0.completedTasks + 1 := by
  have hlt : tile < 8 := valid
  have hbase : sourceBaseId = 32 := rfl
  have hhart : (32 + 32 * tile + 20 - 32) / 32 = tile := by omega
  have htype : (32 + 32 * tile + 20 - 32) % 32 = irqMeshNode := by
    change (32 + 32 * tile + 20 - 32) % 32 = 20
    omega
  rw [signalId_eq valid]
  simp only [C0State.dispatchEnhanced, hbase, hhart, htype]
  rw [if_pos (by omega), if_pos valid]
  -- the type of a mesh node is not among the cases
  rfl

theorem Inv.step_handle (inv : s.Inv) {id : ℕ} (point : s.point = .handle call id) :
    ¬ s.stepC0.CountedOnce := by
  have hpoint := inv.point
  rw [point] at hpoint
  obtain ⟨tile, valid, rfl⟩ := hpoint
  have hstep : s.stepC0.c0.completedTasks = s.c0.completedTasks + 1 := by
    simp only [stepC0, point, drainStep]
    exact completedTasks_dispatchEnhanced s.c0 valid.2
  have hfinished : s.stepC0.finished = s.finished := by
    simp only [stepC0, point, drainStep]
  have hcounted := inv.counted
  unfold CountedOnce
  omega

/-! ### Runs -/

theorem CountedOnceRun.head (counted : s.CountedOnceRun actions) : s.CountedOnce := by
  cases actions with
  | nil => exact counted
  | cons a rest => exact counted.1

/-- Without a step of C0 there is no claim. -/
theorem signalsLeft_of_notMem (still : FinishAction.c0 ∉ actions) : s.SignalsLeft actions := by
  induction actions generalizing s with
  | nil => trivial
  | cons a rest ih =>
    obtain ⟨hne, hrest⟩ := List.ne_and_not_mem_of_not_mem_cons still
    exact ⟨fun hc0 => absurd hc0.symm hne, ih hrest⟩

/-- With a signal in hand, C0's next step counts a task that the tile counts as well. -/
theorem Inv.countedOnceRun_handle (inv : s.Inv) {id : ℕ} (point : s.point = .handle call id) :
    s.CountedOnceRun actions ↔ .c0 ∉ actions := by
  induction actions generalizing s with
  | nil => exact iff_of_true inv.countedOnce List.not_mem_nil
  | cons a rest ih =>
    simp only [CountedOnceRun]
    cases a with
    | c0 =>
      refine iff_of_false (fun counted => ?_) fun still => still List.mem_cons_self
      exact inv.step_handle point counted.2.head
    | tile id =>
      obtain ⟨hinv, hpoint⟩ := inv.step_tile id
      rw [and_iff_right inv.countedOnce, ih hinv (hpoint.trans point)]
      simp

/-- From a state in which C0 has no claimed id in hand. -/
theorem Inv.countedOnceRun_free (inv : s.Inv)
    (free : ∀ call id, s.point ≠ .handle call id) :
    s.CountedOnceRun actions ↔ s.SignalsLeft actions := by
  induction actions generalizing s with
  | nil => exact iff_of_true inv.countedOnce trivial
  | cons a rest ih =>
    simp only [CountedOnceRun, SignalsLeft]
    rw [and_iff_right inv.countedOnce]
    cases a with
    | tile id =>
      obtain ⟨hinv, hpoint⟩ := inv.step_tile id
      rw [ih hinv (by simpa [hpoint] using free)]
      simp
    | c0 =>
      change CountedOnceRun s.stepC0 rest ↔ _ ∧ SignalsLeft s.stepC0 rest
      cases hpoint : s.point with
      | outside returned =>
        obtain ⟨hinv, hcall, -⟩ := inv.step_outside hpoint
        have hnone : ¬ s.ClaimsSignal := by
          rintro ⟨⟨call, hclaim⟩, -⟩
          simp [hpoint] at hclaim
        rw [ih hinv (by simp [hcall]), and_iff_right fun _ hsignal => absurd hsignal hnone]
      | claim call =>
        obtain ⟨hinv, hhandle, houtside⟩ := inv.step_claim hpoint
        by_cases hsignal : ∃ tile, s.Signal tile
        -- the claim finds a signal, and C0 is to stop there
        · obtain ⟨id, hid⟩ := hhandle hsignal
          rw [hinv.countedOnceRun_handle hid]
          exact ⟨fun still => ⟨fun _ _ => still, signalsLeft_of_notMem still⟩,
            fun left => left.1 rfl ⟨⟨call, hpoint⟩, hsignal⟩⟩
        · rw [ih hinv (by simp [houtside hsignal]),
            and_iff_right fun _ hclaims => absurd hclaims.2 hsignal]
      | handle call id => exact absurd hpoint (free call id)
      | complete call id =>
        have hcomplete := inv.point
        rw [hpoint] at hcomplete
        exact hcomplete.elim

/-- From `completed_tasks = 0`, the configuration of set-up and nothing pending: in every
state of a run at most as many tasks are counted as are finished, if and only if C0 makes
no step after a claim for which the signal of a tile was pending. -/
theorem countedOnceRun_iff (start : s.Start) (actions : List FinishAction) :
    s.CountedOnceRun actions ↔ s.SignalsLeft actions := by
  obtain ⟨returned, outside⟩ := start.outside
  exact start.inv.countedOnceRun_free (by simp [outside])

/-- C0 serves the signal of a tile before the tile completes its task. -/
theorem Start.not_countedOnceRun_signal (start : s.Start) (valid : 1 ≤ tile ∧ tile < nrHarts)
    (unsignalled : s.signalled tile = false) :
    ¬ s.CountedOnceRun [.tile tile, .c0, .c0, .c0] := by
  intro counted
  obtain ⟨returned, outside⟩ := start.outside
  obtain ⟨hinv, hpoint⟩ := start.inv.step_tile tile
  obtain ⟨hinv', hcall, hkept⟩ := hinv.step_outside (hpoint.trans outside)
  obtain ⟨hinv'', hhandle, -⟩ := hinv'.step_claim hcall
  obtain ⟨-, hpending⟩ := signal_step_tile valid unsignalled
  rw [← hkept] at hpending
  obtain ⟨id, hid⟩ := hhandle ⟨tile, valid, hpending⟩
  exact hinv''.step_handle hid counted.2.2.2.2

/-- After set-up. -/
def afterSetup : FinishingSystem := { c0 := c0On setupSystem }

theorem start_afterSetup : afterSetup.Start where
  config := .refl _
  clear b src _ := pending_setupSystem b src
  uncounted := rfl
  unfinished := rfl
  outside := ⟨0, rfl⟩

/-- C0 looks for interrupts, and then tile 1 finishes a task. -/
theorem countedOnceRun_iff_tile1 :
    afterSetup.CountedOnceRun [.c0, .c0, .tile 1, .tile 1] ↔
      afterSetup.SignalsLeft [.c0, .c0, .tile 1, .tile 1] :=
  countedOnceRun_iff start_afterSetup _

/-- Tile 1 signals, and C0 serves the signal before the tile completes its task. -/
theorem not_countedOnceRun_served : afterSetup.Start ∧
    ¬ afterSetup.CountedOnceRun [.tile 1, .c0, .c0, .c0] :=
  ⟨start_afterSetup, start_afterSetup.not_countedOnceRun_signal (by decide) rfl⟩

end FinishingSystem

end MeshNoc
