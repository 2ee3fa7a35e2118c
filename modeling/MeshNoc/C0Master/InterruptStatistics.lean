import MeshNoc.C0Master.Finishing
import MeshNoc.Lib.EveryState

/-!
# Interrupt statistics

`tile_send_interrupt_to_c0` counts the interrupts a tile has sent, and the platform has a
counter for those that C0 has processed. `PLIC_trigger_interrupt` returns `1` when it has
made its source pending, and a negative number when it refuses, but the sender takes `0`
for success: it counts nothing, and reports every interrupt it sends as failed. The service
of C0 returns how many interrupts it has processed, and leaves the counter alone.

## Main results

* `tileSendInterruptToC0_eq` — what a call does, for a valid tile
* `always_statistics_iff` — the statistics are exact exactly as long as nothing is sent or claimed
-/

namespace MeshNoc

open Lib PlicRegDef

/-- `interrupt_type_t`. -/
inductive InterruptType
  | taskComplete
  | error
  | dmaComplete
  | nocCongestion
  | resourceRequest
  | custom
  | timer
  | shutdown
  deriving DecidableEq, Repr

/-- A call of `tile_send_interrupt_to_c0` for a valid tile, as it turned out. -/
structure SendOutcome where
  tile : ℕ
  /-- The trigger was accepted: it made its source pending. -/
  accepted : Bool
  /-- The call took its failure branch. -/
  failed : Bool
  deriving DecidableEq

/-- C0, the tiles that send interrupts, and their counters. -/
structure StatisticsSystem where
  c0 : C0State
  point : DrainPoint := .outside 0
  /-- `nodes[tile].interrupts_sent`. -/
  interruptsSent : ℕ → ℕ := fun _ => 0
  lastInterruptTimestamp : ℕ → ℕ := fun _ => 0
  plicInterruptsProcessed : ℕ := 0
  /-- The calls made so far, latest first. -/
  sends : List SendOutcome := []
  /-- The number of interrupts C0 has claimed. -/
  claimed : ℕ := 0

namespace StatisticsSystem

/-- `tile_send_interrupt_to_c0`, with the platform present. Of the request it builds only the
timestamp is used; what is sent is the trigger. -/
def tileSendInterruptToC0 (s : StatisticsSystem) (tileId : ℤ) (_type : InterruptType)
    (timestamp : ℕ) : ℤ × StatisticsSystem :=
  if tileId < 1 ∨ (numTiles : ℤ) ≤ tileId then (-1, s)
  else
    let tile := tileId.toNat
    let (result, plic) := s.c0.plic.triggerInterrupt tile 0
    let accepted := decide (Accepts tile 0 irqMeshNode)
    let s := { s with c0.plic := plic }
    -- `0` is taken for success
    if result = 0 then
      (result, { s with
        interruptsSent := Function.update s.interruptsSent tile (s.interruptsSent tile + 1)
        lastInterruptTimestamp := Function.update s.lastInterruptTimestamp tile timestamp
        sends := ⟨tile, accepted, false⟩ :: s.sends })
    else (result, { s with sends := ⟨tile, accepted, true⟩ :: s.sends })

/-- `tile_signal_task_complete`. The task id is part of the request. -/
def tileSignalTaskComplete (s : StatisticsSystem) (tileId : ℤ) (_taskId timestamp : ℕ) :
    ℤ × StatisticsSystem := s.tileSendInterruptToC0 tileId .taskComplete timestamp

/-- `tile_signal_error`. -/
def tileSignalError (s : StatisticsSystem) (tileId : ℤ) (_errorCode timestamp : ℕ) :
    ℤ × StatisticsSystem := s.tileSendInterruptToC0 tileId .error timestamp

/-- `tile_signal_dma_complete`. -/
def tileSignalDmaComplete (s : StatisticsSystem) (tileId : ℤ) (_transferId timestamp : ℕ) :
    ℤ × StatisticsSystem := s.tileSendInterruptToC0 tileId .dmaComplete timestamp

/-- The next step of C0: it calls `c0_process_plic_interrupts` again and again. -/
def stepC0 (s : StatisticsSystem) : StatisticsSystem :=
  let (c0, point) := drainStep C0State.dispatchPlic (s.c0, s.point)
  { s with
    c0 := c0
    point := point
    claimed :=
      match point with
      -- a claim has returned an id
      | .handle _ _ => s.claimed + 1
      | _ => s.claimed }

end StatisticsSystem

/-- What happens next: a call of one of the sending functions, or a step of C0. -/
inductive StatisticsAction
  | send (tileId : ℤ) (type : InterruptType) (timestamp : ℕ)
  | signalTaskComplete (tileId : ℤ) (taskId timestamp : ℕ)
  | signalError (tileId : ℤ) (errorCode timestamp : ℕ)
  | signalDmaComplete (tileId : ℤ) (transferId timestamp : ℕ)
  | c0

/-- The tile of a call. -/
def StatisticsAction.sender : StatisticsAction → Option ℤ
  | .send tileId _ _ | .signalTaskComplete tileId _ _ | .signalError tileId _ _
  | .signalDmaComplete tileId _ _ => some tileId
  | .c0 => none

/-- C0 drains the block of hart 0, under its number. -/
def DrainPoint.OnHart0 : DrainPoint → Prop
  | .outside _ => True
  | .claim call | .handle call _ | .complete call _ => call.plic = .c0c1 ∧ call.targetLocal = 0

namespace StatisticsSystem

variable {s : StatisticsSystem} {tile : ℕ}

def step (s : StatisticsSystem) : StatisticsAction → StatisticsSystem
  | .send tileId type timestamp => (s.tileSendInterruptToC0 tileId type timestamp).2
  | .signalTaskComplete tileId taskId timestamp =>
    (s.tileSignalTaskComplete tileId taskId timestamp).2
  | .signalError tileId errorCode timestamp => (s.tileSignalError tileId errorCode timestamp).2
  | .signalDmaComplete tileId transferId timestamp =>
    (s.tileSignalDmaComplete tileId transferId timestamp).2
  | .c0 => s.stepC0

/-- The statistics are those of what has happened: a tile has sent as many interrupts as
were accepted from it, the calls that failed are those that were refused, and C0 has
processed as many as it has claimed. -/
structure Exact (s : StatisticsSystem) : Prop where
  sent : ∀ tile, 1 ≤ tile → tile < numTiles →
    s.interruptsSent tile = s.sends.countP fun send => send.tile = tile ∧ send.accepted
  failed : ∀ send ∈ s.sends, send.failed = !send.accepted
  processed : s.plicInterruptsProcessed = s.claimed

/-- The action sends nothing, and claims nothing: no tile calls, and no source is eligible
for C0 when it claims. -/
def CountsNothing (s : StatisticsSystem) (action : StatisticsAction) : Prop :=
  (∀ tileId, action.sender = some tileId → ¬ (1 ≤ tileId ∧ tileId < (numTiles : ℤ))) ∧
    (action = .c0 → (∃ call, s.point = .claim call) → ∀ src, ¬ s.c0.Eligible src)

/-! ### The calls -/

/-- A trigger of a tile at C0 is accepted, and a call takes its failure branch. -/
theorem tileSendInterruptToC0_eq (valid : 1 ≤ tile ∧ tile < numTiles) (type : InterruptType)
    (timestamp : ℕ) : s.tileSendInterruptToC0 tile type timestamp =
      (1, { s with
        c0.plic := (s.c0.plic.triggerInterrupt tile 0).2
        sends := ⟨tile, true, true⟩ :: s.sends }) := by
  have haccepts : Accepts tile 0 irqMeshNode := FinishingSystem.accepts_signal valid
  have hresult : (s.c0.plic.triggerInterrupt tile 0).1 = 1 :=
    PlicSystem.trigger_fst_eq_one_iff.mpr haccepts
  have hguard : ¬ ((tile : ℤ) < 1 ∨ (numTiles : ℤ) ≤ tile) := by omega
  simp only [tileSendInterruptToC0, if_neg hguard, Int.toNat_natCast, hresult,
    if_neg (one_ne_zero (α := ℤ)), decide_eq_true haccepts]

/-- The number of no tile is refused before anything is done. -/
theorem tileSendInterruptToC0_of_invalid {tileId : ℤ}
    (invalid : ¬ (1 ≤ tileId ∧ tileId < (numTiles : ℤ))) (type : InterruptType)
    (timestamp : ℕ) : s.tileSendInterruptToC0 tileId type timestamp = (-1, s) :=
  if_pos (by omega)

/-- The signalling functions are calls of the one function. -/
theorem step_of_sender {action : StatisticsAction} {tileId : ℤ}
    (sender : action.sender = some tileId) :
    ∃ type timestamp, s.step action = (s.tileSendInterruptToC0 tileId type timestamp).2 := by
  cases action with
  | c0 => exact absurd sender.symm (Option.some_ne_none tileId)
  | send | signalTaskComplete | signalError | signalDmaComplete =>
    obtain rfl := Option.some.inj sender
    exact ⟨_, _, rfl⟩

/-! ### The steps of C0 -/

theorem onHart0_drainStep {dispatch : C0State → ℕ → C0State} {c0 : C0State} {point : DrainPoint}
    (h : point.OnHart0) : (drainStep dispatch (c0, point)).2.OnHart0 := by
  cases point with
  | outside returned =>
    have hselect : c0.plic.plicSelect 0 = (some .c0c1, 0) :=
      PlicState.plicSelect_eq c0.plic.selected (by decide)
    simp only [drainStep, hselect]
    exact ⟨rfl, rfl⟩
  | claim call =>
    change (if 0 < _ then DrainPoint.handle call _ else .outside _).OnHart0
    split_ifs
    · exact h
    · trivial
  | handle call claimId => exact h
  | complete call claimId => exact h

theorem onHart0_step (h : s.point.OnHart0) (action : StatisticsAction) :
    (s.step action).point.OnHart0 := by
  cases hsender : action.sender with
  | some tileId =>
    obtain ⟨type, timestamp, hstep⟩ := step_of_sender (s := s) hsender
    have hpoint : (s.tileSendInterruptToC0 tileId type timestamp).2.point = s.point := by
      simp only [tileSendInterruptToC0]
      split_ifs <;> rfl
    rw [hstep, hpoint]
    exact h
  | none =>
    cases action with
    | c0 => exact onHart0_drainStep h
    | send | signalTaskComplete | signalError | signalDmaComplete =>
      exact absurd hsender (Option.some_ne_none _)

/-- A step of C0 counts as a claim exactly if it claims and a source is eligible. -/
theorem claimed_stepC0 (h : s.point.OnHart0) :
    s.stepC0.claimed = s.claimed ↔
      ((∃ call, s.point = .claim call) → ∀ src, ¬ s.c0.Eligible src) := by
  cases hpoint : s.point with
  | outside returned =>
    have hselect : s.c0.plic.plicSelect 0 = (some .c0c1, 0) :=
      PlicState.plicSelect_eq s.c0.plic.selected (by decide)
    have hclaimed : s.stepC0.claimed = s.claimed := by
      simp only [stepC0, hpoint, drainStep, hselect]
    exact iff_of_true hclaimed (by simp)
  | handle call claimId =>
    have hclaimed : s.stepC0.claimed = s.claimed := by simp only [stepC0, hpoint, drainStep]
    exact iff_of_true hclaimed (by simp)
  | complete call claimId =>
    have hclaimed : s.stepC0.claimed = s.claimed := by simp only [stepC0, hpoint, drainStep]
    exact iff_of_true hclaimed (by simp)
  | claim call =>
    rw [hpoint] at h
    obtain ⟨plic, targetLocal, processed⟩ := call
    obtain ⟨rfl, rfl⟩ : plic = .c0c1 ∧ targetLocal = 0 := h
    by_cases hpos : 0 < s.c0.claim.1
    · have hstep : s.stepC0.claimed = s.claimed + 1 := by
        have hclaim : (s.c0.claimRead .c0c1 0).1 = s.c0.claim.1 := rfl
        simp only [stepC0, hpoint, drainStep, hclaim, if_pos hpos]
      refine iff_of_false (by omega) fun none => ?_
      exact none ⟨_, rfl⟩ _ (C0State.eligible_of_claim hpos).1
    · have hstep : s.stepC0.claimed = s.claimed := by
        have hclaim : (s.c0.claimRead .c0c1 0).1 = s.c0.claim.1 := rfl
        simp only [stepC0, hpoint, drainStep, hclaim, if_neg hpos]
      exact iff_of_true hstep fun _ src => C0State.not_eligible_of_claim (by omega)

/-! ### Runs -/

/-- From exact statistics, an interrupt sent or claimed leads to others. -/
theorem exact_step_iff (h : s.point.OnHart0) (exact : s.Exact) (action : StatisticsAction) :
    (s.step action).Exact ↔ s.CountsNothing action := by
  cases hsender : action.sender with
  | some tileId =>
    obtain ⟨type, timestamp, hstep⟩ := step_of_sender (s := s) hsender
    have hne : action ≠ .c0 := by
      rintro rfl
      exact Option.some_ne_none _ hsender.symm
    rw [hstep]
    by_cases hvalid : 1 ≤ tileId ∧ tileId < (numTiles : ℤ)
    · obtain ⟨tile, rfl⟩ : ∃ tile : ℕ, tileId = tile := ⟨tileId.toNat, by omega⟩
      rw [tileSendInterruptToC0_eq (by omega)]
      -- accepted, and reported as failed
      refine iff_of_false (fun exact' => ?_) fun nothing => nothing.1 tile hsender hvalid
      exact absurd (exact'.failed _ List.mem_cons_self) Bool.true_eq_false.mp
    · rw [tileSendInterruptToC0_of_invalid hvalid]
      refine iff_of_true exact ⟨fun other hother => ?_, fun hc0 => absurd hc0 hne⟩
      obtain rfl := Option.some.inj (hsender.symm.trans hother)
      exact hvalid
  | none =>
    cases action with
    | send | signalTaskComplete | signalError | signalDmaComplete =>
      exact absurd hsender (Option.some_ne_none _)
    | c0 =>
      have hclaimed := claimed_stepC0 h
      constructor
      · intro exact'
        have hprocessed : s.plicInterruptsProcessed = s.stepC0.claimed := exact'.processed
        refine ⟨fun _ hnone => absurd hnone.symm (Option.some_ne_none _), fun _ => ?_⟩
        exact hclaimed.mp (hprocessed.symm.trans exact.processed)
      · intro nothing
        refine ⟨exact.sent, exact.failed, ?_⟩
        exact exact.processed.trans (hclaimed.mpr (nothing.2 rfl)).symm

/-- From zeroed counters, whatever is pending then: the statistics are exact in every state
of a run if and only if the run sends nothing and claims nothing. -/
theorem always_statistics_iff (sent : ∀ tile, s.interruptsSent tile = 0)
    (processed : s.plicInterruptsProcessed = 0) (sends : s.sends = []) (claimed : s.claimed = 0)
    (outside : ∃ returned, s.point = .outside returned) (actions : List StatisticsAction) :
    Always step Exact s actions ↔ EachStep step CountsNothing s actions := by
  obtain ⟨returned, outside⟩ := outside
  have honHart0 : s.point.OnHart0 := by
    rw [outside]
    trivial
  have hexact : s.Exact := by
    refine ⟨fun tile _ _ => ?_, fun send hsend => ?_, ?_⟩
    · rw [sent, sends]
      rfl
    · rw [sends] at hsend
      exact absurd hsend List.not_mem_nil
    · rw [processed, claimed]
  exact always_iff_eachStep (fun _ action h => onHart0_step h action)
    (fun _ action h exact => exact_step_iff h exact action) honHart0 hexact

/-- After set-up. -/
def afterSetup : StatisticsSystem := { c0 := c0On setupSystem }

/-- Tile 1 reports a task, and C0 drains. -/
def oneSignal : List StatisticsAction :=
  .signalTaskComplete 1 1 0 :: List.replicate 6 .c0

theorem always_statistics_iff_oneSignal :
    Always step Exact afterSetup oneSignal ↔ EachStep step CountsNothing afterSetup oneSignal :=
  always_statistics_iff (fun _ => rfl) rfl rfl rfl ⟨0, rfl⟩ oneSignal

/-- The trigger of tile 1 is accepted, and not counted. -/
theorem not_always_statistics_oneSignal : ¬ Always step Exact afterSetup oneSignal := by
  intro always
  have hexact : (afterSetup.tileSendInterruptToC0 (1 : ℕ) .taskComplete 0).2.Exact :=
    always.2.first
  rw [tileSendInterruptToC0_eq (by decide)] at hexact
  exact absurd (hexact.failed _ List.mem_cons_self) Bool.true_eq_false.mp

end StatisticsSystem

end MeshNoc
