import MeshNoc.Interrupt.System
import MeshNoc.Lib.Loop

/-!
# The interrupt service of C0

`c0_process_plic_interrupts` and `c0_process_enhanced_plic_interrupts` are one loop: claim
an interrupt for hart 0, dispatch it, complete it, claim again. They differ in how they
decode the claimed id, and the second one answers a sync request from inside the loop,
which writes a pending word of the block it drains when hart 1 asked.

`log` records one event for each claimed id, the line the code prints for it; the two
counters are those of the platform.

## Main results

* `lawfulDispatch_dispatchPlic`, `lawfulDispatch_dispatchEnhanced` — what the dispatch of
  a claimed id may do to the block that is drained
-/

namespace MeshNoc

open Lib PlicRegDef

/-- What C0 does with one claimed id. -/
inductive InterruptEvent
  | fromTile (sourceHart sourceId : ℕ)
  | unknownSource (sourceId : ℕ)
  | enhanced (sourceHart : ℕ) (irqType : IrqSourceId) (sourceId : ℕ)
  | invalidHart (sourceHart sourceId : ℕ)
  | legacySource (sourceId : ℕ)
  deriving DecidableEq

/-- The claimed id of an event. -/
def InterruptEvent.sourceId : InterruptEvent → ℕ
  | .fromTile _ id | .unknownSource id | .enhanced _ _ id | .invalidHart _ id
  | .legacySource id => id

/-- What C0's interrupt functions read and write. -/
structure C0State where
  plic : PlicSystem
  completedTasks : ℤ := 0
  activeTasks : ℤ := 0
  log : List InterruptEvent := []

namespace C0State

def record (c0 : C0State) (e : InterruptEvent) : C0State := { c0 with log := c0.log ++ [e] }

/-- `handle_plic_interrupt_from_tile`. -/
def handlePlicInterruptFromTile (c0 : C0State) (_sourceHart _sourceId : ℕ) : C0State :=
  { c0 with completedTasks := c0.completedTasks + 1 }

/-- `handle_enhanced_plic_interrupt`. -/
def handleEnhancedPlicInterrupt (c0 : C0State) (sourceHart : ℕ) (irqType : IrqSourceId)
    (_sourceId : ℕ) : C0State :=
  if irqType = irqTaskComplete then
    { c0 with
      completedTasks := c0.completedTasks + 1
      activeTasks := if 0 < c0.activeTasks then c0.activeTasks - 1 else c0.activeTasks }
  -- printed only, like shutdown requests and DMA completions
  else if irqType = irqErrorReport then c0
  else if irqType = irqSyncRequest then
    -- the result of the trigger is ignored
    { c0 with plic := (c0.plic.trigger 0 sourceHart irqSyncResponse).2 }
  else if irqType = irqShutdownRequest then c0
  else if irqType = irqDmaComplete then c0
  -- `default`: every other type counts as a completed task
  else { c0 with completedTasks := c0.completedTasks + 1 }

/-- How `c0_process_plic_interrupts` decodes and handles a claimed id. -/
def dispatchPlic (c0 : C0State) (claimId : ℕ) : C0State :=
  -- one id for each hart, where the triggers use 32 for each
  if sourceBaseId ≤ claimId ∧ claimId < sourceBaseId + nrHarts then
    let sourceHart := claimId - sourceBaseId
    (c0.record (.fromTile sourceHart claimId)).handlePlicInterruptFromTile sourceHart claimId
  else c0.record (.unknownSource claimId)

/-- How `c0_process_enhanced_plic_interrupts` decodes and handles a claimed id. -/
def dispatchEnhanced (c0 : C0State) (claimId : ℕ) : C0State :=
  if sourceBaseId ≤ claimId then
    let offset := claimId - sourceBaseId
    let sourceHart := offset / 32
    let irqType : IrqSourceId := offset % 32
    if sourceHart < nrHarts then
      (c0.record (.enhanced sourceHart irqType claimId)).handleEnhancedPlicInterrupt
        sourceHart irqType claimId
    else c0.record (.invalidHart sourceHart claimId)
  else c0.record (.legacySource claimId)

/-- `uint32_t claim_id = PLIC_M_TAR_claim_read(plic, target_local)`. -/
def claimRead (c0 : C0State) (plic : PlicBlock) (targetLocal : ℕ) : ℕ × C0State :=
  let result := c0.plic.claim plic targetLocal
  -- the `int` becomes a `uint32_t`
  ((result.1 % 2 ^ 32).toNat, { c0 with plic := result.2 })

/-- `PLIC_M_TAR_comp_write(plic, target_local, claim_id)`. -/
def compWrite (c0 : C0State) (plic : PlicBlock) (targetLocal claimId : ℕ) : C0State :=
  { c0 with plic := (c0.plic.complete plic targetLocal claimId).2 }

end C0State

/-- The variables of the loop. -/
structure DrainFrame where
  c0 : C0State
  claimId : ℕ
  processed : ℕ

/-- The loop body shared by both functions. -/
def drainBody (plic : PlicBlock) (targetLocal : ℕ) (dispatch : C0State → ℕ → C0State)
    (f : DrainFrame) : Option DrainFrame :=
  if 0 < f.claimId then
    -- dispatch, complete, then claim for the next iteration
    let c0 := (dispatch f.c0 f.claimId).compWrite plic targetLocal f.claimId
    let (claimId, c0) := c0.claimRead plic targetLocal
    some { c0 := c0, claimId := claimId, processed := f.processed + 1 }
  else none

/-- The function both are instances of, with fuel for its loop. -/
def drainInterrupts (dispatch : C0State → ℕ → C0State) (fuel : ℕ) (c0 : C0State) :
    Option (ℕ × C0State) :=
  match c0.plic.plicSelect 0 with
  -- no controller: nothing is processed
  | (none, _) => some (0, c0)
  | (some plic, targetLocal) =>
    let (claimId, c0) := c0.claimRead plic targetLocal
    (loop (drainBody plic targetLocal dispatch) fuel ⟨c0, claimId, 0⟩).map fun f =>
      (f.processed, f.c0)

/-- `c0_process_plic_interrupts`. The registers it reads before the loop are only
printed. -/
def c0ProcessPlicInterrupts : ℕ → C0State → Option (ℕ × C0State) :=
  drainInterrupts C0State.dispatchPlic

/-- `c0_process_enhanced_plic_interrupts`. -/
def c0ProcessEnhancedPlicInterrupts : ℕ → C0State → Option (ℕ × C0State) :=
  drainInterrupts C0State.dispatchEnhanced

/-! ### What a dispatch may do -/

/-- The event `c0_process_plic_interrupts` records for a claimed id. -/
def plicEvent (id : ℕ) : InterruptEvent :=
  if sourceBaseId ≤ id ∧ id < sourceBaseId + nrHarts then .fromTile (id - sourceBaseId) id
  else .unknownSource id

/-- The event `c0_process_enhanced_plic_interrupts` records for a claimed id. -/
def enhancedEvent (id : ℕ) : InterruptEvent :=
  if sourceBaseId ≤ id then
    if (id - sourceBaseId) / 32 < nrHarts then
      .enhanced ((id - sourceBaseId) / 32) ((id - sourceBaseId) % 32) id
    else .invalidHart ((id - sourceBaseId) / 32) id
  else .legacySource id

/-- The response to a sync request of hart 1, the one source a dispatch may make pending
in the block that is drained. -/
def responseToHart1 : ℕ := 59

/-- What the loop relies on: a dispatch records the event of its id, keeps the
configuration, and in the drained block makes at most the response to hart 1 pending,
without touching other words. Handling that response itself makes nothing pending. -/
structure LawfulDispatch (dispatch : C0State → ℕ → C0State) (event : ℕ → InterruptEvent) :
    Prop where
  records : ∀ c0 id, (dispatch c0 id).log = c0.log ++ [event id]
  sourceId_event : ∀ id, (event id).sourceId = id
  config : ∀ c0 id, PlicSystem.SameConfig c0.plic (dispatch c0 id).plic
  other_words : ∀ c0 id s, IsSource s → s / 32 ≠ 1 →
    (dispatch c0 id).plic.pending .c0c1 s = c0.plic.pending .c0c1 s
  adds : ∀ c0 id s, IsSource s → (dispatch c0 id).plic.pending .c0c1 s = true →
    c0.plic.pending .c0c1 s = true ∨ (s = responseToHart1 ∧ id ≠ responseToHart1)

namespace C0State

theorem plic_dispatchPlic (c0 : C0State) (id : ℕ) : (c0.dispatchPlic id).plic = c0.plic := by
  unfold dispatchPlic
  split_ifs <;> rfl

theorem lawfulDispatch_dispatchPlic : LawfulDispatch dispatchPlic plicEvent where
  records c0 id := by
    unfold dispatchPlic plicEvent
    split_ifs <;> rfl
  sourceId_event id := by
    unfold plicEvent
    split_ifs <;> rfl
  config c0 id := by
    rw [plic_dispatchPlic]
    exact .refl _
  other_words c0 id s _ _ := by rw [plic_dispatchPlic]
  adds c0 id s _ hpending := by
    rw [plic_dispatchPlic] at hpending
    exact Or.inl hpending

theorem plic_handleEnhancedPlicInterrupt (c0 : C0State) (h : ℕ) (ty : IrqSourceId) (id : ℕ) :
    (c0.handleEnhancedPlicInterrupt h ty id).plic =
      if ty = irqSyncRequest then (c0.plic.trigger 0 h irqSyncResponse).2 else c0.plic := by
  by_cases hsync : ty = irqSyncRequest
  · subst hsync
    rfl
  · unfold handleEnhancedPlicInterrupt
    simp only [if_neg hsync]
    split_ifs <;> rfl

theorem log_handleEnhancedPlicInterrupt (c0 : C0State) (h : ℕ) (ty : IrqSourceId) (id : ℕ) :
    (c0.handleEnhancedPlicInterrupt h ty id).log = c0.log := by
  unfold handleEnhancedPlicInterrupt
  split_ifs <;> rfl

/-- The id is a sync request of some hart. -/
def IsSyncRequest (id : ℕ) : Prop :=
  sourceBaseId ≤ id ∧ (id - sourceBaseId) / 32 < nrHarts ∧
    (id - sourceBaseId) % 32 = irqSyncRequest

instance (id : ℕ) : Decidable (IsSyncRequest id) := inferInstanceAs (Decidable (_ ∧ _ ∧ _))

/-- The enhanced dispatch touches the controllers only to answer a sync request. -/
theorem plic_dispatchEnhanced (c0 : C0State) (id : ℕ) :
    (c0.dispatchEnhanced id).plic =
      if IsSyncRequest id then (c0.plic.trigger 0 ((id - sourceBaseId) / 32) irqSyncResponse).2
      else c0.plic := by
  unfold dispatchEnhanced IsSyncRequest
  by_cases hbase : sourceBaseId ≤ id
  · by_cases hhart : (id - sourceBaseId) / 32 < nrHarts
    · simp only [hbase, hhart, if_true, true_and, plic_handleEnhancedPlicInterrupt]
      rfl
    · simp only [hbase, hhart, if_true, if_false, false_and, and_false]
      rfl
  · simp only [hbase, if_false, false_and]
    rfl

/-- A response to hart `h` is the source `59`, in the block of that hart. -/
theorem pending_trigger_syncResponse {sys : PlicSystem} {b : PlicBlock} {h s : ℕ}
    (hs : IsSource s) : (sys.trigger 0 h irqSyncResponse).2.pending b s =
      if (h ≠ 0 ∧ h < 8 ∧ b = hartBlock h) ∧ s / 32 = 1 then decide (s = responseToHart1)
      else sys.pending b s := by
  have hid : plicCalculateSourceId 0 h irqSyncResponse = responseToHart1 :=
    plicCalculateSourceId_eq h (by decide) (by decide)
  by_cases accepts : Accepts 0 h irqSyncResponse
  -- hart 0 itself and numbers of no hart are refused
  · have hh : h ≠ 0 ∧ h < 8 := ⟨accepts.2.2.1.symm, accepts.2.1⟩
    rw [PlicSystem.pending_trigger accepts hs, hid]
    exact if_congr (by rw [and_iff_right hh.1, and_iff_right hh.2]; rfl) rfl rfl
  · rw [(PlicSystem.trigger_of_not_accepts accepts).2, if_neg]
    rintro ⟨⟨hne, hlt, -⟩, -⟩
    exact accepts ⟨by decide, hlt, hne.symm, by rw [hid]; decide⟩

theorem lawfulDispatch_dispatchEnhanced : LawfulDispatch dispatchEnhanced enhancedEvent where
  records c0 id := by
    simp only [dispatchEnhanced, enhancedEvent]
    split_ifs
    · rw [log_handleEnhancedPlicInterrupt]
      rfl
    · rfl
    · rfl
  sourceId_event id := by
    unfold enhancedEvent
    split_ifs <;> rfl
  config c0 id := by
    rw [plic_dispatchEnhanced]
    split_ifs
    · exact PlicSystem.sameConfig_trigger
    · exact .refl _
  other_words c0 id s hs hword := by
    rw [plic_dispatchEnhanced]
    split_ifs
    · rw [pending_trigger_syncResponse hs, if_neg (fun h => hword h.2)]
    · rfl
  adds c0 id s hs hpending := by
    rw [plic_dispatchEnhanced] at hpending
    split_ifs at hpending with hsync
    · rw [pending_trigger_syncResponse hs] at hpending
      split_ifs at hpending
      -- a response is no request, so handling it adds nothing
      · refine Or.inr ⟨of_decide_eq_true hpending, ?_⟩
        rintro rfl
        exact absurd hsync.2.2 (by decide)
      · exact Or.inl hpending
    · exact Or.inl hpending

end C0State

end MeshNoc
