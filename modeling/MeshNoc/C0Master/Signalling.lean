import MeshNoc.C0Master.Drain

/-!
# Signals from the tiles to C0

Tiles signal C0 with one trigger each, and C0 serves what it finds. With nothing pending
before, the triggers of distinct harts lie in distinct words, so all of them are pending
when C0 claims.

The completion signal of `PLIC_trigger_interrupt` uses ids from `84` on, where
`c0_process_plic_interrupts` expects the ids `32, …, 39`: it decodes none of them. A sync
request is answered with source `59` whatever hart asked, so harts of one block share
their answer.

## Main results

* `completionsDecoded_iff` — the completion signals are decoded when there are none
* `syncRequestsAnswered_iff` — every sync request is answered when at most one comes from
  the harts `2, …, 7`, which share a block
-/

namespace MeshNoc

open Lib PlicRegDef

namespace PlicSystem

variable {sys : PlicSystem} {b : PlicBlock} {hs : List ℕ} {s ty : ℕ}

/-- `PLIC_trigger_interrupt`. -/
def triggerInterrupt (sys : PlicSystem) (h t : ℕ) : ℤ × PlicSystem :=
  let result := sys.toPlicState.plicTriggerInterrupt h t
  (result.1, ⟨result.2, PlicState.selected_plicTriggerTypedInterrupt sys.selected⟩)

/-- The harts call `PLIC_trigger_interrupt` on hart 0, one after the other. -/
def interruptEach (sys : PlicSystem) (hs : List ℕ) : PlicSystem :=
  hs.foldl (fun sys h => (sys.triggerInterrupt h 0).2) sys

/-- The harts trigger the type at hart 0, one after the other. -/
def triggerEach (sys : PlicSystem) (ty : IrqSourceId) (hs : List ℕ) : PlicSystem :=
  hs.foldl (fun sys h => (sys.trigger h 0 ty).2) sys

theorem interruptEach_eq : sys.interruptEach hs = sys.triggerEach irqMeshNode hs := rfl

theorem triggerEach_concat (h : ℕ) : sys.triggerEach ty (hs ++ [h]) =
    ((sys.triggerEach ty hs).trigger h 0 ty).2 := by
  simp [triggerEach]

theorem sameConfig_triggerEach : SameConfig sys (sys.triggerEach ty hs) := by
  induction hs using List.reverseRecOn with
  | nil => exact .refl sys
  | append_singleton hs h ih =>
    rw [triggerEach_concat]
    exact ih.trans sameConfig_trigger

/-- With nothing pending before, exactly the sources of the triggering harts are pending
in the block of hart 0. -/
theorem pending_triggerEach (clear : ∀ b s, IsSource s → sys.pending b s = false)
    (hty : ty < 32) (tiles : ∀ h ∈ hs, 1 ≤ h ∧ h ≤ 7) (hsource : IsSource s) :
    (sys.triggerEach ty hs).pending b s = true ↔
      b = .c0c1 ∧ ∃ h ∈ hs, s = 32 + 32 * h + ty := by
  induction hs using List.reverseRecOn with
  | nil => simp [triggerEach, clear b s hsource]
  | append_singleton hs h ih =>
    have ih := ih fun h' hh' => tiles h' (List.mem_append_left _ hh')
    have hh := tiles h (by simp)
    have hid : plicCalculateSourceId h 0 ty = 32 + 32 * h + ty :=
      plicCalculateSourceId_eq 0 (by omega) (by omega)
    have accepts : Accepts h 0 ty :=
      ⟨by unfold nrHarts; omega, by decide, by omega, by rw [hid]; omega⟩
    rw [triggerEach_concat, pending_trigger accepts hsource, hid]
    -- each hart has its own word, so a trigger drops no signal of another hart
    by_cases hword : b = hartBlock 0 ∧ s / 32 = (32 + 32 * h + ty) / 32
    · rw [if_pos hword, decide_eq_true_iff]
      constructor
      · intro heq
        exact ⟨hword.1, h, by simp, heq⟩
      · rintro ⟨-, h', hh', heq⟩
        have htile := tiles h' hh'
        have := hword.2
        have hsame : h' = h := by omega
        rw [heq, hsame]
    · rw [if_neg hword, ih]
      refine and_congr_right fun hb => ?_
      constructor
      · rintro ⟨h', hh', heq⟩
        exact ⟨h', List.mem_append_left _ hh', heq⟩
      · rintro ⟨h', hh', heq⟩
        rcases List.mem_append.mp hh' with hh' | hh'
        · exact ⟨h', hh', heq⟩
        · rw [List.mem_singleton.mp hh'] at heq
          exact absurd ⟨hb, by rw [heq]⟩ hword

end PlicSystem

/-- C0 started on the given controllers. -/
def c0On (sys : PlicSystem) : C0State := { plic := sys }

/-- Under the configuration of set-up hart 0 has none of its own ids enabled. -/
theorem ownIdsDisabled_of_setup {c0 : C0State}
    (same : PlicSystem.SameConfig setupSystem c0.plic) : OwnIdsDisabled c0 := by
  intro s hword
  -- the ids `32, …, 63` are those of hart 0, which is no source for itself
  have hs : IsSource s := ⟨by omega, by omega⟩
  rw [(same .c0c1).enabled, Bool.eq_false_iff]
  intro henabled
  simp only [setupSystem] at henabled
  obtain ⟨-, -, h, hh, hne, ty, hty, rfl⟩ := (enabled_setup (by decide) hs).mp henabled
  have hrange := lt_of_mem_supportedTypes ty hty
  rw [plicCalculateSourceId_eq 0 hh (by omega)] at hword
  omega

/-- Once harts `1, …, 7` have signalled a supported type, hart 0 may claim exactly their
sources. -/
theorem eligible_triggerEach {hs : List ℕ} {s ty : ℕ}
    (hty : ty ∈ PlicState.supportedTypes) (tiles : ∀ h ∈ hs, 1 ≤ h ∧ h ≤ 7) :
    (c0On (setupSystem.triggerEach ty hs)).Eligible s ↔ ∃ h ∈ hs, s = 32 + 32 * h + ty := by
  have hrange := lt_of_mem_supportedTypes ty hty
  have clear : ∀ b s, IsSource s → setupSystem.pending b s = false :=
    fun b s _ => pending_setupSystem b s
  constructor
  · rintro ⟨hs', helig⟩
    have hpending := (eligible_iff.mp helig).1
    exact ((PlicSystem.pending_triggerEach clear (by omega) tiles hs').mp hpending).2
  · rintro ⟨h, hh, rfl⟩
    have htile := tiles h hh
    have hs' : IsSource (32 + 32 * h + ty) := ⟨by omega, by omega⟩
    have hpending : (setupSystem.triggerEach ty hs).pending (hartBlock 0) (32 + 32 * h + ty) =
        true := (PlicSystem.pending_triggerEach clear (by omega) tiles hs').mpr ⟨rfl, h, hh, rfl⟩
    have helig : ((setupSystem.triggerEach ty hs).regs (hartBlock 0)).eligible 0
        (32 + 32 * h + ty) = true :=
      (PlicSystem.eligible_iff_of_setup PlicSystem.sameConfig_triggerEach (by decide) hs').mpr
        ⟨hpending, h, by omega, by omega, ty, hty, plicCalculateSourceId_eq 0 (by omega) (by omega)⟩
    exact ⟨hs', helig⟩

/-! ### Completion signals -/

/-- C0 handled a completion signal of hart `h`. -/
def InterruptEvent.isFromTile (h : ℕ) : InterruptEvent → Bool
  | .fromTile h' _ => decide (h' = h)
  | _ => false

/-- The harts signal completion, and the service of C0 then handles one interrupt from
each of them and meets no unknown source. -/
def CompletionsDecoded (sys : PlicSystem) (hs : List ℕ) : Prop :=
  ∃ n c0', Serves c0ProcessPlicInterrupts (c0On (sys.interruptEach hs)) n c0' ∧
    (∀ h, c0'.log.countP (·.isFromTile h) = if h ∈ hs then 1 else 0) ∧
    ∀ id, .unknownSource id ∉ c0'.log

/-- The service records exactly one event for the signal of each hart. -/
theorem log_of_completions {hs : List ℕ} (tiles : ∀ h ∈ hs, 1 ≤ h ∧ h ≤ 7) {n : ℕ}
    {c0' : C0State}
    (serves : Serves c0ProcessPlicInterrupts (c0On (setupSystem.interruptEach hs)) n c0') :
    ∃ ids : List ℕ, c0'.log = ids.map plicEvent ∧
      ∀ s, s ∈ ids ↔ ∃ h ∈ hs, s = 32 + 32 * h + 20 := by
  rw [PlicSystem.interruptEach_eq] at serves
  obtain ⟨n', c0'', ids, hserves, -, hlog, -, hexact⟩ :=
    drainInterrupts_drains C0State.lawfulDispatch_dispatchPlic
      (c0On (setupSystem.triggerEach irqMeshNode hs))
  obtain ⟨-, rfl⟩ := Serves.unique serves hserves
  obtain ⟨hmem, -⟩ := hexact (ownIdsDisabled_of_setup PlicSystem.sameConfig_triggerEach)
  exact ⟨ids, hlog, fun s => (hmem s).trans (eligible_triggerEach (by decide) tiles)⟩

/-- The id of a completion signal is no id the service decodes. -/
theorem plicEvent_completion (h : ℕ) :
    plicEvent (32 + 32 * h + 20) = .unknownSource (32 + 32 * h + 20) := by
  have hbase : sourceBaseId = 32 := rfl
  have hharts : nrHarts = 8 := rfl
  rw [plicEvent, if_neg (by omega)]

/-- A completion signal from any hart makes the service meet an unknown source. -/
theorem not_completionsDecoded {hs : List ℕ} (tiles : ∀ h ∈ hs, 1 ≤ h ∧ h ≤ 7)
    (nonempty : hs ≠ []) : ¬ CompletionsDecoded setupSystem hs := by
  rintro ⟨n, c0', serves, -, hknown⟩
  obtain ⟨ids, hlog, hmem⟩ := log_of_completions tiles serves
  -- any one of the signals is enough
  obtain ⟨h, hh⟩ := List.exists_mem_of_ne_nil hs nonempty
  apply hknown (32 + 32 * h + 20)
  rw [hlog, ← plicEvent_completion h]
  exact List.mem_map_of_mem ((hmem _).mpr ⟨h, hh, rfl⟩)

/-- After set-up, the completion signals of tiles are decoded by the service of C0
exactly when there are none. -/
theorem completionsDecoded_iff {sys : PlicSystem}
    (setup : platformSetup.map (·.plic) = some sys.toPlicState) {hs : List ℕ}
    (tiles : ∀ h ∈ hs, 1 ≤ h ∧ h ≤ 7) : CompletionsDecoded sys hs ↔ hs = [] := by
  obtain rfl := eq_setupSystem setup
  refine ⟨fun decoded => ?_, ?_⟩
  · by_contra nonempty
    exact not_completionsDecoded tiles nonempty decoded
  · rintro rfl
    obtain ⟨n, c0', -, serves, -⟩ := drainInterrupts_drains C0State.lawfulDispatch_dispatchPlic
      (c0On (setupSystem.interruptEach []))
    obtain ⟨ids, hlog, hmem⟩ := log_of_completions tiles serves
    have hnone : ids = [] := List.eq_nil_iff_forall_not_mem.mpr fun s hs => by
      obtain ⟨h, hh, -⟩ := (hmem s).mp hs
      exact List.not_mem_nil hh
    refine ⟨n, c0', serves, fun h => ?_, fun id => ?_⟩ <;> simp [hlog, hnone]

theorem completionsDecoded_iff_all :
    CompletionsDecoded setupSystem [1, 2, 3, 4, 5, 6, 7] ↔ [1, 2, 3, 4, 5, 6, 7] = [] :=
  completionsDecoded_iff platformSetup_plic (by decide)

/-- Hart 1 signals completion, and C0 meets an unknown source. -/
theorem completion_unknown : ¬ ∀ hs : List ℕ, (∀ h ∈ hs, 1 ≤ h ∧ h ≤ 7) →
    CompletionsDecoded setupSystem hs :=
  fun decoded => absurd (decoded [1] (by decide)) (not_completionsDecoded (by decide) (by decide))

/-! ### Sync requests -/

/-- The source of the sync request of hart `h`. -/
def syncRequestId (h : ℕ) : ℕ := 32 + 32 * h + 26

/-- The service, started once the harts have sent their requests. -/
def syncEntry (hs : List ℕ) : C0State := c0On (setupSystem.triggerEach irqSyncRequest hs)

/-- What is pending while C0 serves the requests: the response, in the blocks of the harts
served so far, and the requests not yet claimed. -/
def Answering (hs : List ℕ) (f : DrainFrame) (ids : List ℕ) : Prop :=
  ∀ b s, IsSource s → (f.c0.plic.pending b s = true ↔
    (s = responseToHart1 ∧ ∃ h ∈ hs, syncRequestId h ∈ ids ∧ hartBlock h = b) ∨
      (b = .c0c1 ∧ (∃ h ∈ hs, s = syncRequestId h) ∧ s ∉ ids ++ inHand f.claimId))

section Answering

variable {hs : List ℕ} {f f' : DrainFrame} {ids : List ℕ} {b : PlicBlock} {s : ℕ}

theorem eligible_syncEntry (tiles : ∀ h ∈ hs, 1 ≤ h ∧ h ≤ 7) :
    (syncEntry hs).Eligible s ↔ ∃ h ∈ hs, s = syncRequestId h :=
  eligible_triggerEach (by decide) tiles

theorem pending_syncEntry (tiles : ∀ h ∈ hs, 1 ≤ h ∧ h ≤ 7) (hsource : IsSource s) :
    (syncEntry hs).plic.pending b s = true ↔ b = .c0c1 ∧ ∃ h ∈ hs, s = syncRequestId h :=
  PlicSystem.pending_triggerEach (fun b s _ => pending_setupSystem b s) (by decide) tiles hsource

theorem sameConfig_syncEntry : PlicSystem.SameConfig setupSystem (syncEntry hs).plic :=
  PlicSystem.sameConfig_triggerEach

theorem answering_start (tiles : ∀ h ∈ hs, 1 ≤ h ∧ h ≤ 7) :
    Answering hs ⟨(syncEntry hs).claim.2, (syncEntry hs).claim.1, 0⟩ [] := by
  intro b s hsource
  rw [C0State.pending_claim hsource, Bool.and_eq_true, Bool.not_eq_true',
    decide_eq_false_iff_not, pending_syncEntry tiles hsource, List.nil_append,
    mem_inHand hsource.1]
  simp only [List.not_mem_nil, false_and, and_false, exists_false, false_or]
  tauto

/-- Whatever the loop has claimed, or holds in hand, is a request of one of the harts. -/
theorem exists_request (tiles : ∀ h ∈ hs, 1 ≤ h ∧ h ≤ 7)
    (inv : DrainInv enhancedEvent (syncEntry hs) f ids) (hs' : s ∈ ids ++ inHand f.claimId) :
    ∃ h ∈ hs, s = syncRequestId h := by
  have hdraining := inv.draining (ownIdsDisabled_of_setup sameConfig_syncEntry)
  exact (eligible_syncEntry tiles).mp ((hdraining.complete s).mpr (Or.inl hs'))

/-- Serving the request of hart `h` makes the response pending in the block of `h`. -/
theorem pending_served_request {h : ℕ} (tile : 1 ≤ h ∧ h ≤ 7) (hclaim : f.claimId = syncRequestId h)
    (hsource : IsSource s) : (served C0State.dispatchEnhanced f).plic.pending b s =
      if b = hartBlock h ∧ s / 32 = 1 then decide (s = responseToHart1)
      else f.c0.plic.pending b s := by
  have hbase : sourceBaseId = 32 := rfl
  have hharts : nrHarts = 8 := rfl
  have hhart : (syncRequestId h - sourceBaseId) / 32 = h := by
    unfold syncRequestId
    omega
  have hsync : C0State.IsSyncRequest (syncRequestId h) := by
    unfold C0State.IsSyncRequest
    rw [hhart]
    refine ⟨?_, by omega, ?_⟩
    · unfold syncRequestId
      omega
    · have hmod : (syncRequestId h - sourceBaseId) % 32 = 26 := by
        unfold syncRequestId
        omega
      exact hmod
  rw [pending_served, hclaim, C0State.plic_dispatchEnhanced, if_pos hsync, hhart,
    C0State.pending_trigger_syncResponse hsource]
  exact if_congr (and_congr_left fun _ => ⟨fun hb => hb.2.2, fun hb => ⟨by omega, by omega, hb⟩⟩)
    rfl rfl

/-- The response is pending afterwards where it was before and where the iteration put
it; the claim that ends the iteration does not take it. -/
theorem answering_step_response {h : ℕ} (hh : h ∈ hs) (hclaim : f.claimId = syncRequestId h)
    {pendingBefore : Prop}
    (before : pendingBefore ↔ ∃ h' ∈ hs, syncRequestId h' ∈ ids ∧ hartBlock h' = b) :
    (b = hartBlock h ∨ pendingBefore) ↔
      ∃ h' ∈ hs, syncRequestId h' ∈ ids ++ [f.claimId] ∧ hartBlock h' = b := by
  rw [before]
  constructor
  · rintro (rfl | ⟨h', hh', hids, hb⟩)
    · exact ⟨h, hh, by rw [hclaim]; simp, rfl⟩
    · exact ⟨h', hh', List.mem_append_left _ hids, hb⟩
  · rintro ⟨h', hh', hids, hb⟩
    rcases List.mem_append.mp hids with hids | hids
    · exact Or.inr ⟨h', hh', hids, hb⟩
    · rw [hclaim, List.mem_singleton] at hids
      have hsame : h' = h := by
        unfold syncRequestId at hids
        omega
      exact Or.inl (hb ▸ hsame ▸ rfl)

theorem answering_step (tiles : ∀ h ∈ hs, 1 ≤ h ∧ h ≤ 7)
    (inv : DrainInv enhancedEvent (syncEntry hs) f ids) (answering : Answering hs f ids)
    (continues : drainBody .c0c1 0 C0State.dispatchEnhanced f = some f') :
    Answering hs f' (ids ++ [f.claimId]) := by
  have inv' := drainInv_step C0State.lawfulDispatch_dispatchEnhanced inv continues
  obtain ⟨hpos, rfl⟩ := drainBody_eq_some_iff.mp continues
  obtain ⟨h, hh, hclaim⟩ := exists_request tiles inv
    (List.mem_append_right ids ((mem_inHand hpos).mpr rfl))
  intro b s hsource
  rw [C0State.pending_claim hsource, pending_served_request (tiles h hh) hclaim hsource,
    Bool.and_eq_true, Bool.not_eq_true', decide_eq_false_iff_not]
  have hbefore := answering b s hsource
  by_cases hrequest : ∃ h' ∈ hs, s = syncRequestId h'
  · -- a request: it leaves the pool when it is claimed
    obtain ⟨h', hh', heq⟩ := hrequest
    have htile := tiles h' hh'
    have hword : s / 32 ≠ 1 ∧ s ≠ responseToHart1 := by
      unfold syncRequestId at heq
      unfold responseToHart1
      omega
    have hmem : s ∈ ids ++ [f.claimId] ++ inHand (served C0State.dispatchEnhanced f).claim.1 ↔
        s ∈ ids ++ inHand f.claimId ∨ (served C0State.dispatchEnhanced f).claim.1 = s := by
      rw [List.mem_append, mem_inHand hsource.1, List.mem_append, List.mem_append,
        mem_inHand hsource.1, List.mem_singleton,
        @eq_comm _ s f.claimId]
    rw [if_neg (fun hrow => hword.1 hrow.2), hbefore, hmem, not_or]
    simp only [hword.2, false_and, false_or]
    constructor
    · rintro ⟨⟨hb, hany, hnot⟩, hnext⟩
      exact ⟨hb, hany, hnot, fun heq => hnext ⟨hb, heq⟩⟩
    · rintro ⟨hb, hany, hnot, hnext⟩
      exact ⟨⟨hb, hany, hnot⟩, fun heq => hnext heq.2⟩
  · -- any other source: only the response is ever pending
    have hnext : ¬ (b = .c0c1 ∧ (served C0State.dispatchEnhanced f).claim.1 = s) := by
      rintro ⟨-, heq⟩
      exact hrequest (exists_request tiles inv'
        (List.mem_append_right _ ((mem_inHand hsource.1).mpr heq)))
    rw [and_iff_left hnext]
    simp only [hrequest, false_and, and_false, or_false] at hbefore ⊢
    by_cases hresponse : s = responseToHart1
    · have hword : s / 32 = 1 := by
        rw [hresponse]
        rfl
      rw [and_iff_right hresponse] at hbefore ⊢
      rw [← answering_step_response hh hclaim hbefore]
      by_cases hb : b = hartBlock h
      · rw [if_pos ⟨hb, hword⟩, decide_eq_true hresponse]
        simp [hb]
      · simp [hb]
    · simp only [hresponse, false_and, iff_false] at hbefore ⊢
      split_ifs with hrow
      · simp
      · exact hbefore

/-- When C0 has served the requests, the response is pending in every block with a
requesting hart, and nothing else is pending. -/
theorem exists_answered (tiles : ∀ h ∈ hs, 1 ≤ h ∧ h ≤ 7) :
    ∃ n c0', Serves c0ProcessEnhancedPlicInterrupts (syncEntry hs) n c0' ∧
      PlicSystem.SameConfig setupSystem c0'.plic ∧
      ∀ b s, IsSource s → (c0'.plic.pending b s = true ↔
        s = responseToHart1 ∧ ∃ h ∈ hs, hartBlock h = b) := by
  obtain ⟨f, ids, hserves, hzero, inv, answering⟩ :=
    exists_final_frame C0State.lawfulDispatch_dispatchEnhanced (syncEntry hs)
      (J := fun f ids => Answering hs f ids) (answering_start tiles)
      fun _ _ _ inv hJ continues => answering_step tiles inv hJ continues
  have hdraining := inv.draining (ownIdsDisabled_of_setup sameConfig_syncEntry)
  rw [inHand, if_pos hzero, List.append_nil] at hdraining
  -- nothing is left to claim, so every request was claimed
  have hall : ∀ h ∈ hs, syncRequestId h ∈ ids := fun h hh =>
    (hdraining.mem_iff (inv.stopped hzero)).mpr ((eligible_syncEntry tiles).mpr ⟨h, hh, rfl⟩)
  refine ⟨f.processed, f.c0, hserves, sameConfig_syncEntry.trans inv.config, fun b s hsource => ?_⟩
  rw [answering b s hsource]
  constructor
  · rintro (⟨hresponse, h, hh, -, hb⟩ | ⟨-, ⟨h, hh, rfl⟩, hnot⟩)
    · exact ⟨hresponse, h, hh, hb⟩
    · exact absurd (List.mem_append_left _ (hall h hh)) hnot
  · rintro ⟨hresponse, h, hh, hb⟩
    exact Or.inl ⟨hresponse, h, hh, hall h hh, hb⟩

end Answering

/-! ### The claims of the requesting harts -/

/-- How many sync responses from hart 0 hart `u` obtains when the harts of the list claim
one after the other. -/
def responses (sys : PlicSystem) (claimants : List ℕ) (u : ℕ) : ℕ :=
  (sys.trace (claimants.map PlicOp.hartClaim)).countP fun e =>
    decide (e = (PlicOp.hartClaim u, (plicCalculateSourceId 0 u irqSyncResponse : ℤ)))

/-- The harts send their sync requests and C0 serves them. Then, in whatever order those
harts claim, and whoever claims after them, each requesting hart obtains exactly one
response and no other hart obtains one. -/
def SyncRequestsAnswered (sys : PlicSystem) (hs : List ℕ) : Prop :=
  ∃ n c0', Serves c0ProcessEnhancedPlicInterrupts
      (c0On (sys.triggerEach irqSyncRequest hs)) n c0' ∧
    ∀ first later : List ℕ, (∀ u, u ∈ first ↔ u ∈ hs) → (∀ u ∈ later, u < nrHarts) →
      ∀ u < nrHarts, responses c0'.plic (first ++ later) u = if u ∈ hs then 1 else 0

section Claims

variable {sys : PlicSystem} {claimants : List ℕ} {u u' : ℕ}

theorem responseId {u : ℕ} : plicCalculateSourceId 0 u irqSyncResponse = responseToHart1 :=
  plicCalculateSourceId_eq u (by decide) (by decide)

theorem countP_add_countP_le {α : Type*} {p q r : α → Bool} (hp : ∀ a, p a → r a)
    (hq : ∀ a, q a → r a) (disjoint : ∀ a, p a → q a → False) (l : List α) :
    l.countP p + l.countP q ≤ l.countP r := by
  induction l with
  | nil => simp
  | cons a l ih =>
    have hpa := hp a
    have hqa := hq a
    have hdisjoint := disjoint a
    simp only [List.countP_cons]
    cases hcp : p a <;> cases hcq : q a <;> cases hcr : r a <;> simp_all <;> omega

/-- Claims alone return a source at most once, and not at all when it is not pending. -/
theorem countP_claimed_le (b : PlicBlock) {s : ℕ} (hs : IsSource s) :
    (sys.trace (claimants.map PlicOp.hartClaim)).countP (PlicSystem.claimed b s) ≤
      (sys.pending b s).toNat := by
  have hcount := (PlicSystem.pendingFlag b hs).countP_take_le sys
    (claimants.map PlicOp.hartClaim)
  have hput : ∀ (sys : PlicSystem) (l : List ℕ),
      (sys.trace (l.map PlicOp.hartClaim)).countP (PlicSystem.triggered b s) = 0 := by
    intro sys l
    induction l generalizing sys with
    | nil => rfl
    | cons u l ih =>
      rw [List.map_cons, PlicSystem.trace, runTrace_cons, List.countP_cons_of_neg]
      · exact ih _
      · exact Bool.false_ne_true
  change _ ≤ (sys.trace (claimants.map PlicOp.hartClaim)).countP (PlicSystem.triggered b s) + _
    at hcount
  rw [hput, Nat.zero_add] at hcount
  exact (Nat.le_add_right _ _).trans hcount

/-- A response to hart `u` is a claim of source `59` on the block of `u`. -/
theorem claimed_of_response {e : PlicOp × ℤ}
    (he : e = (PlicOp.hartClaim u, (plicCalculateSourceId 0 u irqSyncResponse : ℤ))) :
    PlicSystem.claimed (hartBlock u) responseToHart1 e = true := by
  rw [he, responseId]
  exact decide_eq_true ⟨rfl, rfl⟩

theorem responses_le : responses sys claimants u ≤
    (sys.pending (hartBlock u) responseToHart1).toNat := by
  refine (List.countP_mono_left fun e _ he => ?_).trans
    (countP_claimed_le (hartBlock u) (by decide))
  exact claimed_of_response (of_decide_eq_true he)

/-- Two harts of one block share at most one response. -/
theorem responses_add_responses_le (hne : u ≠ u') (hblock : hartBlock u = hartBlock u') :
    responses sys claimants u + responses sys claimants u' ≤
      (sys.pending (hartBlock u) responseToHart1).toNat := by
  refine (countP_add_countP_le (fun e he => claimed_of_response (of_decide_eq_true he))
    (fun e he => ?_) (fun e he he' => ?_) _).trans
    (countP_claimed_le (hartBlock u) (by decide))
  · rw [hblock]
    exact claimed_of_response (of_decide_eq_true he)
  -- one claim is made by one hart
  · have heq := (of_decide_eq_true he).symm.trans (of_decide_eq_true he')
    simp only [PlicOp.hartClaim, Prod.mk.injEq, PlicOp.claim.injEq] at heq
    exact hne heq.1.2

/-- The configuration is that of set-up, and at most the response is pending. -/
structure OnlyResponses (sys : PlicSystem) : Prop where
  config : PlicSystem.SameConfig setupSystem sys
  only : ∀ b s, IsSource s → sys.pending b s = true → s = responseToHart1

theorem OnlyResponses.claim (h : OnlyResponses sys) (b : PlicBlock) (t : ℕ) :
    OnlyResponses (sys.claim b t).2 where
  config := h.config.trans PlicSystem.sameConfig_claim
  only b' s hs hpending := by
    rw [PlicSystem.pending_claim hs, Bool.and_eq_true] at hpending
    exact h.only b' s hs hpending.1

/-- A tile that claims while the response is pending in its block obtains it. -/
theorem OnlyResponses.claim_fst (h : OnlyResponses sys) (tile : 1 ≤ u ∧ u ≤ 7)
    (hpending : sys.pending (hartBlock u) responseToHart1 = true) :
    (sys.claim (hartBlock u) u).1 = responseToHart1 := by
  have hresponse : IsSource responseToHart1 := by decide
  refine (PlicSystem.claim_fst_eq_iff (by decide)).mpr ⟨by omega, ?_⟩
  refine bestSource_eq_some_iff.mpr ⟨hresponse, ?_, fun s hs helig hne => ?_⟩
  · exact (PlicSystem.eligible_iff_of_setup h.config (by omega) hresponse).mpr
      ⟨hpending, 0, by decide, by omega, irqSyncResponse, by decide, responseId⟩
  · exact absurd (h.only _ s hs (eligible_iff.mp helig).1) hne

/-- A tile obtains a pending response when it claims before any other hart of its
block. -/
theorem one_le_responses (h : OnlyResponses sys) (tile : 1 ≤ u ∧ u ≤ 7)
    (hpending : sys.pending (hartBlock u) responseToHart1 = true) {first : List ℕ}
    (hu : u ∈ first) (alone : ∀ v ∈ first, hartBlock v = hartBlock u → v = u)
    (later : List ℕ) : 1 ≤ responses sys (first ++ later) u := by
  induction first generalizing sys with
  | nil => exact absurd hu List.not_mem_nil
  | cons v first ih =>
    rw [responses, List.cons_append, List.map_cons, PlicSystem.trace, runTrace_cons,
      List.countP_cons]
    -- either it is the next to claim, or the next one is of another block
    by_cases hv : v = u
    · subst hv
      have hclaim := h.claim_fst tile hpending
      rw [if_pos]
      · exact Nat.le_add_left _ _
      · refine decide_eq_true ?_
        rw [responseId]
        exact congrArg (Prod.mk _) hclaim
    · have hblock : hartBlock v ≠ hartBlock u := fun heq => hv (alone v (by simp) heq)
      have hkept : (sys.claim (hartBlock v) v).2.pending (hartBlock u) responseToHart1 =
          true := by
        rw [PlicSystem.pending_claim (by decide), hpending]
        simp [hblock.symm]
      refine le_trans ?_ (Nat.le_add_right _ _)
      exact ih (h.claim _ _) hkept (List.mem_of_ne_of_mem (Ne.symm hv) hu)
        fun w hw => alone w (List.mem_cons_of_mem v hw)

end Claims

/-- Harts `2, …, 7` share a block; hart 1 shares its block with hart 0 only. -/
theorem hartBlock_eq_iff {u u' : ℕ} (tile : 1 ≤ u ∧ u ≤ 7) (tile' : 1 ≤ u' ∧ u' ≤ 7) :
    hartBlock u = hartBlock u' ↔ u = u' ∨ (2 ≤ u ∧ 2 ≤ u') := by
  unfold hartBlock
  split_ifs <;> simp <;> omega

section Answers

variable {hs : List ℕ}

/-- Two requesting harts of one block cannot both obtain a response. -/
theorem not_syncRequestsAnswered (tiles : ∀ h ∈ hs, 1 ≤ h ∧ h ≤ 7) {h h' : ℕ} (hh : h ∈ hs)
    (hh' : h' ∈ hs) (hne : h ≠ h') (hshared : 2 ≤ h ∧ 2 ≤ h') :
    ¬ SyncRequestsAnswered setupSystem hs := by
  rintro ⟨n, c0', -, answered⟩
  have hcount := answered hs [] (fun u => Iff.rfl) (by simp)
  have htile := tiles h hh
  have htile' := tiles h' hh'
  have hharts : nrHarts = 8 := rfl
  -- each of the two would need a response, and their block holds one
  have hone := hcount h (by omega)
  have hone' := hcount h' (by omega)
  rw [if_pos hh] at hone
  rw [if_pos hh'] at hone'
  have hle : responses c0'.plic (hs ++ []) h + responses c0'.plic (hs ++ []) h' ≤ _ :=
    responses_add_responses_le hne ((hartBlock_eq_iff htile htile').mpr (Or.inr hshared))
  have hbit := Bool.toNat_le (c0'.plic.pending (hartBlock h) responseToHart1)
  omega

/-- When no two requesting harts share a block, every request is answered. -/
theorem syncRequestsAnswered_of_alone (tiles : ∀ h ∈ hs, 1 ≤ h ∧ h ≤ 7)
    (alone : ∀ h ∈ hs, ∀ h' ∈ hs, 2 ≤ h → 2 ≤ h' → h = h') :
    SyncRequestsAnswered setupSystem hs := by
  have hblock : ∀ h ∈ hs, ∀ h' ∈ hs, hartBlock h = hartBlock h' → h = h' := by
    intro h hh h' hh' heq
    rcases (hartBlock_eq_iff (tiles h hh) (tiles h' hh')).mp heq with hsame | ⟨hlow, hlow'⟩
    · exact hsame
    · exact alone h hh h' hh' hlow hlow'
  obtain ⟨n, c0', hserves, hconfig, hpending⟩ := exists_answered tiles
  have hresponse : IsSource responseToHart1 := by decide
  have hstart : OnlyResponses c0'.plic :=
    ⟨hconfig, fun b s hs hp => ((hpending b s hs).mp hp).1⟩
  refine ⟨n, c0', hserves, fun first later hfirst _ u hu => ?_⟩
  -- a requesting hart is alone in its block, so nobody claims its response first
  have hone : ∀ h ∈ hs, 1 ≤ responses c0'.plic (first ++ later) h := fun h hh =>
    one_le_responses hstart (tiles h hh)
      ((hpending (hartBlock h) responseToHart1 hresponse).mpr ⟨rfl, h, hh, rfl⟩)
      ((hfirst h).mpr hh) (fun v hv heq => hblock v ((hfirst v).mp hv) h hh heq) later
  have hbit := Bool.toNat_le (c0'.plic.pending (hartBlock u) responseToHart1)
  have hle : responses c0'.plic (first ++ later) u ≤ _ := responses_le
  split_ifs with hmem
  · have := hone u hmem
    omega
  · -- a hart that sent no request finds nothing, or the request of another hart answered
    cases hp : c0'.plic.pending (hartBlock u) responseToHart1 with
    | false =>
      rw [hp, Bool.toNat_false] at hle
      omega
    | true =>
      obtain ⟨-, h, hh, hshared⟩ := (hpending _ _ hresponse).mp hp
      have hne : h ≠ u := by
        rintro rfl
        exact hmem hh
      have hsum : responses c0'.plic (first ++ later) h + _ ≤ _ :=
        responses_add_responses_le hne hshared
      have hother := hone h hh
      rw [hshared] at hsum
      omega

/-- After set-up, every sync request is answered exactly when at most one of the
requesting harts is among `2, …, 7`. -/
theorem syncRequestsAnswered_iff {sys : PlicSystem}
    (setup : platformSetup.map (·.plic) = some sys.toPlicState)
    (tiles : ∀ h ∈ hs, 1 ≤ h ∧ h ≤ 7) :
    SyncRequestsAnswered sys hs ↔ ∀ h ∈ hs, ∀ h' ∈ hs, 2 ≤ h → 2 ≤ h' → h = h' := by
  obtain rfl := eq_setupSystem setup
  refine ⟨?_, ?_⟩
  · intro answered h hh h' hh' hlow hlow'
    by_contra hne
    exact not_syncRequestsAnswered tiles hh hh' hne ⟨hlow, hlow'⟩ answered
  · exact syncRequestsAnswered_of_alone tiles

/-- Harts 1 and 2 ask, which share no block, and both are answered. -/
theorem syncRequestsAnswered_iff_apart : SyncRequestsAnswered setupSystem [1, 2] :=
  (syncRequestsAnswered_iff platformSetup_plic (by decide)).mpr (by decide)

/-- Harts 2 and 3 ask, and one of them obtains no answer. -/
theorem sync_unanswered : ¬ ∀ hs : List ℕ, hs ≠ [] → hs.Nodup → (∀ h ∈ hs, 1 ≤ h ∧ h ≤ 7) →
    SyncRequestsAnswered setupSystem hs :=
  fun answered => absurd (answered [2, 3] (by decide) (by decide) (by decide))
    (not_syncRequestsAnswered (by decide) (show 2 ∈ [2, 3] by decide)
      (show 3 ∈ [2, 3] by decide) (by decide) (by decide))

end Answers

end MeshNoc
