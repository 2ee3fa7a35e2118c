import MeshNoc.C0Master.Interrupts

/-!
# The source ids of typed triggers

`PLIC_calculate_source_id` reserves 32 ids for each source hart and adds the type to the
first of them. `c0_process_enhanced_plic_interrupts` divides the id by 32 to get the hart
back, and takes the remainder for the type. A type from 32 on leaves the ids of its hart:
unless the sum exceeds the limit of the PLIC the trigger is accepted, and its id is read as
a trigger of another hart.

## Main results

* `faithful_iff` — which triggers the decoder reads back
-/

namespace MeshNoc

open Lib PlicRegDef

/-- The arguments of a call of `PLIC_trigger_typed_interrupt` between two harts. -/
structure TypedTrigger where
  sourceHart : Fin nrHarts
  targetHart : Fin nrHarts
  distinct : sourceHart ≠ targetHart
  irqType : BitVec 32

namespace TypedTrigger

variable {tr : TypedTrigger} {sys : PlicSystem}

/-- The source id of the trigger. -/
def sourceId (tr : TypedTrigger) : ℕ :=
  plicCalculateSourceId tr.sourceHart tr.targetHart tr.irqType.toNat

/-- The call. -/
def call (tr : TypedTrigger) (sys : PlicSystem) : ℤ × PlicSystem :=
  sys.trigger tr.sourceHart tr.targetHart tr.irqType.toNat

/-- The call on `sys` made an id pending that the decoder of C0 reads as this trigger. -/
structure DecodedAfter (tr : TypedTrigger) (sys : PlicSystem) : Prop where
  pending : (tr.call sys).2.pending (hartBlock tr.targetHart) tr.sourceId = true
  range : 32 ≤ tr.sourceId ∧ tr.sourceId ≤ 1023
  decoded : ∀ c0 : C0State, (c0.dispatchEnhanced tr.sourceId).log =
    c0.log ++ [.enhanced tr.sourceHart tr.irqType.toNat tr.sourceId]

/-- The type leaves the trigger among the ids of its hart, or the call is refused. -/
def StaysInHart (tr : TypedTrigger) : Prop :=
  tr.irqType.toNat < 32 ∨ (32 + 32 * tr.sourceHart + tr.irqType.toNat) % 2 ^ 32 = 0 ∨
    1023 < (32 + 32 * tr.sourceHart + tr.irqType.toNat) % 2 ^ 32

theorem accepts_iff :
    Accepts tr.sourceHart tr.targetHart tr.irqType.toNat ↔ tr.sourceId ≠ 0 := by
  have hne : tr.sourceHart.val ≠ tr.targetHart.val := fun h => tr.distinct (Fin.ext h)
  exact ⟨fun accepts => accepts.2.2.2,
    fun hid => ⟨tr.sourceHart.isLt, tr.targetHart.isLt, hne, hid⟩⟩

theorem call_fst_eq_one_iff : (tr.call sys).1 = 1 ↔ tr.sourceId ≠ 0 :=
  PlicSystem.trigger_fst_eq_one_iff.trans accepts_iff

theorem isSource_sourceId (hid : tr.sourceId ≠ 0) : IsSource tr.sourceId :=
  isSource_of_plicCalculateSourceId_ne_zero hid

theorem pending_call (hid : tr.sourceId ≠ 0) :
    (tr.call sys).2.pending (hartBlock tr.targetHart) tr.sourceId = true := by
  rw [call, PlicSystem.pending_trigger (accepts_iff.mpr hid) (isSource_sourceId hid)]
  simp [sourceId]

/-- The id is zero exactly when the sum is zero or above the limit. -/
theorem sourceId_eq_zero_iff : tr.sourceId = 0 ↔
    (32 + 32 * tr.sourceHart + tr.irqType.toNat) % 2 ^ 32 = 0 ∨
      1023 < (32 + 32 * tr.sourceHart + tr.irqType.toNat) % 2 ^ 32 := by
  have hsum : ((32 + tr.sourceHart.val * 32) % 2 ^ 32 + tr.irqType.toNat % 2 ^ 32) % 2 ^ 32 =
      (32 + 32 * tr.sourceHart + tr.irqType.toNat) % 2 ^ 32 := by
    rw [← Nat.add_mod, Nat.mul_comm]
  simp only [sourceId, plicCalculateSourceId, sourceBaseId, hsum]
  split_ifs with h
  · exact ⟨fun _ => Or.inr h, fun _ => rfl⟩
  · exact ⟨Or.inl, fun h' => h'.resolve_right h⟩

/-- A type below 32 is the offset of the id among those of the hart. -/
theorem sourceId_eq (hty : tr.irqType.toNat < 32) :
    tr.sourceId = 32 + 32 * tr.sourceHart + tr.irqType.toNat :=
  plicCalculateSourceId_eq _ tr.sourceHart.isLt (by omega)

theorem enhancedEvent_sourceId (hty : tr.irqType.toNat < 32) :
    enhancedEvent tr.sourceId = .enhanced tr.sourceHart tr.irqType.toNat tr.sourceId := by
  have hid := sourceId_eq hty
  have hhart : (tr.sourceId - sourceBaseId) / 32 = tr.sourceHart := by
    rw [hid, sourceBaseId]
    omega
  have htype : (tr.sourceId - sourceBaseId) % 32 = tr.irqType.toNat := by
    rw [hid, sourceBaseId]
    omega
  rw [enhancedEvent, hhart, htype, if_pos (by rw [hid, sourceBaseId]; omega),
    if_pos tr.sourceHart.isLt]

/-- Whatever type the decoder reads is below 32. -/
theorem lt_of_enhancedEvent_eq {h ty id id' : ℕ} (heq : enhancedEvent id = .enhanced h ty id') :
    ty < 32 := by
  unfold enhancedEvent at heq
  split_ifs at heq
  injection heq with _ htype _
  rw [← htype]
  exact Nat.mod_lt _ (by decide)

/-- The decoder reads an accepted trigger back exactly when its type is below 32. -/
theorem decodedAfter_iff (hid : tr.sourceId ≠ 0) :
    tr.DecodedAfter sys ↔ tr.irqType.toNat < 32 := by
  have records := C0State.lawfulDispatch_dispatchEnhanced.records
  constructor
  · intro h
    have hevent := h.decoded ⟨sys, 0, 0, []⟩
    rw [records] at hevent
    exact lt_of_enhancedEvent_eq (List.singleton_inj.mp (List.append_cancel_left hevent))
  · intro hty
    have hsource := isSource_sourceId hid
    refine ⟨pending_call hid, ⟨?_, hsource.2⟩, fun c0 => ?_⟩
    · rw [sourceId_eq hty]
      omega
    · rw [records, enhancedEvent_sourceId hty]

end TypedTrigger

/-- Among the given triggers each accepted one is decoded as what it is, and two accepted ones
on one instance that differ in source hart or type differ in their id. -/
structure Faithful (triggers : Set TypedTrigger) : Prop where
  decoded : ∀ tr ∈ triggers, ∀ sys, (tr.call sys).1 = 1 → tr.DecodedAfter sys
  distinct : ∀ tr ∈ triggers, ∀ tr' ∈ triggers, ∀ sys sys', (tr.call sys).1 = 1 →
    (tr'.call sys').1 = 1 → hartBlock tr.targetHart = hartBlock tr'.targetHart →
      (tr.sourceHart ≠ tr'.sourceHart ∨ tr.irqType ≠ tr'.irqType) → tr.sourceId ≠ tr'.sourceId

open TypedTrigger

/-- The source ids are faithful for exactly those triggers whose type stays within the ids of
their hart or that are refused. -/
theorem faithful_iff (triggers : Set TypedTrigger) :
    Faithful triggers ↔ ∀ tr ∈ triggers, tr.StaysInHart := by
  constructor
  · intro faithful tr htr
    by_cases hid : tr.sourceId = 0
    · exact Or.inr (sourceId_eq_zero_iff.mp hid)
    · have decoded := faithful.decoded tr htr setupSystem (call_fst_eq_one_iff.mpr hid)
      exact Or.inl ((decodedAfter_iff hid).mp decoded)
  · intro stays
    have below : ∀ tr ∈ triggers, tr.sourceId ≠ 0 → tr.irqType.toNat < 32 :=
      fun tr htr hid => (stays tr htr).resolve_right (mt sourceId_eq_zero_iff.mpr hid)
    constructor
    · intro tr htr sys haccepted
      have hid := call_fst_eq_one_iff.mp haccepted
      exact (decodedAfter_iff hid).mpr (below tr htr hid)
    · intro tr htr tr' htr' sys sys' haccepted haccepted' _ hdiffer heq
      have hty := below tr htr (call_fst_eq_one_iff.mp haccepted)
      have hty' := below tr' htr' (call_fst_eq_one_iff.mp haccepted')
      -- equal ids decode to equal harts and types
      have hevent := enhancedEvent_sourceId hty
      rw [heq, enhancedEvent_sourceId hty'] at hevent
      injection hevent with hhart htype hid
      exact hdiffer.elim (fun h => h (Fin.ext hhart.symm))
        fun h => h (BitVec.eq_of_toNat_eq htype.symm)

/-- Type 33 from hart 1 has the id of type 1 from hart 2. -/
theorem not_faithful : ¬ Faithful Set.univ := by
  intro faithful
  refine faithful.distinct ⟨⟨1, by decide⟩, ⟨0, by decide⟩, by decide, 33⟩ trivial
    ⟨⟨2, by decide⟩, ⟨0, by decide⟩, by decide, 1⟩ trivial setupSystem setupSystem ?_ ?_ rfl
      (Or.inl (by decide)) (by decide)
  · exact call_fst_eq_one_iff.mpr (by decide)
  · exact call_fst_eq_one_iff.mpr (by decide)

end MeshNoc
