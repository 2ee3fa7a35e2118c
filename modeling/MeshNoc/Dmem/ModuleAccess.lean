import MeshNoc.Dmem.DmemController
import MeshNoc.PlatformInit.Validation

/-!
# Access to one DMEM module

`dmem_read` and `dmem_write` name a module and an offset, add the offset to the base of the
module and validate the sum like any address. Validation asks for a region, not for the
module, so an offset that leaves the module is refused only where it ends up outside every
region of one kind. The modules lie `0x400000` apart, and from an offset of that size on the
driver accesses the next one.

## Main results

* `dmemRead_eq`, `dmemWrite_eq` — inside the module the driver accesses the module
* `confinedToModule_iff` — the arguments on which it keeps to the module
-/

namespace MeshNoc

open Lib

variable {m : Mem} {dmemId : ℤ} {offset size : Addr}

/-- A module is named, and the range lies inside it. -/
structure InModule (dmemId : ℤ) (offset size : Addr) : Prop where
  named : 0 ≤ dmemId ∧ dmemId < numDmems
  nonempty : 1 ≤ size.toNat
  inside : offset.toNat + size.toNat ≤ 0x40000

/-- The `n` bytes of a module from an offset on. -/
def moduleBytes (m : Mem) (dmemId : ℤ) (offset n : ℕ) : List Byte :=
  (List.range n).map fun k => m (.dmem dmemId.toNat) (offset + k)

/-- A write of the first `size` bytes of the buffer to the module: they are stored from the
offset on, and nothing else changes. -/
structure WroteModule (m m' : Mem) (dmemId : ℤ) (offset size : Addr) (buffer : List Byte) :
    Prop where
  stored : moduleBytes m' dmemId offset.toNat size.toNat = buffer.take size.toNat
  rest : ∀ b i, ¬ (b = .dmem dmemId.toNat ∧ offset.toNat ≤ i ∧
    i < offset.toNat + size.toNat) → m' b i = m b i

/-- Both functions access the bytes of the module if the range lies inside it, and refuse the
access without effect if it does not; what has been written is read back. The buffer holds at
least `size` bytes. -/
structure ConfinedToModule (p : MeshPlatform) (m : Mem) (dmemId : ℤ) (offset size : Addr) :
    Prop where
  reads : InModule dmemId offset size → ∀ buffer : List Byte, size.toNat ≤ buffer.length →
    dmemRead p m dmemId offset (some buffer) size = some ((size.toNat : ℤ),
      some (moduleBytes m dmemId offset.toNat size.toNat ++ buffer.drop size.toNat))
  writes : InModule dmemId offset size → ∀ buffer : List Byte, size.toNat ≤ buffer.length →
    ∃ m', dmemWrite p m dmemId offset (some buffer) size = some ((size.toNat : ℤ), m') ∧
      WroteModule m m' dmemId offset size buffer
  readsBack : ∀ (buffer target : List Byte) (m' : Mem), size.toNat ≤ buffer.length →
    size.toNat ≤ target.length →
      dmemWrite p m dmemId offset (some buffer) size = some ((size.toNat : ℤ), m') →
        dmemRead p m' dmemId offset (some target) size =
          some ((size.toNat : ℤ), some (buffer.take size.toNat ++ target.drop size.toNat))
  refusesRead : ¬ InModule dmemId offset size → ∀ buffer : List Byte,
    size.toNat ≤ buffer.length →
      dmemRead p m dmemId offset (some buffer) size = some (-1, some buffer)
  refusesWrite : ¬ InModule dmemId offset size → ∀ buffer : List Byte,
    size.toNat ≤ buffer.length →
      dmemWrite p m dmemId offset (some buffer) size = some (-1, m)

/-- The arguments name no module, keep to the module, or are refused by the validation. -/
def StaysInModule (dmemId : ℤ) (offset size : Addr) : Prop :=
  ¬ (0 ≤ dmemId ∧ dmemId < numDmems) ∨ offset.toNat + size.toNat ≤ 0x40000 ∨
    validateAddress (dmemAddr dmemId offset) size = false

instance : Decidable (StaysInModule dmemId offset size) :=
  inferInstanceAs (Decidable (_ ∨ _ ∨ _))

/-- The memory behind a write inside the module. -/
def moduleWritten (m : Mem) (dmemId : ℤ) (offset size : Addr) (buffer : List Byte) : Mem :=
  m.put ⟨some (.dmem dmemId.toNat), offset.toNat⟩ size.toNat fun k => buffer.getD k 0

section Inside

variable (h : InModule dmemId offset size)
include h

/-- The range lies in the region of the module. -/
theorem InModule.contains : ∃ id : Fin 8, id.val = dmemId.toNat ∧
    (Region.dmem id).Contains (dmemAddr dmemId offset) size ∧
      (dmemAddr dmemId offset).toNat = (Region.dmem id).base + offset.toNat := by
  obtain ⟨hlow, hhigh⟩ := h.named
  have hnonempty := h.nonempty
  have hinside := h.inside
  have hnum : (numDmems : ℤ) = 8 := rfl
  have hid : dmemId.toNat < 8 := by omega
  have hbase : (dmemBases.getD dmemId.toNat 0).toNat =
      (Region.dmem ⟨dmemId.toNat, hid⟩).base := dmemBase_toNat hid
  have hend := (Region.dmem ⟨dmemId.toNat, hid⟩).base_add_length_lt
  simp only [Region.length] at hend
  have haddr : (dmemAddr dmemId offset).toNat =
      (Region.dmem ⟨dmemId.toNat, hid⟩).base + offset.toNat := by
    rw [dmemAddr, BitVec.toNat_add, hbase, Nat.mod_eq_of_lt (by omega)]
  refine ⟨⟨dmemId.toNat, hid⟩, rfl, ⟨?_, ?_, ?_⟩, haddr⟩
  · rintro rfl
    exact absurd hnonempty (by decide)
  · exact Nat.le.intro haddr.symm
  · change (dmemAddr dmemId offset).toNat + size.toNat ≤ (Region.dmem _).base + 0x40000
    omega

/-- Translation gives the byte of the module at the offset. -/
theorem InModule.addrToPtr_eq : addrToPtr platformAfterSetup (dmemAddr dmemId offset) =
    ⟨some (.dmem dmemId.toNat), offset.toNat⟩ := by
  obtain ⟨id, hid, hcontains, haddr⟩ := h.contains
  rw [hcontains.addrToPtr_eq, haddr, ← hid]
  change Ptr.mk (some (Buffer.dmem id)) (0 + ((Region.dmem id).base + offset.toNat -
    (Region.dmem id).base)) = _
  rw [Nat.zero_add, Nat.add_sub_cancel_left]

theorem InModule.validateAddress_eq : validateAddress (dmemAddr dmemId offset) size = true := by
  obtain ⟨id, -, hcontains, -⟩ := h.contains
  exact hcontains.validateAddress_eq

theorem InModule.accepted {buffer : List Byte} :
    ¬ (dmemId < 0 ∨ (numDmems : ℤ) ≤ dmemId ∨ some buffer = none) := by
  obtain ⟨hlow, hhigh⟩ := h.named
  rintro (hneg | hlarge | hnull)
  · omega
  · omega
  · simp at hnull

theorem InModule.intOfSize_eq : intOfSize size = size.toNat := by
  have := h.inside
  exact intOfSize_of_lt (by omega)

theorem InModule.within :
    (Ptr.mk (some (Buffer.dmem dmemId.toNat)) offset.toNat).Within Buffer.size size.toNat :=
  h.inside

/-- Inside the module `dmem_read` returns its bytes. -/
theorem dmemRead_eq (m : Mem) {buffer : List Byte} (long : size.toNat ≤ buffer.length) :
    dmemRead platformAfterSetup m dmemId offset (some buffer) size = some ((size.toNat : ℤ),
      some (moduleBytes m dmemId offset.toNat size.toNat ++ buffer.drop size.toNat)) := by
  have hnull : (⟨some (.dmem dmemId.toNat), offset.toNat⟩ : Ptr Buffer) ≠ .null :=
    Ptr.mk_some_ne_null _ _
  rw [dmemRead, if_neg h.accepted]
  simp only [h.validateAddress_eq, h.addrToPtr_eq, Bool.not_true, Bool.false_eq_true, if_false,
    if_neg hnull, Memory.load, if_pos h.within, Option.bind_eq_bind, Option.bind_some,
    if_pos long, h.intOfSize_eq]
  rfl

/-- Inside the module `dmem_write` stores the bytes of the buffer there. -/
theorem dmemWrite_eq (m : Mem) {buffer : List Byte} (long : size.toNat ≤ buffer.length) :
    dmemWrite platformAfterSetup m dmemId offset (some buffer) size =
      some ((size.toNat : ℤ), moduleWritten m dmemId offset size buffer) := by
  have hnull : (⟨some (.dmem dmemId.toNat), offset.toNat⟩ : Ptr Buffer) ≠ .null :=
    Ptr.mk_some_ne_null _ _
  have hlength : (buffer.take size.toNat).length = size.toNat := List.length_take_of_le long
  have hstore : m.store Buffer.size ⟨some (.dmem dmemId.toNat), offset.toNat⟩
      (buffer.take size.toNat) = some (moduleWritten m dmemId offset size buffer) := by
    rw [Memory.store, hlength, if_pos h.within, moduleWritten]
    congr 1
    refine Memory.put_congr fun k hk => ?_
    simp only [List.getD_eq_getElem?_getD, List.getElem?_take_of_lt hk]
  rw [dmemWrite, if_neg h.accepted]
  simp only [h.validateAddress_eq, h.addrToPtr_eq, Bool.not_true, Bool.false_eq_true, if_false,
    if_neg hnull, Option.bind_eq_bind, Option.bind_some, if_pos long, hstore, h.intOfSize_eq]

end Inside

/-- What is written is what the module then holds, and the rest of memory is as it was. -/
theorem wroteModule_moduleWritten (m : Mem) {buffer : List Byte}
    (long : size.toNat ≤ buffer.length) :
    WroteModule m (moduleWritten m dmemId offset size buffer) dmemId offset size buffer where
  stored := by
    refine List.ext_getElem (by simp [moduleBytes, long]) fun k hk _ => ?_
    have hk : k < size.toNat := by simpa [moduleBytes] using hk
    have hlong : k < buffer.length := hk.trans_le long
    simp [moduleBytes, moduleWritten, Memory.put, hk, hlong]
  rest b i outside := by
    refine Memory.put_apply_of_not_mem fun inside => outside ?_
    exact ⟨(Option.some.inj inside.1).symm, inside.2⟩

/-! ### Refused and misdirected accesses -/

section Outside

variable {p : MeshPlatform} {buffer : List Byte}

/-- A range that names no module or is not valid is refused. -/
theorem dmemRead_refused (m : Mem) (refused : ¬ (0 ≤ dmemId ∧ dmemId < numDmems) ∨
    validateAddress (dmemAddr dmemId offset) size = false) :
    dmemRead p m dmemId offset (some buffer) size = some (-1, some buffer) := by
  rw [dmemRead]
  by_cases named : 0 ≤ dmemId ∧ dmemId < numDmems
  · simp only [refused.resolve_left (not_not.mpr named), Bool.not_false, if_true, ite_self]
  · exact if_pos (by omega)

theorem dmemWrite_refused (m : Mem) (refused : ¬ (0 ≤ dmemId ∧ dmemId < numDmems) ∨
    validateAddress (dmemAddr dmemId offset) size = false) :
    dmemWrite p m dmemId offset (some buffer) size = some (-1, m) := by
  rw [dmemWrite]
  by_cases named : 0 ≤ dmemId ∧ dmemId < numDmems
  · simp only [refused.resolve_left (not_not.mpr named), Bool.not_false, if_true, ite_self]
  · exact if_pos (by omega)

theorem Buffer.size_le (b : Buffer) : b.size ≤ 0x30000000 := by
  cases b with
  | memoryPool => exact le_rfl
  | dlm64 => exact (by decide : dlm64Size.toNat ≤ 0x30000000)
  | dlm1_512 => exact (by decide : dlm1_512Size.toNat ≤ 0x30000000)
  | dmaRegs => exact (by decide : dmaRegSize.toNat ≤ 0x30000000)
  | dmem => exact (by decide : dmem512Size.toNat ≤ 0x30000000)
  | plic => exact (by decide : plicSize.toNat ≤ 0x30000000)

/-- A named module and a valid range are accepted wherever the range lies: the access is
undefined, or it returns the size. -/
theorem dmemRead_ne_refused (m : Mem) (named : 0 ≤ dmemId ∧ dmemId < numDmems)
    (valid : validateAddress (dmemAddr dmemId offset) size = true) :
    dmemRead platformAfterSetup m dmemId offset (some buffer) size ≠ some (-1, some buffer) := by
  intro hrefused
  obtain ⟨r, covers⟩ := exists_covers (validateAddress_eq_true.mp valid).2.1
  have hptr := addrToPtr_of_covers covers
  have hnull : addrToPtr platformAfterSetup (dmemAddr dmemId offset) ≠ .null := by
    rw [hptr]
    exact regionPlacement.ptrAt_ne_null r _
  rw [dmemRead, if_neg (by simp; omega)] at hrefused
  simp only [valid, Bool.not_true, Bool.false_eq_true, if_false, if_neg hnull, Memory.load,
    Option.bind_eq_bind, Option.bind_some] at hrefused
  -- the bytes are only read when they lie in one buffer, and then the size is small
  by_cases within : (addrToPtr platformAfterSetup (dmemAddr dmemId offset)).Within Buffer.size
      size.toNat
  · rw [if_pos within, Option.bind_some] at hrefused
    split_ifs at hrefused with hlong
    have hsmall : size.toNat ≤ 0x30000000 := by
      rw [hptr] at within
      exact (Nat.le_add_left _ _).trans (within.trans (Buffer.size_le _))
    have hresult := (Prod.mk.inj (Option.some.inj hrefused)).1
    rw [intOfSize_of_lt (by omega)] at hresult
    omega
  · rw [if_neg within, Option.bind_none] at hrefused
    simp at hrefused

end Outside

/-- Arguments that stay in the module, but name no bytes of it, are refused: if only for an
empty range. -/
theorem StaysInModule.refused (stays : StaysInModule dmemId offset size)
    (outside : ¬ InModule dmemId offset size) : ¬ (0 ≤ dmemId ∧ dmemId < numDmems) ∨
      validateAddress (dmemAddr dmemId offset) size = false := by
  by_cases named : 0 ≤ dmemId ∧ dmemId < numDmems
  · rcases stays.resolve_left (not_not.mpr named) with hinside | hinvalid
    · have hempty : size = 0 := by
        by_contra hne
        exact outside ⟨named, by bv_omega, hinside⟩
      rw [hempty]
      exact .inr (if_pos rfl)
    · exact .inr hinvalid
  · exact .inl named

/-- The driver keeps to the module it is given exactly when no module is named, the range
lies inside the module as natural numbers, or the range is not valid at all. -/
theorem confinedToModule_iff {st : PlatformState} (setup : platformSetup = some st) (m : Mem)
    (dmemId : ℤ) (offset size : Addr) :
    ConfinedToModule st.platform m dmemId offset size ↔ StaysInModule dmemId offset size := by
  obtain rfl := Option.some.inj (platformSetup_eq.symm.trans setup)
  constructor
  · intro confined
    by_contra leaves
    obtain ⟨named, hlong, hvalid⟩ := by simpa only [StaysInModule, not_or, not_not] using leaves
    have hlength : size.toNat ≤ (List.replicate size.toNat (0 : Byte)).length := by simp
    exact dmemRead_ne_refused m named (Bool.not_eq_false _ ▸ hvalid)
      (confined.refusesRead (fun h => hlong h.inside) _ hlength)
  · intro stays
    refine ⟨fun h buffer long => dmemRead_eq h m long, fun h buffer long =>
      ⟨_, dmemWrite_eq h m long, wroteModule_moduleWritten m long⟩, ?_,
      fun h buffer _ => dmemRead_refused m (stays.refused h),
      fun h buffer _ => dmemWrite_refused m (stays.refused h)⟩
    intro buffer target m' long long' hwrite
    by_cases h : InModule dmemId offset size
    · rw [dmemWrite_eq h m long] at hwrite
      obtain ⟨-, rfl⟩ := Prod.mk.inj (Option.some.inj hwrite)
      rw [dmemRead_eq h _ long', (wroteModule_moduleWritten m long).stored]
    · rw [dmemWrite_refused m (stays.refused h)] at hwrite
      have := (Prod.mk.inj (Option.some.inj hwrite)).1
      omega

/-- The last byte of the first module. -/
theorem confinedToModule_iff_last : ∃ st, platformSetup = some st ∧
    (ConfinedToModule st.platform zeroMem 0 0x3FFFF 1 ↔ StaysInModule 0 0x3FFFF 1) :=
  ⟨_, platformSetup_eq, confinedToModule_iff platformSetup_eq zeroMem 0 0x3FFFF 1⟩

/-- At offset `0x400000` of the first module the driver reads the second one. -/
theorem not_confinedToModule_next : ¬ ∀ st, platformSetup = some st → ∀ m dmemId offset size,
    ConfinedToModule st.platform m dmemId offset size := by
  intro confined
  have hvalid : validateAddress (dmemAddr 0 0x400000) 1 = true := by decide +kernel
  exact dmemRead_ne_refused zeroMem (by decide) hvalid
    ((confined _ platformSetup_eq zeroMem 0 0x400000 1).refusesRead
      (fun h => absurd h.inside (by decide)) [0] (by decide))

end MeshNoc
