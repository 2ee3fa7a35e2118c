import MeshNoc.Dmem.DmemController
import MeshNoc.PlatformInit.Validation

/-!
# Access to DMEM registers

A register access is four bytes wide and may start at any address, while its guard asks for
the region of the first byte alone. In the last three bytes of a module it accepts an access
that leaves the buffer of the module, where the other functions of the driver validate the
whole range.

## Main results

* `dmemWriteReg_eq`, `dmemReadReg_eq` — the access inside a module
* `registerKeepsToModule_iff` — the addresses at which the access keeps to the module
-/

namespace MeshNoc

open Lib

variable {m : Mem} {a : Addr} {value : BitVec 32}

/-- A write of the four bytes from `a` on: all of them lie in the module of `a`, and no other
byte changes. -/
structure WroteRegister (p : MeshPlatform) (m m' : Mem) (a : Addr) : Prop where
  inside : ∀ id : Fin 8, (Region.dmem id).Covers a → ∀ i < 4,
    (Region.dmem id).Covers (a + BitVec.ofNat 64 i)
  rest : ∀ b k, (∀ i < 4, addrToPtr p (a + BitVec.ofNat 64 i) ≠ ⟨some b, k⟩) → m' b k = m b k

/-- In the DMEM region `dmem_write_reg` writes the four bytes or nothing, and what it wrote
is read back; elsewhere neither function touches memory. The write is performed when the
address has a pointer. -/
structure RegisterKeepsToModule (p : MeshPlatform) (m : Mem) (a : Addr) (value : BitVec 32) :
    Prop where
  dmem : getAddressRegion a = .dmem512 → ∃ m', dmemWriteReg p m a value = some m' ∧
    (m' = m ∨ WroteRegister p m m' a) ∧
      (addrToPtr p a ≠ .null → dmemReadReg p m' a = some value)
  elsewhere : getAddressRegion a ≠ .dmem512 →
    dmemWriteReg p m a value = some m ∧ dmemReadReg p m a = some 0

section Inside

variable {id : Fin 8} (covers : (Region.dmem id).Covers a)
include covers

/-- Past the guard a write is a store at the offset in the module. -/
theorem dmemWriteReg_eq : dmemWriteReg platformAfterSetup m a value =
    m.store32 Buffer.size (regionPlacement.ptrAt (.dmem id) a.toNat) value := by
  have hregion : getAddressRegion a = .dmem512 := getAddressRegion_of_covers covers
  have hptr := regionPlacement.ptrAt_ne_null (.dmem id) a.toNat
  simp only [dmemWriteReg, if_pos hregion, addrToPtr_of_covers covers, if_pos hptr]

/-- And a read is a load there. -/
theorem dmemReadReg_eq : dmemReadReg platformAfterSetup m a =
    m.load32 Buffer.size (regionPlacement.ptrAt (.dmem id) a.toNat) := by
  have hregion : getAddressRegion a = .dmem512 := getAddressRegion_of_covers covers
  have hptr := regionPlacement.ptrAt_ne_null (.dmem id) a.toNat
  simp only [dmemReadReg, if_pos hregion, addrToPtr_of_covers covers, if_pos hptr]

/-- The modules are so far apart that four valid bytes from one of them on lie in it. -/
theorem contains_four_iff : (Region.dmem id).Contains a 4 ↔ validateAddress a 4 = true := by
  refine ⟨fun contains => contains.validateAddress_eq, fun valid => ?_⟩
  have hlast : getAddressRegion (a + 3) = .dmem512 := by
    have hkind := (validateAddress_eq_true.mp valid).2.2
    rw [getAddressRegion_of_covers covers] at hkind
    rw [show a + 3 = a + 4 - 1 by bv_omega, ← hkind]
    rfl
  obtain ⟨other, hother⟩ := exists_dmem_covers hlast
  have hlow := Region.covers_iff.mp covers
  have hhigh := Region.covers_iff.mp hother
  simp only [Region.base, Region.length] at hlow hhigh
  refine ⟨by decide, covers.1, ?_⟩
  change a.toNat + 4 ≤ 0x10000000 * (1 + id / 4) + 0x400000 * (id % 4) + 0x40000
  bv_omega

/-- The four bytes lie in the buffer exactly when the module contains them. -/
theorem within_four_iff :
    (regionPlacement.ptrAt (.dmem id) a.toNat).Within Buffer.size 4 ↔
      (Region.dmem id).Contains a 4 := by
  have hlow : (Region.dmem id).base ≤ a.toNat := covers.1
  refine ⟨fun within => ⟨by decide, hlow, ?_⟩, fun contains => contains.within⟩
  change 0 + (a.toNat - (Region.dmem id).base) + 4 ≤ 0x40000 at within
  change a.toNat + 4 ≤ (Region.dmem id).base + 0x40000
  omega

/-- A write that stays in the module. -/
theorem exists_dmemWriteReg (contains : (Region.dmem id).Contains a 4) :
    ∃ m', dmemWriteReg platformAfterSetup m a value = some m' ∧
      WroteRegister platformAfterSetup m m' a ∧
        dmemReadReg platformAfterSetup m' a = some value := by
  have hwithin := (within_four_iff covers).mpr contains
  have hwrite : dmemWriteReg platformAfterSetup m a value = some _ :=
    (dmemWriteReg_eq covers).trans (if_pos hwithin)
  refine ⟨_, hwrite, ⟨fun other hother i hi => ?_, fun b k outside => ?_⟩, ?_⟩
  · rw [hother.unique covers]
    exact contains.covers_add hi
  · refine Memory.put_apply_of_not_mem fun ⟨hblock, hlow, hhigh⟩ => ?_
    -- the byte belongs to the address at its distance from the first
    have hnear : k - (regionPlacement.ptrAt (.dmem id) a.toNat).offset < 4 := by omega
    refine outside _ hnear ?_
    rw [contains.addrToPtr_add hnear, Ptr.add, hblock, Nat.add_sub_cancel' hlow]
  · rw [dmemReadReg_eq covers]
    exact Memory.load32_store32 ((dmemWriteReg_eq covers).symm.trans hwrite)

/-- A write that leaves the module leaves the buffer. -/
theorem dmemWriteReg_eq_none (leaves : ¬ (Region.dmem id).Contains a 4) :
    dmemWriteReg platformAfterSetup m a value = none :=
  (dmemWriteReg_eq covers).trans (if_neg fun within => leaves ((within_four_iff covers).mp within))

end Inside

/-- A register access keeps to its module exactly when the address is not in the DMEM region
or its four bytes pass the check of the other driver functions. -/
theorem registerKeepsToModule_iff {st : PlatformState} (setup : platformSetup = some st)
    (m : Mem) (a : Addr) (value : BitVec 32) : RegisterKeepsToModule st.platform m a value ↔
      getAddressRegion a ≠ .dmem512 ∨ validateAddress a 4 = true := by
  obtain rfl := Option.some.inj (platformSetup_eq.symm.trans setup)
  by_cases region : getAddressRegion a = .dmem512
  · obtain ⟨id, covers⟩ := exists_dmem_covers region
    rw [← contains_four_iff covers]
    constructor
    · intro keeps
      obtain ⟨m', hwrite, -⟩ := keeps.dmem region
      refine .inr (not_not.mp fun leaves => ?_)
      rw [dmemWriteReg_eq_none covers leaves] at hwrite
      simp at hwrite
    · intro stays
      obtain ⟨m', hwrite, hwrote, hread⟩ :=
        exists_dmemWriteReg covers (stays.resolve_left (not_not.mpr region))
      exact ⟨fun _ => ⟨m', hwrite, .inr hwrote, fun _ => hread⟩, fun other => absurd region other⟩
  -- outside the DMEM region the guard ends both functions
  · exact iff_of_true ⟨fun dmem => absurd dmem region, fun _ => ⟨if_neg region, if_neg region⟩⟩
      (.inl region)

/-- The first word of DMEM0. -/
theorem registerKeepsToModule_iff_dmem0 : ∃ st, platformSetup = some st ∧
    (RegisterKeepsToModule st.platform zeroMem 0x10000000 0x12345678 ↔
      getAddressRegion 0x10000000 ≠ .dmem512 ∨ validateAddress 0x10000000 4 = true) :=
  ⟨_, platformSetup_eq, registerKeepsToModule_iff platformSetup_eq zeroMem 0x10000000 0x12345678⟩

/-- A write three bytes before the end of DMEM0 leaves its buffer. -/
theorem not_registerKeepsToModule_end : ∃ st, platformSetup = some st ∧
    getAddressRegion 0x1003FFFD = .dmem512 ∧
      ¬ RegisterKeepsToModule st.platform zeroMem 0x1003FFFD 0x12345678 := by
  have hregion : getAddressRegion 0x1003FFFD = .dmem512 := by decide +kernel
  refine ⟨_, platformSetup_eq, hregion, fun keeps => ?_⟩
  obtain ⟨m', hwrite, -⟩ := keeps.dmem hregion
  have hcovers : (Region.dmem 0).Covers 0x1003FFFD := by decide
  have hleaves : ¬ (Region.dmem 0).Contains 0x1003FFFD 4 := by decide
  rw [dmemWriteReg_eq_none hcovers hleaves] at hwrite
  simp at hwrite

end MeshNoc
