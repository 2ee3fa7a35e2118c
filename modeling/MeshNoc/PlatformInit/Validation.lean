import MeshNoc.PlatformInit.Region
import MeshNoc.Lib.Copies

/-!
# What a validated range guarantees

`validate_address` is the only guard of the memory operations. It looks at the two ends
of a range and compares the kinds of their regions, where the range is one block of
memory only if the ends lie in one instance and in order.

## Main results

* `rangeSound_iff` — a range accepted by `validate_address` lies in one allocation exactly
  when its ends do, in order
* `validated_across_modules` — a range that is accepted and leaves its allocation
* `translatesContained` — inside one instance validation accepts, translation is affine and
  keeps to the allocation, and no two addresses share a byte
-/

namespace MeshNoc

open Lib

/-- Two addresses of the same kind, tile and module. -/
structure SameInstance (a b : Addr) : Prop where
  region : getAddressRegion a = getAddressRegion b
  tile : getTileIdFromAddress a = getTileIdFromAddress b
  dmem : getDmemIdFromAddress a = getDmemIdFromAddress b

instance (a b : Addr) : Decidable (SameInstance a b) :=
  decidable_of_iff (getAddressRegion a = getAddressRegion b ∧
    getTileIdFromAddress a = getTileIdFromAddress b ∧
      getDmemIdFromAddress a = getDmemIdFromAddress b)
    ⟨fun h => ⟨h.1, h.2.1, h.2.2⟩, fun h => ⟨h.region, h.tile, h.dmem⟩⟩

/-- The allocation that backs the region, tile and module of an address. -/
def backingBuffer (address : Addr) : Option Buffer :=
  match getAddressRegion address with
  | .tileDlm64 => some (.dlm64 (getTileIdFromAddress address).toNat)
  | .tileDlm1_512 => some (.dlm1_512 (getTileIdFromAddress address).toNat)
  | .tileDmaReg => some (.dmaRegs (getTileIdFromAddress address).toNat)
  | .dmem512 => some (.dmem (getDmemIdFromAddress address).toNat)
  | .c0Master => some .memoryPool
  | .plicC0c1 => some (.plic .c0c1)
  | .plicNxy => some (.plic .nxy)
  | .invalid => none

/-- The `n` addresses from `a` on are one piece of one allocation. -/
structure OneAllocation (p : MeshPlatform) (a n : Addr) : Prop where
  same_instance : ∀ i < n.toNat, SameInstance a (a + BitVec.ofNat 64 i)
  no_wrap : a.toNat + n.toNat - 1 < 2 ^ 64
  affine : ∀ i < n.toNat, addrToPtr p (a + BitVec.ofNat 64 i) = (addrToPtr p a).add i
  backing : (addrToPtr p a).block = backingBuffer a
  within : (addrToPtr p a).Within Buffer.size n.toNat

/-- Validating the range guarantees one piece of one allocation. -/
def RangeSound (p : MeshPlatform) (a n : Addr) : Prop :=
  validateAddress a n = true → OneAllocation p a n

/-- When the ends of the range are of one kind they belong to one instance, the last
address not below the first. -/
def EndsAgree (a n : Addr) : Prop :=
  n ≠ 0 → getAddressRegion a ≠ .invalid → getAddressRegion a = getAddressRegion (a + n - 1) →
    SameInstance a (a + n - 1) ∧ a ≤ a + n - 1

theorem validateAddress_eq_true {a n : Addr} : validateAddress a n = true ↔
    n ≠ 0 ∧ getAddressRegion a ≠ .invalid ∧
      getAddressRegion a = getAddressRegion (a + n - 1) := by
  unfold validateAddress
  by_cases hzero : n = 0
  · simp [hzero]
  by_cases hinvalid : getAddressRegion a = .invalid
  · simp [hinvalid]
  · simp [hinvalid]

/-- Addresses of one instance have the same ids. -/
theorem sameInstance_of_covers {r : Region} {a b : Addr} (ha : r.Covers a) (hb : r.Covers b) :
    SameInstance a b where
  region := by rw [getAddressRegion_of_covers ha, getAddressRegion_of_covers hb]
  tile := by rw [getTileIdFromAddress_of_covers ha, getTileIdFromAddress_of_covers hb]
  dmem := by rw [getDmemIdFromAddress_of_covers ha, getDmemIdFromAddress_of_covers hb]

/-- And the other way round, when one of them lies in an instance. -/
theorem covers_of_sameInstance {r : Region} {a b : Addr} (ha : r.Covers a)
    (same : SameInstance a b) : r.Covers b := by
  have hkind := getAddressRegion_of_covers ha
  obtain ⟨s, hb⟩ := exists_covers (a := b) (by
    rw [← same.region, hkind]
    exact r.kind_ne_invalid)
  -- the two instances have the same kind, tile and module
  have hkinds : r.kind = s.kind := by
    rw [← hkind, same.region, getAddressRegion_of_covers hb]
  have htiles : r.tileId = s.tileId := by
    rw [← getTileIdFromAddress_of_covers ha, same.tile, getTileIdFromAddress_of_covers hb]
  have hdmems : r.dmemId = s.dmemId := by
    rw [← getDmemIdFromAddress_of_covers ha, same.dmem, getDmemIdFromAddress_of_covers hb]
  rwa [Region.eq_of_ids hkinds htiles hdmems]

theorem backingBuffer_of_covers {r : Region} {a : Addr} (covers : r.Covers a) :
    backingBuffer a = some r.buffer := by
  rw [backingBuffer, getAddressRegion_of_covers covers,
    getTileIdFromAddress_of_covers covers, getDmemIdFromAddress_of_covers covers]
  cases r <;> rfl

/-- The last address of a non-empty range. -/
theorem last_eq (a n : Addr) (nonempty : n ≠ 0) :
    a + BitVec.ofNat 64 (n.toNat - 1) = a + n - 1 := by
  have hpos : 1 ≤ n := by bv_omega
  have hone : BitVec.ofNat 64 (n.toNat - 1) = n - 1 := by
    apply BitVec.eq_of_toNat_eq
    have hlt := n.isLt
    rw [BitVec.toNat_sub_of_le hpos, BitVec.toNat_ofNat]
    exact Nat.mod_eq_of_lt (by omega)
  rw [hone, BitVec.sub_eq_add_neg, ← BitVec.add_assoc, ← BitVec.sub_eq_add_neg]

/-- A range whose last address is not below its first does not wrap. -/
theorem toNat_last {a n : Addr} (nonempty : n ≠ 0) (ordered : a ≤ a + n - 1) :
    (a + n - 1).toNat = a.toNat + n.toNat - 1 := by
  bv_omega

section Contains

variable {r : Region} {a n : Addr}

/-- A range inside one instance is one piece of the allocation of that instance. -/
theorem Region.Contains.oneAllocation (h : r.Contains a n) :
    OneAllocation platformAfterSetup a n where
  same_instance i hi := sameInstance_of_covers h.covers (h.covers_add hi)
  no_wrap := by
    have hend := r.base_add_length_lt
    have hhigh : a.toNat + n.toNat ≤ r.base + r.length := h.2.2
    omega
  affine i hi := by rw [h.addrToPtr_add hi, h.addrToPtr_eq]
  backing := by
    rw [h.addrToPtr_eq, backingBuffer_of_covers h.covers]
    rfl
  within := by
    rw [h.addrToPtr_eq]
    exact h.within

/-- A range inside one instance is accepted. -/
theorem Region.Contains.validateAddress_eq (h : r.Contains a n) :
    validateAddress a n = true := by
  -- `validate_address` computes the last address modulo `2 ^ 64`
  have hlast : r.Covers (a + n - 1) := by
    rw [← last_eq a n h.1]
    refine h.covers_add ?_
    have := h.1
    bv_omega
  have hkind := getAddressRegion_of_covers h.covers
  refine validateAddress_eq_true.mpr ⟨h.1, ?_, ?_⟩
  · rw [hkind]
    exact r.kind_ne_invalid
  · rw [hkind, getAddressRegion_of_covers hlast]

end Contains

/-- A range whose ends agree is accepted only inside one instance. -/
theorem contains_of_endsAgree {a n : Addr} (ends : EndsAgree a n)
    (accepted : validateAddress a n = true) : ∃ r : Region, r.Contains a n := by
  obtain ⟨hzero, hinvalid, hkind⟩ := validateAddress_eq_true.mp accepted
  obtain ⟨hsame, hordered⟩ := ends hzero hinvalid hkind
  obtain ⟨r, hfirst⟩ := exists_covers hinvalid
  have hlast := covers_of_sameInstance hfirst hsame
  -- the windows are intervals: with both ends in `r`, in order, all is in `r`
  refine ⟨r, hzero, Placement.coversRange_of_ends hfirst hlast ?_⟩
  rw [toNat_last hzero hordered]
  omega

/-- A range accepted by `validate_address` is sound exactly when its ends agree. -/
theorem rangeSound_iff {st : PlatformState} (setup : platformSetup = some st) (a n : Addr) :
    RangeSound st.platform a n ↔ EndsAgree a n := by
  obtain rfl := Option.some.inj (platformSetup_eq.symm.trans setup)
  refine ⟨fun sound hzero hinvalid hkind => ?_, fun ends accepted => ?_⟩
  -- soundness speaks of every address of the range, the last one among them
  · have hpiece := sound (validateAddress_eq_true.mpr ⟨hzero, hinvalid, hkind⟩)
    have hpos : 0 < n.toNat := by bv_omega
    have hsame := hpiece.same_instance (n.toNat - 1) (by omega)
    rw [last_eq a n hzero] at hsame
    have hwrap := hpiece.no_wrap
    exact ⟨hsame, by bv_omega⟩
  · obtain ⟨r, hinside⟩ := contains_of_endsAgree ends accepted
    exact hinside.oneAllocation

/-- The first half of DMEM0. -/
theorem rangeSound_iff_dmem0 : ∃ st, platformSetup = some st ∧
    (RangeSound st.platform 0x10000000 0x200000 ↔ EndsAgree 0x10000000 0x200000) :=
  ⟨_, platformSetup_eq, rangeSound_iff platformSetup_eq 0x10000000 0x200000⟩

/-- From the start of DMEM0 to that of DMEM1, with the hole between the modules: accepted,
but the buffer of DMEM0 ends long before the range does. -/
theorem validated_across_modules : ∃ st, platformSetup = some st ∧
    validateAddress 0x10000000 0x400001 = true ∧
      ¬ RangeSound st.platform 0x10000000 0x400001 := by
  refine ⟨_, platformSetup_eq, by decide +kernel, fun sound => ?_⟩
  have hpiece := sound (by decide +kernel)
  have hmodule := (hpiece.same_instance 0x400000 (by decide)).dmem
  revert hmodule
  decide +kernel

/-! ### Ranges inside one instance -/

/-- Ranges inside one instance are accepted and translated as one piece of its allocation,
and translation gives every valid address a byte of its own. -/
structure TranslatesContained (p : MeshPlatform) : Prop where
  accepted : ∀ (r : Region) (a n : Addr), r.Contains a n → validateAddress a n = true
  affine : ∀ (r : Region) (a n : Addr), r.Contains a n → ∀ i < n.toNat,
    addrToPtr p (a + BitVec.ofNat 64 i) = (addrToPtr p a).add i
  inside : ∀ (r : Region) (a n : Addr), r.Contains a n → ∀ i < n.toNat,
    (addrToPtr p (a + BitVec.ofNat 64 i)).block = some r.buffer ∧
      (addrToPtr p (a + BitVec.ofNat 64 i)).Within Buffer.size 1
  separate : ∀ a b : Addr, getAddressRegion a ≠ .invalid → getAddressRegion b ≠ .invalid →
    a ≠ b → addrToPtr p a ≠ addrToPtr p b

/-- No two valid addresses are translated to one byte. -/
theorem addrToPtr_inj {a b : Addr} (ha : getAddressRegion a ≠ .invalid)
    (hb : getAddressRegion b ≠ .invalid)
    (same : addrToPtr platformAfterSetup a = addrToPtr platformAfterSetup b) : a = b := by
  obtain ⟨r, hr⟩ := exists_covers ha
  obtain ⟨s, hs⟩ := exists_covers hb
  rw [addrToPtr_of_covers hr, addrToPtr_of_covers hs] at same
  exact BitVec.eq_of_toNat_eq (Placement.ptrAt_inj hr hs same)

/-- After set-up the translation of contained ranges is accepted, affine and alias-free. -/
theorem translatesContained {st : PlatformState} (setup : platformSetup = some st) :
    TranslatesContained st.platform := by
  obtain rfl := Option.some.inj (platformSetup_eq.symm.trans setup)
  refine ⟨fun r a n h => h.validateAddress_eq, fun r a n h i hi => ?_, fun r a n h i hi => ?_,
    fun a b ha hb different same => different (addrToPtr_inj ha hb same)⟩
  · rw [h.addrToPtr_add hi, h.addrToPtr_eq]
  · rw [h.addrToPtr_add hi]
    exact ⟨rfl, h.within.add hi⟩

/-- The platform that set-up leaves. -/
theorem translatesContained_afterSetup : ∃ st, platformSetup = some st ∧
    TranslatesContained st.platform :=
  ⟨_, platformSetup_eq, translatesContained platformSetup_eq⟩

end MeshNoc
