import MeshNoc.PlatformInit.Translation

/-!
# From pointers back to addresses

`ptr_to_addr` takes every pointer for one into the memory pool and looks at its distance
from the start of the pool. The allocator may place the buffers of set-up anywhere, as long
as they are apart, and only the C0 master is stored in the pool.

## Main results

* `HeapLayout.addrOf_of_outside` — a pointer outside the pool has address 0
* `HeapLayout.roundTrip_iff` — the addresses that the round trip gives back
-/

namespace MeshNoc

open Lib

/-- A placement of the allocations in memory: none at address 0, and no two that meet. -/
structure HeapLayout where
  base : Buffer → ℕ
  base_pos : ∀ b : Buffer, b.Allocated → 0 < base b
  base_add_size_le : ∀ b : Buffer, b.Allocated → base b + b.size ≤ 2 ^ 64
  disjoint : ∀ b c : Buffer, b.Allocated → c.Allocated → b ≠ c →
    base b + b.size ≤ base c ∨ base c + c.size ≤ base b

/-- The machine word of a pointer. -/
def HeapLayout.raw (L : HeapLayout) (ptr : Ptr Buffer) : BitVec 64 :=
  match ptr.block with
  | none => BitVec.ofNat 64 ptr.offset
  | some b => BitVec.ofNat 64 (L.base b + ptr.offset)

/-- `ptr_to_addr`, for a given value of `g_memory_pool`. The distance is a `ptrdiff_t`: the
constants turn the comparisons with them into unsigned ones, the comparison with 0 stays
signed. -/
def ptrToAddr (memoryPool bytePtr : BitVec 64) : Addr :=
  if memoryPool = 0 ∨ bytePtr = 0 then 0
  else
    let offset := bytePtr - memoryPool
    if 0x20000000 ≤ offset ∧ offset < 0x25000000 then
      -- DMEM region
      dmemBases.getD 0 0 + (offset - 0x20000000)
    else if 0x25000000 ≤ offset ∧ offset < 0x26000000 then
      -- C0 control region
      c0MasterBase + (offset - 0x25000000)
    else if 0 ≤ offset.toInt ∧ offset < 0x20000000 then
      -- tile region
      offset
    else 0

namespace HeapLayout

variable (L : HeapLayout) (p : MeshPlatform) {a : Addr}

/-- `ptr_to_addr` on a pointer that `addr_to_ptr` returned. -/
def addrOf (ptr : Ptr Buffer) : Addr :=
  ptrToAddr (L.raw p.memoryPool) (L.raw ptr)

/-- `ptr_to_addr` undoes `addr_to_ptr` at `a`. -/
def RoundTrip (a : Addr) : Prop := L.addrOf p (addrToPtr p a) = a

variable {L p}

/-- A pointer to a byte of an allocation, as a number. -/
theorem toNat_raw {b : Buffer} (allocated : b.Allocated) {k : ℕ} (lt : k < b.size) :
    (L.raw ⟨some b, k⟩).toNat = L.base b + k := by
  have hend := L.base_add_size_le b allocated
  have hlt : L.base b + k < 2 ^ 64 := by omega
  exact Nat.mod_eq_of_lt hlt

theorem raw_ne_zero {b : Buffer} (allocated : b.Allocated) {k : ℕ} (lt : k < b.size) :
    L.raw ⟨some b, k⟩ ≠ 0 := by
  have hpos := L.base_pos b allocated
  have hraw := toNat_raw (L := L) allocated lt
  intro hzero
  rw [hzero] at hraw
  have : (0 : BitVec 64).toNat = 0 := rfl
  omega

/-- The pool starts where `g_memory_pool` points. -/
theorem toNat_raw_memoryPool : (L.raw platformAfterSetup.memoryPool).toNat =
    L.base .memoryPool :=
  toNat_raw (b := .memoryPool) trivial (by decide)

/-- A pointer into another allocation is not within reach of the pool. -/
theorem offset_of_outside {b : Buffer} (allocated : b.Allocated) (outside : b ≠ .memoryPool)
    {k : ℕ} (lt : k < b.size) :
    0x30000000 ≤ (L.raw ⟨some b, k⟩ - L.raw platformAfterSetup.memoryPool).toNat := by
  have hraw := toNat_raw (L := L) allocated lt
  have hpool := toNat_raw_memoryPool (L := L)
  have hend := L.base_add_size_le .memoryPool trivial
  have hdisjoint := L.disjoint b .memoryPool allocated trivial outside
  have hsize : Buffer.memoryPool.size = 0x30000000 := rfl
  -- below the pool the difference wraps, above it the pool lies in between
  bv_omega

/-- `ptr_to_addr` answers with 0 whenever the pointer is not one into the pool. -/
theorem addrOf_of_outside {b : Buffer} (allocated : b.Allocated)
    (outside : b ≠ .memoryPool) {k : ℕ} (lt : k < b.size) :
    L.addrOf platformAfterSetup ⟨some b, k⟩ = 0 := by
  have hoffset := offset_of_outside (L := L) allocated outside lt
  simp only [addrOf, ptrToAddr]
  generalize L.raw ⟨some b, k⟩ - L.raw platformAfterSetup.memoryPool = distance at hoffset ⊢
  -- no window of the pool reaches that far
  have hdmem : ¬ (0x20000000 ≤ distance ∧ distance < 0x25000000) := by bv_omega
  have hc0 : ¬ (0x25000000 ≤ distance ∧ distance < 0x26000000) := by bv_omega
  have htile : ¬ (0 ≤ distance.toInt ∧ distance < 0x20000000) := by bv_omega
  rw [if_neg hdmem, if_neg hc0, if_neg htile, ite_self]

/-- A pointer into the C0 part of the pool is given its address back. -/
theorem addrOf_of_c0Master {k : ℕ} (lt : k < 0x10000) :
    L.addrOf platformAfterSetup ⟨some .memoryPool, 0x25000000 + k⟩ =
      c0MasterBase + BitVec.ofNat 64 k := by
  have hsize : Buffer.memoryPool.size = 0x30000000 := rfl
  have hinside : 0x25000000 + k < Buffer.memoryPool.size := by omega
  have hraw := toNat_raw (L := L) (b := .memoryPool) trivial hinside
  have hpool := toNat_raw_memoryPool (L := L)
  have hend := L.base_add_size_le .memoryPool trivial
  have hdistance : L.raw ⟨some .memoryPool, 0x25000000 + k⟩ -
      L.raw platformAfterSetup.memoryPool = BitVec.ofNat 64 (0x25000000 + k) := by
    bv_omega
  have hnull : ¬ (L.raw platformAfterSetup.memoryPool = 0 ∨
      L.raw ⟨some .memoryPool, 0x25000000 + k⟩ = 0) := by
    rintro (h | h)
    · exact raw_ne_zero (b := .memoryPool) trivial (by decide) h
    · exact raw_ne_zero (b := .memoryPool) trivial hinside h
  have hdmem : ¬ (0x20000000 ≤ BitVec.ofNat 64 (0x25000000 + k) ∧
      BitVec.ofNat 64 (0x25000000 + k) < 0x25000000) := by
    bv_omega
  have hc0 : 0x25000000 ≤ BitVec.ofNat 64 (0x25000000 + k) ∧
      BitVec.ofNat 64 (0x25000000 + k) < 0x26000000 := by
    bv_omega
  simp only [addrOf, ptrToAddr, if_neg hnull, hdistance, if_neg hdmem, if_pos hc0]
  bv_omega

/-- The round trip at an address of an instance. -/
theorem roundTrip_of_covers {r : Region} (covers : r.Covers a) :
    L.RoundTrip platformAfterSetup a ↔ a = 0 ∨ r = .c0Master := by
  have hlow : r.base ≤ a.toNat := covers.1
  have hhigh : a.toNat < r.base + r.length := covers.2
  have hfits : r.start + r.length ≤ r.buffer.size := regionPlacement_fits r
  rw [RoundTrip, addrToPtr_of_covers covers]
  by_cases pooled : r = .c0Master
  · subst pooled
    have hbase : Region.c0Master.base = 0x80000000 := rfl
    have hlength : Region.c0Master.length = 0x10000 := rfl
    have hc0 := addrOf_of_c0Master (L := L) (k := a.toNat - 0x80000000) (by omega)
    refine iff_of_true (hc0.trans ?_) (.inr rfl)
    have : c0MasterBase.toNat = 0x80000000 := rfl
    bv_omega
  -- every other instance is stored outside the pool
  · have houtside : r.buffer ≠ .memoryPool := by cases r <;> simp_all [Region.buffer]
    have hzero := addrOf_of_outside (L := L) r.buffer_allocated houtside
      (k := r.start + (a.toNat - r.base)) (by omega)
    rw [show L.addrOf platformAfterSetup (regionPlacement.ptrAt r a.toNat) = 0 from hzero]
    simp only [pooled, or_false, eq_comm]

/-- After set-up, wherever the allocator puts the buffers, `ptr_to_addr` gives a valid
address back exactly when the address is 0 or in the C0 region. -/
theorem roundTrip_iff {st : PlatformState} (setup : platformSetup = some st) (L : HeapLayout)
    (a : Addr) (valid : getAddressRegion a ≠ .invalid) :
    L.RoundTrip st.platform a ↔ a = 0 ∨ getAddressRegion a = .c0Master := by
  obtain rfl := Option.some.inj (platformSetup_eq.symm.trans setup)
  obtain ⟨r, covers⟩ := exists_covers valid
  rw [roundTrip_of_covers covers, getAddressRegion_of_covers covers]
  cases r <;> simp [Region.kind]

/-- Slots of `0x400000` bytes for the buffers outside the pool. -/
def slot : Buffer → ℕ
  | .memoryPool => 0
  | .dlm64 tile => tile
  | .dlm1_512 tile => 8 + tile
  | .dmaRegs tile => 16 + tile
  | .dmem id => 24 + id
  | .plic .c0c1 => 32
  | .plic .nxy => 33

theorem slot_lt {b : Buffer} (allocated : b.Allocated) : slot b < 34 := by
  have hcounts : numTiles = 8 ∧ numDmems = 8 := ⟨rfl, rfl⟩
  cases b with
  | plic block => cases block <;> decide
  | _ => simp only [slot, Buffer.Allocated] at allocated ⊢; omega

theorem slot_inj {b c : Buffer} (hb : b.Allocated) (hc : c.Allocated) (b_ne : b ≠ .memoryPool)
    (c_ne : c ≠ .memoryPool) (same : slot b = slot c) : b = c := by
  have hcounts : numTiles = 8 ∧ numDmems = 8 := ⟨rfl, rfl⟩
  rcases b with _ | _ | _ | _ | _ | (_ | _) <;> rcases c with _ | _ | _ | _ | _ | (_ | _) <;>
    simp only [slot, Buffer.Allocated, ne_eq, not_true_eq_false, Buffer.dlm64.injEq,
      Buffer.dlm1_512.injEq, Buffer.dmaRegs.injEq, Buffer.dmem.injEq, reduceCtorEq] at * <;>
    omega

theorem size_le_slot {b : Buffer} (b_ne : b ≠ .memoryPool) : b.size ≤ 0x400000 := by
  cases b with
  | memoryPool => exact absurd rfl b_ne
  | dlm64 => exact (by decide : dlm64Size.toNat ≤ 0x400000)
  | dlm1_512 => exact (by decide : dlm1_512Size.toNat ≤ 0x400000)
  | dmaRegs => exact (by decide : dmaRegSize.toNat ≤ 0x400000)
  | dmem => exact (by decide : dmem512Size.toNat ≤ 0x400000)
  | plic => exact (by decide : plicSize.toNat ≤ 0x400000)

/-- A placement with the pool below all other buffers. -/
def spaced : HeapLayout where
  base b := if b = .memoryPool then 0x1000 else 0x40000000 + 0x400000 * slot b
  base_pos b _ := by split_ifs <;> omega
  base_add_size_le b allocated := by
    have hslot := slot_lt allocated
    split_ifs with pool
    · subst pool
      decide
    · have := size_le_slot pool
      omega
  disjoint b c hb hc different := by
    have hpool : Buffer.memoryPool.size = 0x30000000 := rfl
    split_ifs with b_pool c_pool c_pool
    · exact absurd (b_pool.trans c_pool.symm) different
    · subst b_pool
      omega
    · subst c_pool
      omega
    · have hb_size := size_le_slot b_pool
      have hc_size := size_le_slot c_pool
      have hslots : slot b ≠ slot c := fun same =>
        different (slot_inj hb hc b_pool c_pool same)
      omega

/-- The first address of the C0 region in that placement. -/
theorem roundTrip_iff_c0Master : ∃ st, platformSetup = some st ∧
    (spaced.RoundTrip st.platform 0x80000000 ↔
      (0x80000000 : Addr) = 0 ∨ getAddressRegion 0x80000000 = .c0Master) :=
  ⟨_, platformSetup_eq, roundTrip_iff platformSetup_eq spaced 0x80000000 (by decide +kernel)⟩

/-- The first byte of DMEM0 is given address 0. -/
theorem not_roundTrip_dmem0 : ∃ st, platformSetup = some st ∧
    getAddressRegion 0x10000000 = .dmem512 ∧ ¬ spaced.RoundTrip st.platform 0x10000000 := by
  refine ⟨_, platformSetup_eq, by decide +kernel, fun same => ?_⟩
  have hcovers : (Region.dmem 0).Covers 0x10000000 := by decide
  rcases (roundTrip_of_covers hcovers).mp same with hzero | hpool
  · exact absurd hzero (by decide)
  · simp at hpool

end HeapLayout

end MeshNoc
