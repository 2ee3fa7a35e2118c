import MeshNoc.HalTests.Transfers

/-!
# What a remote transfer moves

`ref_dma_remote_transfer` accepts every size up to that of the regions and returns it, while
the packet it sends carries the size modulo `65536`.

## Main results

* `remoteMoved_iff` — the bytes a transfer reports are moved exactly when those behind the
  packet's length are there already
* `not_remoteMoved_65536` — a transfer of `65536` bytes that moves nothing
-/

namespace MeshNoc

open Lib

/-- The byte of an address of a region instance. -/
def regionByte (m : Mem) (a : Addr) : Byte := m.get (addrToPtr platformAfterSetup a)

/-- The ranges of a transfer between a tile's DLM1_512 and a DMEM module. -/
inductive RemoteRanges (src dst size : Addr) : Prop
  | toDmem (tile id : Fin 8) (hsrc : (Region.dlm1_512 tile).Contains src size)
      (hdst : (Region.dmem id).Contains dst size)
  | fromDmem (tile id : Fin 8) (hsrc : (Region.dmem id).Contains src size)
      (hdst : (Region.dlm1_512 tile).Contains dst size)

/-- The transfer returns `size`, its destination holds what the source held before, and
every other byte of every region is as before. -/
def RemoteMoved (st : HalSystem) (src dst size : Addr) : Prop :=
  ∃ answer st', HalCall.exec st (.dmaRemoteTransfer src dst size) = some (answer, st') ∧
    answer.result = size.toNat ∧
    (∀ i < size.toNat, regionByte st'.mem (dst + BitVec.ofNat 64 i) =
      regionByte st.mem (src + BitVec.ofNat 64 i)) ∧
    ∀ r : Region, ∀ a : Addr, r.Covers a →
      (∀ i < size.toNat, a ≠ dst + BitVec.ofNat 64 i) →
        regionByte st'.mem a = regionByte st.mem a

section Bytes

variable {r s : Region} {dst size a : Addr} {m : Mem} {src : Ptr Buffer} {n : ℕ}

/-- The bytes of a range of a region instance are behind one pointer. -/
theorem Region.Contains.regionByte_add (h : r.Contains dst size) (m : Mem) {i : ℕ}
    (hi : i < size.toNat) : regionByte m (dst + BitVec.ofNat 64 i) =
      m.get ((addrToPtr platformAfterSetup dst).add i) := by
  rw [regionByte, h.addrToPtr_add hi, h.addrToPtr_eq]

/-- A byte that a write to the range has reached. -/
theorem Region.Contains.regionByte_put (h : r.Contains dst size) (f : ℕ → Byte) {i : ℕ}
    (hi : i < n) (le : n ≤ size.toNat) :
    regionByte (m.put (addrToPtr platformAfterSetup dst) n f) (dst + BitVec.ofNat 64 i) =
      f i := by
  rw [h.regionByte_add _ (hi.trans_le le), Memory.get_put_of_mem _ hi]
  rw [h.addrToPtr_eq]
  exact Option.some_ne_none _

/-- A byte of a region that it has not reached. -/
theorem Region.Contains.regionByte_put_of_ne (h : r.Contains dst size) (f : ℕ → Byte)
    (covers : s.Covers a) (le : n ≤ size.toNat)
    (outside : ∀ i < n, a ≠ dst + BitVec.ofNat 64 i) :
    regionByte (m.put (addrToPtr platformAfterSetup dst) n f) a = regionByte m a := by
  refine Memory.get_put_of_ne fun i hi same => outside i hi ?_
  -- one place of memory belongs to one address only
  have hcovers := h.covers_add (hi.trans_le le)
  rw [addrToPtr_of_covers covers, h.addrToPtr_eq, ← h.2.ptrAt_add,
    ← h.toNat_add (hi.trans_le le)] at same
  exact BitVec.eq_of_toNat_eq (Placement.ptrAt_inj hcovers covers same).symm

theorem Region.Contains.regionByte_copy (h : r.Contains dst size) {i : ℕ} (hi : i < n)
    (le : n ≤ size.toNat) :
    regionByte (Copy.apply m ⟨addrToPtr platformAfterSetup dst, src, n⟩)
      (dst + BitVec.ofNat 64 i) = m.get (src.add i) :=
  h.regionByte_put _ hi le

theorem Region.Contains.regionByte_copy_of_ne (h : r.Contains dst size) (covers : s.Covers a)
    (le : n ≤ size.toNat) (outside : ∀ i < n, a ≠ dst + BitVec.ofNat 64 i) :
    regionByte (Copy.apply m ⟨addrToPtr platformAfterSetup dst, src, n⟩) a =
      regionByte m a :=
  h.regionByte_put_of_ne _ covers le outside

end Bytes

section Remote

variable {st : HalSystem} {src dst size : Addr}

/-- What the transfer does: as many bytes are copied as the packet's length says. -/
theorem RemoteRanges.exec_eq (ranges : RemoteRanges src dst size) (ready : HalReady st) :
    ∃ r s : Region, r.Contains src size ∧ s.Contains dst size ∧
      ∃ noc, HalCall.exec st (.dmaRemoteTransfer src dst size) =
        some ({ result := size.toNat }, ⟨st.toHalState.returned (Copy.apply st.mem
          ⟨addrToPtr platformAfterSetup dst, addrToPtr platformAfterSetup src,
            size.toNat % 65536⟩), noc⟩) := by
  -- of either direction only the regions matter
  obtain ⟨r, s, hsrc, hdst, hregions⟩ : ∃ r s : Region, r.Contains src size ∧
      s.Contains dst size ∧ RemoteRegions src dst := by
    cases ranges with
    | toDmem tile id hsrc hdst =>
      exact ⟨_, _, hsrc, hdst, .inl ⟨getAddressRegion_of_covers hsrc.covers,
        getAddressRegion_of_covers hdst.covers⟩⟩
    | fromDmem tile id hsrc hdst =>
      exact ⟨_, _, hsrc, hdst, .inr ⟨getAddressRegion_of_covers hsrc.covers,
        getAddressRegion_of_covers hdst.covers⟩⟩
  let t : Transfer := ⟨.dmaRemoteTransfer, src, dst, size⟩
  have haccepted : t.Accepted := ⟨hsrc.1, hregions⟩
  have hapart : ¬ t.CopiesOntoItself := fun h => by simp [t, Transfer.CopiesOntoItself] at h
  obtain ⟨noc, -, hexec⟩ := Transfer.exec_eq ready
    (t := t) ⟨⟨r, hsrc.2⟩, ⟨s, hdst.2⟩⟩ hapart
  have hanswer : t.answer = { result := size.toNat } := if_pos haccepted
  have hlength : t.length = size.toNat % 65536 := if_pos haccepted
  rw [hanswer, Transfer.copy, hlength] at hexec
  exact ⟨r, s, hsrc, hdst, noc, hexec⟩

/-- The bytes behind the packet's length stay what they were. -/
theorem RemoteMoved.bytes_eq (moved : RemoteMoved st src dst size) (ready : HalReady st)
    (ranges : RemoteRanges src dst size) {i : ℕ} (low : size.toNat % 65536 ≤ i)
    (high : i < size.toNat) : regionByte st.mem (src + BitVec.ofNat 64 i) =
      regionByte st.mem (dst + BitVec.ofNat 64 i) := by
  obtain ⟨answer, st', hran, -, hmoved, -⟩ := moved
  obtain ⟨r, s, hsrc, hdst, noc, hexec⟩ := ranges.exec_eq ready
  obtain ⟨-, rfl⟩ := Prod.mk.inj (Option.some.inj (hran.symm.trans hexec))
  rw [← hmoved i high]
  refine hdst.regionByte_copy_of_ne (hdst.covers_add high) (Nat.mod_le _ _) fun j hj same => ?_
  -- addresses of the range are different for different indices
  have hvalue := congrArg BitVec.toNat same
  rw [hdst.toNat_add high, hdst.toNat_add (hj.trans_le (Nat.mod_le _ _))] at hvalue
  omega

/-- A remote transfer moves exactly what it reports if and only if every byte from index
`size % 65536` on is the same in the source and in the destination beforehand. -/
theorem remoteMoved_iff (ready : HalReady st) (ranges : RemoteRanges src dst size) :
    RemoteMoved st src dst size ↔
      ∀ i, size.toNat % 65536 ≤ i → i < size.toNat →
        regionByte st.mem (src + BitVec.ofNat 64 i) =
          regionByte st.mem (dst + BitVec.ofNat 64 i) := by
  refine ⟨fun moved i low high => moved.bytes_eq ready ranges low high, fun same => ?_⟩
  obtain ⟨r, s, hsrc, hdst, noc, hexec⟩ := ranges.exec_eq ready
  have hle : size.toNat % 65536 ≤ size.toNat := Nat.mod_le _ _
  refine ⟨_, _, hexec, rfl, fun i hi => ?_, fun u a covers outside => ?_⟩
  · by_cases low : size.toNat % 65536 ≤ i
    -- such a byte is not copied, and need not be
    · rw [same i low hi]
      refine hdst.regionByte_copy_of_ne (hdst.covers_add hi) hle fun j hj same => ?_
      have hvalue := congrArg BitVec.toNat same
      rw [hdst.toNat_add hi, hdst.toNat_add (hj.trans_le hle)] at hvalue
      omega
    · rw [hsrc.regionByte_add _ hi]
      exact hdst.regionByte_copy (by omega) hle
  · exact hdst.regionByte_copy_of_ne covers hle fun i hi => outside i (hi.trans_le hle)

/-- A transfer of the length of the tests. -/
theorem remoteMoved_iff_512 : ∃ st, HalReady st ∧
    (RemoteMoved st 0x8000 0x10000000 512 ↔ ∀ i, (512 : Addr).toNat % 65536 ≤ i →
      i < (512 : Addr).toNat → regionByte st.mem (0x8000 + BitVec.ofNat 64 i) =
        regionByte st.mem (0x10000000 + BitVec.ofNat 64 i)) :=
  ⟨_, halReady_afterSetup platformSetup_eq, remoteMoved_iff
    (halReady_afterSetup platformSetup_eq) (.toDmem 0 0 (by decide) (by decide))⟩

/-- The length of the packet for `65536` bytes is zero: with one byte of the source that
differs from the zeroed destination, the reported bytes have not been moved. -/
theorem not_remoteMoved_65536 : ∃ st, HalReady st ∧ RemoteRanges 0x8000 0x10000000 65536 ∧
    ¬ RemoteMoved st 0x8000 0x10000000 65536 := by
  have ready := halReady_afterSetup platformSetup_eq
  have ranges : RemoteRanges 0x8000 0x10000000 65536 := .toDmem 0 0 (by decide) (by decide)
  have hready := Transfer.ready_returned ready ready.arbitration_free
    (zeroMem.put ⟨some (.dlm1_512 0), 0⟩ 1 fun _ => 1)
  refine ⟨_, hready, ranges, fun moved => ?_⟩
  have hbyte := moved.bytes_eq hready ranges (i := 0) (by decide) (by decide)
  revert hbyte
  decide +kernel

end Remote

end MeshNoc
