import MeshNoc.HalTests.RemoteTransfer

/-!
# Local transfers

`ref_dma_local_transfer` programs the engine of a tile through its registers and copies the
bytes. The registers are the `0x50` bytes from offset `0xF000` of the tile on, which are
bytes of the tile's DLM1_512 as well: memory that the functions of the HAL read and write.

## Main results

* `refDmaLocalTransfer_eq` — a local transfer is programming, the copy and reporting
* `localEqualsMove_iff` — exactly when that is the same as the plain copy
-/

namespace MeshNoc

open Lib

/-! ### The registers as addresses -/

/-- The address of byte `k` of the registers of a tile's engine. -/
def regAddr (tile : Fin 8) (k : ℕ) : Addr := dmaRegBases.getD tile 0 + BitVec.ofNat 64 k

theorem regAddr_toNat (tile : Fin 8) {k : ℕ} (hk : k < dmac512RegSize) :
    (regAddr tile k).toNat = 0x100000 * tile + 0xF000 + k := by
  have hbase : ∀ tile : Fin 8,
      (dmaRegBases.getD tile 0).toNat = 0x100000 * tile + 0xF000 := by decide
  have htile := tile.isLt
  have hsize : dmac512RegSize = 0x50 := rfl
  rw [regAddr, BitVec.toNat_add, hbase, BitVec.toNat_ofNat, Nat.add_mod_mod,
    Nat.mod_eq_of_lt (by omega)]

/-- The registers lie in the tile's DLM1_512. -/
theorem regAddr_covers (tile : Fin 8) {k : ℕ} (hk : k < dmac512RegSize) :
    (Region.dlm1_512 tile).Covers (regAddr tile k) := by
  have hsize : dmac512RegSize = 0x50 := rfl
  rw [Region.covers_iff, regAddr_toNat tile hk]
  simp only [Region.base, Region.length]
  omega

theorem addrToPtr_regAddr (tile : Fin 8) {k : ℕ} (hk : k < dmac512RegSize) :
    addrToPtr platformAfterSetup (regAddr tile k) = (dmaRegsPtr tile).add k := by
  rw [addrToPtr_of_covers (regAddr_covers tile hk), regAddr_toNat tile hk]
  simp only [Placement.ptrAt, dmaRegsPtr, Ptr.add, Ptr.mk.injEq]
  refine ⟨rfl, ?_⟩
  change 0 + (0x100000 * tile.val + 0xF000 + k - (0x100000 * tile.val + 0x8000)) = _
  omega

theorem dmaRegsPtr_within (tile : Fin 8) :
    (dmaRegsPtr tile).Within Buffer.size dmac512RegSize :=
  show 0x7000 + 0x50 ≤ dlm1_512Size.toNat by decide

theorem dmaRegsPtr_block (tile : Fin 8) : (dmaRegsPtr tile).block ≠ none :=
  Option.some_ne_none _

section Bytes

variable {tile : Fin 8} {m : Mem} {init : Dmac512Init} {a : Addr} {r : Region}

theorem regionByte_programmed {k : ℕ} (hk : k < dmac512RegSize) :
    regionByte (programmed (dmaRegsPtr tile) init m) (regAddr tile k) =
      programmedByte init k (regionByte m (regAddr tile k)) := by
  rw [regionByte, regionByte, addrToPtr_regAddr tile hk, get_programmed (dmaRegsPtr_block tile)]

theorem regionByte_reported {k : ℕ} (hk : k < dmac512RegSize) :
    regionByte (reported (dmaRegsPtr tile) m) (regAddr tile k) =
      reportedByte k (regionByte m (regAddr tile k)) := by
  rw [regionByte, regionByte, addrToPtr_regAddr tile hk, get_reported (dmaRegsPtr_block tile)]

/-- An address of a region that is no register of the engine is stored elsewhere. -/
theorem not_mem_registers (covers : r.Covers a)
    (other : ∀ k < dmac512RegSize, a ≠ regAddr tile k) :
    ¬ ((dmaRegsPtr tile).block = some r.buffer ∧
      (dmaRegsPtr tile).offset ≤ (addrToPtr platformAfterSetup a).offset ∧
        (addrToPtr platformAfterSetup a).offset <
          (dmaRegsPtr tile).offset + dmac512RegSize) := by
  rintro ⟨hblock, hlow, hhigh⟩
  -- the place would be that of a register, and a place has one address
  have hk : (addrToPtr platformAfterSetup a).offset - (dmaRegsPtr tile).offset <
    dmac512RegSize := by omega
  have hsame : addrToPtr platformAfterSetup a = addrToPtr platformAfterSetup
      (regAddr tile ((addrToPtr platformAfterSetup a).offset - (dmaRegsPtr tile).offset)) := by
    rw [addrToPtr_regAddr tile hk, Ptr.add, Nat.add_sub_cancel' hlow, hblock,
      addrToPtr_of_covers covers]
    rfl
  have hplaces := (addrToPtr_of_covers covers).symm.trans
    (hsame.trans (addrToPtr_of_covers (regAddr_covers tile hk)))
  exact other _ hk (BitVec.eq_of_toNat_eq
    (Placement.ptrAt_inj covers (regAddr_covers tile hk) hplaces))

theorem regionByte_eq_apply (covers : r.Covers a) (m : Mem) :
    regionByte m a = m r.buffer (addrToPtr platformAfterSetup a).offset := by
  rw [regionByte, addrToPtr_of_covers covers]
  rfl

theorem regionByte_programmed_of_ne (covers : r.Covers a)
    (other : ∀ k < dmac512RegSize, a ≠ regAddr tile k) :
    regionByte (programmed (dmaRegsPtr tile) init m) a = regionByte m a := by
  rw [regionByte_eq_apply covers, regionByte_eq_apply covers]
  exact programmed_apply_of_not_mem (not_mem_registers covers other)

theorem regionByte_reported_of_ne (covers : r.Covers a)
    (other : ∀ k < dmac512RegSize, a ≠ regAddr tile k) :
    regionByte (reported (dmaRegsPtr tile) m) a = regionByte m a := by
  rw [regionByte_eq_apply covers, regionByte_eq_apply covers]
  exact reported_apply_of_not_mem (not_mem_registers covers other)

end Bytes

/-! ### The transfer -/

/-- Both ranges lie inside data regions of the tile. -/
structure LocalRanges (tile : Fin 8) (src dst size : Addr) : Prop where
  src : ∃ r : Region, r.tileId = tile ∧ r.Contains src size
  dst : ∃ r : Region, r.tileId = tile ∧ r.Contains dst size

/-- The parameters the engine of a tile is programmed with. -/
def HalSystem.transferInit (st : HalSystem) (tile : Fin 8) (src dst size : Addr) :
    Dmac512Init :=
  MeshNoc.transferInit (st.dma.handles tile).init src dst size

/-- The memory behind a local transfer. -/
def HalSystem.transferred (st : HalSystem) (tile : Fin 8) (src dst size : Addr) : Mem :=
  reported (dmaRegsPtr tile) (Copy.apply
    (programmed (dmaRegsPtr tile) (st.transferInit tile src dst size) st.mem)
    ⟨addrToPtr platformAfterSetup dst, addrToPtr platformAfterSetup src, size.toNat⟩)

/-- The driver behind it: the handle keeps the parameters. -/
def HalSystem.transferredDma (st : HalSystem) (tile : Fin 8) (src dst size : Addr) :
    DmaDriver :=
  let handle := Dmac512Handle.mk (dmaRegsPtr tile) (st.transferInit tile src dst size)
  { st.dma with handles := Function.update st.dma.handles tile handle }

section Transfer

variable {st : HalSystem} {tile : Fin 8} {src dst size : Addr}

theorem dmaLocalTransfer_eq (ready : HalReady st) (ranges : LocalRanges tile src dst size) :
    dmaLocalTransfer platformAfterSetup st.dma st.mem tile src dst size =
      if RangesMeet src size dst size then none
      else some ((size.toNat : ℤ), st.transferredDma tile src dst size,
        st.transferred tile src dst size) := by
  obtain ⟨r, hr, hsrc⟩ := ranges.src
  obtain ⟨s, hs, hdst⟩ := ranges.dst
  have htiles : ¬ (getTileIdFromAddress src ≠ tile ∨ getTileIdFromAddress dst ≠ tile) := by
    rw [getTileIdFromAddress_of_covers hsrc.covers, getTileIdFromAddress_of_covers hdst.covers,
      hr, hs]
    simp
  have hinst := ready.inst tile tile.isLt
  have hsmall : size.toNat ≤ 0xFFFFFF := hsrc.size_le.trans (by decide)
  have htransfer := halDmac512Transfer_eq (st.dma.handles tile) st.mem
    (hinst ▸ dmaRegsPtr_within tile) hsrc.1 hsmall hsrc.ptr_ne_null hdst.ptr_ne_null
    hsrc.validateAddress_eq hdst.validateAddress_eq rfl
  rw [hinst] at htransfer
  rw [dmaLocalTransfer, if_neg htiles, hsrc.validateAddress_eq, hdst.validateAddress_eq,
    if_neg (by decide), dmaTileGetHandle_eq tile.isLt (ready.initialized tile tile.isLt)]
  simp only [Option.bind_eq_bind, Option.bind_some, ne_eq, not_true_eq_false, if_false,
    Int.toNat_natCast, htransfer]
  by_cases meet : RangesMeet src size dst size
  · rw [if_pos meet, hsrc.memcpy_eq_none hdst _ meet]
    rfl
  · rw [if_neg meet, hsrc.memcpy_copy hdst _ le_rfl meet]
    have hsize : (size.setWidth 32).toInt = size.toNat := hsrc.intOfSize_eq
    simp only [Option.map_some, Option.bind_some, hsize]
    rfl

/-- A local transfer on disjoint ranges of one tile. -/
theorem refDmaLocalTransfer_eq (ready : HalReady st) (ranges : LocalRanges tile src dst size)
    (apart : ¬ RangesMeet src size dst size) :
    HalCall.exec st (.dmaLocalTransfer tile src dst size) = some ({ result := size.toNat },
      ⟨{ st.toHalState with
          dma := st.transferredDma tile src dst size
          mem := st.transferred tile src dst size }.unlock, st.noc⟩) := by
  have htransfer := (congrArg (dmaLocalTransfer · st.dma st.mem tile src dst size)
    ready.platform).trans (dmaLocalTransfer_eq ready ranges)
  rw [if_neg apart] at htransfer
  simp only [HalCall.exec, HalSystem.onHal, refDmaLocalTransfer, Transfer.lock_eq ready,
    Option.bind_eq_bind, Option.bind_some, htransfer]
  rfl

/-- On ranges that meet it is undefined. -/
theorem refDmaLocalTransfer_eq_none (ready : HalReady st)
    (ranges : LocalRanges tile src dst size) (meet : RangesMeet src size dst size) :
    HalCall.exec st (.dmaLocalTransfer tile src dst size) = none := by
  have htransfer := (congrArg (dmaLocalTransfer · st.dma st.mem tile src dst size)
    ready.platform).trans (dmaLocalTransfer_eq ready ranges)
  rw [if_pos meet] at htransfer
  simp only [HalCall.exec, HalSystem.onHal, refDmaLocalTransfer, Transfer.lock_eq ready,
    Option.bind_eq_bind, Option.bind_some, htransfer, Option.bind_none]

/-- An instance with a tile. -/
theorem Region.exists_tile {r : Region} (nonneg : 0 ≤ r.tileId) :
    ∃ tile : Fin 8, r.tileId = tile := by
  cases r with
  | dlm64 tile => exact ⟨tile, rfl⟩
  | dlm1_512 tile => exact ⟨tile, rfl⟩
  | dmem id => simp [Region.tileId] at nonneg
  | c0Master => simp [Region.tileId] at nonneg

/-- The driver rejects a local transfer, or it is one of a tile on ranges of that tile. -/
theorem dmaLocalTransfer_cases (st : HalSystem) (tileId : ℤ) (hsrc : InRegion src size)
    (hdst : InRegion dst size) :
    dmaLocalTransfer st.platform st.dma st.mem tileId src dst size =
        some (-1, st.dma, st.mem) ∨
      ∃ tile : Fin 8, tileId = tile ∧ LocalRanges tile src dst size := by
  by_cases htiles : getTileIdFromAddress src ≠ tileId ∨ getTileIdFromAddress dst ≠ tileId
  · exact .inl (if_pos htiles)
  by_cases hsize : size = 0
  · refine .inl ?_
    rw [dmaLocalTransfer, if_neg htiles, hsize, validateAddress_zero]
    rfl
  obtain ⟨r, hr⟩ := hsrc.contains hsize
  obtain ⟨s, hs⟩ := hdst.contains hsize
  have hids : r.tileId = tileId ∧ s.tileId = tileId := by
    rw [getTileIdFromAddress_of_covers hr.covers, getTileIdFromAddress_of_covers hs.covers]
      at htiles
    exact not_or.mp htiles |>.imp not_not.mp not_not.mp
  by_cases hnonneg : 0 ≤ tileId
  · obtain ⟨tile, htile⟩ := Region.exists_tile (hids.1.symm ▸ hnonneg)
    have hid : tileId = tile := hids.1.symm.trans htile
    exact .inr ⟨tile, hid, ⟨r, hids.1.trans hid, hr⟩, ⟨s, hids.2.trans hid, hs⟩⟩
  -- addresses of no tile have the id `-1`; there is no engine for it
  · refine .inl ?_
    have hrange : tileId < 0 ∨ 8 ≤ tileId := .inl (by omega)
    rw [dmaLocalTransfer, if_neg htiles, hr.validateAddress_eq, hs.validateAddress_eq,
      if_neg (by decide), dmaTileGetHandle, if_pos hrange]
    rfl

/-- A rejected transfer returns with the driver and memory as they were. -/
theorem refDmaLocalTransfer_rejected (ready : HalReady st) {tileId : ℤ}
    (rejected : dmaLocalTransfer st.platform st.dma st.mem tileId src dst size =
      some (-1, st.dma, st.mem)) :
    HalCall.exec st (.dmaLocalTransfer tileId src dst size) =
      some ({ result := -1 }, ⟨st.toHalState.returned st.mem, st.noc⟩) := by
  simp only [HalCall.exec, HalSystem.onHal, refDmaLocalTransfer, Transfer.lock_eq ready,
    Option.bind_eq_bind, Option.bind_some, rejected]
  rfl

/-! ### The bytes behind a local transfer -/

/-- Address `x` is one of the `n` addresses from `a` on. -/
def RangeHas (a n x : Addr) : Prop := a.toNat ≤ x.toNat ∧ x.toNat < a.toNat + n.toNat

instance (a n x : Addr) : Decidable (RangeHas a n x) := inferInstanceAs (Decidable (_ ∧ _))

/-- The byte of address `a` behind a plain copy. -/
def movedByte (m : Mem) (src dst size a : Addr) : Byte :=
  if RangeHas dst size a then regionByte m (src + BitVec.ofNat 64 (a.toNat - dst.toNat))
  else regionByte m a

theorem Region.Contains.rangeHas_add {r : Region} (h : r.Contains dst size) {i : ℕ}
    (hi : i < size.toNat) : RangeHas dst size (dst + BitVec.ofNat 64 i) := by
  rw [RangeHas, h.toNat_add hi]
  omega

/-- An address of a range, by its index. -/
theorem Region.Contains.exists_index {r : Region} (h : r.Contains dst size) {a : Addr}
    (inside : RangeHas dst size a) : ∃ i < size.toNat, dst + BitVec.ofNat 64 i = a := by
  obtain ⟨hlow, hhigh⟩ := inside
  have hi : a.toNat - dst.toNat < size.toNat := by omega
  refine ⟨_, hi, BitVec.eq_of_toNat_eq ?_⟩
  rw [h.toNat_add hi]
  omega

theorem movedByte_add {r : Region} (h : r.Contains dst size) (m : Mem) {i : ℕ}
    (hi : i < size.toNat) : movedByte m src dst size (dst + BitVec.ofNat 64 i) =
      regionByte m (src + BitVec.ofNat 64 i) := by
  rw [movedByte, if_pos (h.rangeHas_add hi), h.toNat_add hi, Nat.add_sub_cancel_left]

theorem movedByte_of_not (m : Mem) {a : Addr} (outside : ¬ RangeHas dst size a) :
    movedByte m src dst size a = regionByte m a := if_neg outside

/-- Ranges that do not meet have no address in common. -/
theorem not_rangeHas_of_not_meet {a : Addr} (apart : ¬ RangesMeet src size dst size)
    (inside : RangeHas src size a) : ¬ RangeHas dst size a := by
  unfold RangesMeet at apart
  unfold RangeHas at *
  omega

/-- The byte of an address of a region behind a copy. -/
theorem regionByte_copied {r s u : Region} {a : Addr} (hsrc : r.Contains src size)
    (hdst : s.Contains dst size) (covers : u.Covers a) (m : Mem) :
    regionByte (Copy.apply m ⟨addrToPtr platformAfterSetup dst,
      addrToPtr platformAfterSetup src, size.toNat⟩) a = movedByte m src dst size a := by
  by_cases inside : RangeHas dst size a
  · obtain ⟨i, hi, rfl⟩ := hdst.exists_index inside
    rw [movedByte_add hdst m hi, hsrc.regionByte_add m hi]
    exact hdst.regionByte_copy hi le_rfl
  · rw [movedByte_of_not m inside]
    refine hdst.regionByte_copy_of_ne covers le_rfl fun i hi same => inside ?_
    rw [same]
    exact hdst.rangeHas_add hi

/-! ### When a local transfer is a plain copy -/

/-- Programming the engine and reporting the transfer leave no trace: outside the
destination the registers, apart from the status, hold what they are programmed to; the
busy bit is not read by the copy; and the copy leaves the busy bit down and the interrupt
bit up. -/
structure RegistersSettled (st : HalSystem) (tile : Fin 8) (src dst size : Addr) : Prop where
  programmed : ∀ k < dmac512RegSize, ¬ (0x04 ≤ k ∧ k < 0x08) →
    ¬ RangeHas dst size (regAddr tile k) →
      programmedByte (st.transferInit tile src dst size) k
        (regionByte st.mem (regAddr tile k)) = regionByte st.mem (regAddr tile k)
  busy_unread : ¬ RangeHas src size (regAddr tile 0x05)
  idle : (movedByte st.mem src dst size (regAddr tile 0x05)).getLsbD 0 = false
  interrupt : (movedByte st.mem src dst size (regAddr tile 0x10)).getLsbD 0 = true

/-- The transfer returns `size`, its destination holds what the source held before, every
other byte of every region is as before, and so memory is what `cpu_local_move` leaves. -/
def LocalEqualsMove (st : HalSystem) (tile : Fin 8) (src dst size : Addr) : Prop :=
  ∃ answer st' moved st'', HalCall.exec st (.dmaLocalTransfer tile src dst size) =
      some (answer, st') ∧
    HalCall.exec st (.cpuLocalMove src dst size) = some (moved, st'') ∧
    answer.result = size.toNat ∧
    (∀ i < size.toNat, regionByte st'.mem (dst + BitVec.ofNat 64 i) =
      regionByte st.mem (src + BitVec.ofNat 64 i)) ∧
    (∀ r : Region, ∀ a : Addr, r.Covers a → ¬ RangeHas dst size a →
      regionByte st'.mem a = regionByte st.mem a) ∧
    ∀ r : Region, ∀ a : Addr, r.Covers a → regionByte st'.mem a = regionByte st''.mem a

theorem LocalRanges.cpuLocalMove_eq (ranges : LocalRanges tile src dst size)
    (ready : HalReady st) : ∃ moved noc, HalCall.exec st (.cpuLocalMove src dst size) =
      some (moved, ⟨st.toHalState.returned (Copy.apply st.mem
        ⟨addrToPtr platformAfterSetup dst, addrToPtr platformAfterSetup src, size.toNat⟩),
          noc⟩) := by
  obtain ⟨r, -, hsrc⟩ := ranges.src
  obtain ⟨s, -, hdst⟩ := ranges.dst
  let t : Transfer := ⟨.cpuLocalMove, src, dst, size⟩
  have hlength : t.length = size.toNat := if_pos ⟨hsrc.1, trivial⟩
  have hexec := Transfer.refCpuLocalMove_eq ready (t := t) rfl ⟨⟨r, hsrc.2⟩, ⟨s, hdst.2⟩⟩
  obtain ⟨noc, -, hcall⟩ := Transfer.onHal_eq ready hexec
  rw [Transfer.copy, hlength] at hcall
  exact ⟨_, _, hcall⟩

/-- The property speaks of one memory: that behind the transfer, compared with the plain
copy. -/
theorem localEqualsMove_iff_bytes (ready : HalReady st) (ranges : LocalRanges tile src dst size)
    (apart : ¬ RangesMeet src size dst size) : LocalEqualsMove st tile src dst size ↔
      ∀ r : Region, ∀ a : Addr, r.Covers a →
        regionByte (st.transferred tile src dst size) a = movedByte st.mem src dst size a := by
  obtain ⟨r, -, hsrc⟩ := ranges.src
  obtain ⟨s, -, hdst⟩ := ranges.dst
  have hexec := refDmaLocalTransfer_eq ready ranges apart
  obtain ⟨moved, noc, hmove⟩ := ranges.cpuLocalMove_eq ready
  constructor
  · rintro ⟨answer, st', moved', st'', hran, -, -, hmoved, hother, -⟩ u a covers
    obtain ⟨-, rfl⟩ := Prod.mk.inj (Option.some.inj (hran.symm.trans hexec))
    by_cases inside : RangeHas dst size a
    · obtain ⟨i, hi, rfl⟩ := hdst.exists_index inside
      rw [movedByte_add hdst _ hi]
      exact hmoved i hi
    · rw [movedByte_of_not _ inside]
      exact hother u a covers inside
  · intro hbytes
    refine ⟨_, _, _, _, hexec, hmove, rfl, fun i hi => ?_, fun u a covers outside => ?_,
      fun u a covers => ?_⟩
    · rw [← movedByte_add hdst st.mem hi]
      exact hbytes s _ (hdst.covers_add hi)
    · have hkept : movedByte st.mem src dst size a = regionByte st.mem a :=
        movedByte_of_not st.mem outside
      rw [← hkept]
      exact hbytes u a covers
    · exact (hbytes u a covers).trans (regionByte_copied hsrc hdst covers st.mem).symm

section Engine

variable {r s u : Region} {a : Addr} {k : ℕ}

/-- The memory of the started engine. -/
def HalSystem.started (st : HalSystem) (tile : Fin 8) (src dst size : Addr) : Mem :=
  MeshNoc.programmed (dmaRegsPtr tile) (st.transferInit tile src dst size) st.mem

/-- The transfer's byte of a register: reporting changes what the copy has left. -/
theorem regionByte_transferred_regAddr (hsrc : r.Contains src size)
    (hdst : s.Contains dst size) (hk : k < dmac512RegSize) :
    regionByte (st.transferred tile src dst size) (regAddr tile k) =
      reportedByte k (movedByte (st.started tile src dst size) src dst size
        (regAddr tile k)) := by
  rw [HalSystem.transferred, regionByte_reported hk,
    regionByte_copied hsrc hdst (regAddr_covers tile hk)]
  rfl

/-- The transfer's byte of any other address. -/
theorem regionByte_transferred_of_ne (hsrc : r.Contains src size)
    (hdst : s.Contains dst size) (covers : u.Covers a)
    (other : ∀ k < dmac512RegSize, a ≠ regAddr tile k) :
    regionByte (st.transferred tile src dst size) a =
      movedByte (st.started tile src dst size) src dst size a := by
  rw [HalSystem.transferred, regionByte_reported_of_ne covers other,
    regionByte_copied hsrc hdst covers]
  rfl

theorem regionByte_started_regAddr (hk : k < dmac512RegSize) :
    regionByte (st.started tile src dst size) (regAddr tile k) =
      programmedByte (st.transferInit tile src dst size) k
        (regionByte st.mem (regAddr tile k)) := regionByte_programmed hk

/-- With settled registers starting the engine changes nothing outside the destination but
the busy bit. -/
theorem RegistersSettled.regionByte_started (settled : RegistersSettled st tile src dst size)
    (covers : u.Covers a) (outside : ¬ RangeHas dst size a) (busy : a ≠ regAddr tile 0x05) :
    regionByte (st.started tile src dst size) a = regionByte st.mem a := by
  by_cases hreg : ∃ k < dmac512RegSize, a = regAddr tile k
  · obtain ⟨k, hk, rfl⟩ := hreg
    rw [regionByte_started_regAddr hk]
    by_cases hstatus : 0x04 ≤ k ∧ k < 0x08
    · refine programmedByte_status hstatus.1 hstatus.2 ?_
      rintro rfl
      exact busy rfl
    · exact settled.programmed k hk hstatus outside
  · exact regionByte_programmed_of_ne covers fun k hk h => hreg ⟨k, hk, h⟩

/-- So the copy moves the bytes that were there before the transfer. -/
theorem RegistersSettled.movedByte_started (settled : RegistersSettled st tile src dst size)
    (hsrc : r.Contains src size) (hdst : s.Contains dst size)
    (apart : ¬ RangesMeet src size dst size) (covers : u.Covers a)
    (busy : a ≠ regAddr tile 0x05 ∨ RangeHas dst size a) :
    movedByte (st.started tile src dst size) src dst size a =
      movedByte st.mem src dst size a := by
  by_cases inside : RangeHas dst size a
  · obtain ⟨i, hi, rfl⟩ := hdst.exists_index inside
    rw [movedByte_add hdst _ hi, movedByte_add hdst _ hi]
    -- the byte comes from the source, which holds no destination and not the busy bit
    have hread := hsrc.rangeHas_add hi
    refine settled.regionByte_started (hsrc.covers_add hi)
      (not_rangeHas_of_not_meet apart hread) fun h => settled.busy_unread ?_
    rw [← h]
    exact hread
  · rw [movedByte_of_not _ inside, movedByte_of_not _ inside]
    exact settled.regionByte_started covers inside (busy.resolve_right inside)

/-- With settled registers the transfer is the plain copy. -/
theorem RegistersSettled.regionByte_transferred
    (settled : RegistersSettled st tile src dst size) (hsrc : r.Contains src size)
    (hdst : s.Contains dst size) (apart : ¬ RangesMeet src size dst size)
    (covers : u.Covers a) : regionByte (st.transferred tile src dst size) a =
      movedByte st.mem src dst size a := by
  by_cases hreg : ∃ k < dmac512RegSize, a = regAddr tile k
  · obtain ⟨k, hk, rfl⟩ := hreg
    rw [regionByte_transferred_regAddr hsrc hdst hk]
    by_cases hbusy : k = 0x05
    · subst hbusy
      have hidle := settled.idle
      by_cases inside : RangeHas dst size (regAddr tile 0x05)
      · rw [settled.movedByte_started hsrc hdst apart covers (.inr inside)]
        exact reportedByte_busy_eq _ hidle
      -- raised before the copy and lowered behind it, the bit ends as it was
      · rw [movedByte_of_not _ inside] at hidle ⊢
        rw [movedByte_of_not _ inside, regionByte_started_regAddr hk]
        exact reportedByte_programmedByte_busy _ _ hidle
    · have hne : regAddr tile k ≠ regAddr tile 0x05 := by
        intro h
        have hvalue := congrArg BitVec.toNat h
        rw [regAddr_toNat tile hk, regAddr_toNat tile (by decide)] at hvalue
        omega
      rw [settled.movedByte_started hsrc hdst apart covers (.inl hne)]
      by_cases hintr : k = 0x10
      · subst hintr
        exact reportedByte_intr_eq _ settled.interrupt
      · exact reportedByte_of_ne hbusy hintr
  · have hother : ∀ k < dmac512RegSize, a ≠ regAddr tile k := fun k hk h => hreg ⟨k, hk, h⟩
    rw [regionByte_transferred_of_ne hsrc hdst covers hother]
    exact settled.movedByte_started hsrc hdst apart covers (.inl (hother 0x05 (by decide)))

/-- A copy that reads the busy bit leaves bit 0 raised in the destination. -/
theorem busy_raised (st : HalSystem) (hsrc : r.Contains src size) (hdst : s.Contains dst size)
    (apart : ¬ RangesMeet src size dst size) {i : ℕ} (hi : i < size.toNat)
    (read : src + BitVec.ofNat 64 i = regAddr tile 0x05) :
    (regionByte (st.transferred tile src dst size)
      (dst + BitVec.ofNat 64 i)).getLsbD 0 = true := by
  have hk : 0x05 < dmac512RegSize := by decide
  have hmoved : (movedByte (st.started tile src dst size) src dst size
      (dst + BitVec.ofNat 64 i)).getLsbD 0 = true := by
    rw [movedByte_add hdst _ hi, read, regionByte_started_regAddr hk]
    exact programmedByte_busy _ _
  by_cases hreg : ∃ k < dmac512RegSize, dst + BitVec.ofNat 64 i = regAddr tile k
  · obtain ⟨k, hk', hsame⟩ := hreg
    have hne : k ≠ 0x05 := by
      rintro rfl
      have hread := hsrc.rangeHas_add hi
      rw [read] at hread
      refine not_rangeHas_of_not_meet apart hread ?_
      rw [← hsame]
      exact hdst.rangeHas_add hi
    rw [hsame] at hmoved ⊢
    rw [regionByte_transferred_regAddr hsrc hdst hk']
    by_cases hintr : k = 0x10
    · subst hintr
      exact reportedByte_intr _
    · rwa [reportedByte_of_ne hne hintr]
  · rwa [regionByte_transferred_of_ne hsrc hdst (hdst.covers_add hi)
      fun k hk h => hreg ⟨k, hk, h⟩]

/-- A transfer that is the plain copy has found the registers settled. -/
theorem registersSettled_of_bytes (hsrc : r.Contains src size) (hdst : s.Contains dst size)
    (apart : ¬ RangesMeet src size dst size)
    (plain : ∀ u : Region, ∀ a : Addr, u.Covers a →
      regionByte (st.transferred tile src dst size) a = movedByte st.mem src dst size a) :
    RegistersSettled st tile src dst size := by
  have hreg : ∀ k < dmac512RegSize, reportedByte k (movedByte (st.started tile src dst size)
      src dst size (regAddr tile k)) = movedByte st.mem src dst size (regAddr tile k) := by
    intro k hk
    rw [← regionByte_transferred_regAddr hsrc hdst hk]
    exact plain _ _ (regAddr_covers tile hk)
  have houtside : ∀ k < dmac512RegSize, ¬ RangeHas dst size (regAddr tile k) →
      reportedByte k (programmedByte (st.transferInit tile src dst size) k
        (regionByte st.mem (regAddr tile k))) = regionByte st.mem (regAddr tile k) := by
    intro k hk outside
    have h := hreg k hk
    rwa [movedByte_of_not _ outside, movedByte_of_not _ outside,
      regionByte_started_regAddr hk] at h
  refine ⟨fun k hk hstatus outside => ?_, fun hread => ?_, ?_, ?_⟩
  · have h := houtside k hk outside
    by_cases hintr : k = 0x10
    · subst hintr
      rfl
    · rwa [reportedByte_of_ne (by omega) hintr] at h
  -- if the copy reads the busy bit, it reads it raised, and where the byte goes it stays so
  · have hk : 0x05 < dmac512RegSize := by decide
    have hbit := congrArg (BitVec.getLsbD · 0)
      (houtside 0x05 hk (not_rangeHas_of_not_meet apart hread))
    simp only [reportedByte_busy] at hbit
    obtain ⟨i, hi, hsame⟩ := hsrc.exists_index hread
    have htarget := plain _ _ (hdst.covers_add hi)
    rw [movedByte_add hdst _ hi, hsame] at htarget
    have hraised := busy_raised st hsrc hdst apart hi hsame
    rw [htarget, ← hbit] at hraised
    exact Bool.false_ne_true hraised
  · have h := congrArg (BitVec.getLsbD · 0) (hreg 0x05 (by decide))
    simp only [reportedByte_busy] at h
    exact h.symm
  · have h := congrArg (BitVec.getLsbD · 0) (hreg 0x10 (by decide))
    simp only [reportedByte_intr] at h
    exact h.symm

end Engine

/-- A local transfer on disjoint ranges of one tile is the plain copy if and only if it
finds the registers of the tile's engine settled. -/
theorem localEqualsMove_iff (ready : HalReady st) (ranges : LocalRanges tile src dst size)
    (apart : ¬ RangesMeet src size dst size) :
    LocalEqualsMove st tile src dst size ↔ RegistersSettled st tile src dst size := by
  obtain ⟨r, -, hsrc⟩ := ranges.src
  obtain ⟨s, -, hdst⟩ := ranges.dst
  rw [localEqualsMove_iff_bytes ready ranges apart]
  exact ⟨registersSettled_of_bytes hsrc hdst apart, fun settled u a covers =>
    settled.regionByte_transferred hsrc hdst apart covers⟩

/-- Two ranges of tile 3. -/
theorem localEqualsMove_iff_tile3 : ∃ st, HalReady st ∧
    (LocalEqualsMove st 3 0x300000 0x308000 64 ↔
      RegistersSettled st 3 0x300000 0x308000 64) :=
  ⟨_, halReady_afterSetup platformSetup_eq, localEqualsMove_iff
    (halReady_afterSetup platformSetup_eq) ⟨⟨.dlm64 3, rfl, by decide⟩,
      ⟨.dlm1_512 3, rfl, by decide⟩⟩ (by decide)⟩

/-- The transfer of the tests, after set-up: the interrupt bit, a readable byte of the tile's
DLM1_512, is raised. -/
theorem not_localEqualsMove_256 : ∃ st, HalReady st ∧
    LocalRanges 1 0x108000 0x108100 256 ∧ ¬ LocalEqualsMove st 1 0x108000 0x108100 256 := by
  have ready := halReady_afterSetup platformSetup_eq
  have ranges : LocalRanges 1 0x108000 0x108100 256 :=
    ⟨⟨.dlm1_512 1, rfl, by decide⟩, ⟨.dlm1_512 1, rfl, by decide⟩⟩
  have apart : ¬ RangesMeet 0x108000 256 0x108100 256 := by decide
  refine ⟨_, ready, ranges, fun plain => ?_⟩
  obtain ⟨s, -, hdst⟩ := ranges.dst
  obtain ⟨r, -, hsrc⟩ := ranges.src
  have settled := registersSettled_of_bytes hsrc hdst apart
    ((localEqualsMove_iff_bytes ready ranges apart).mp plain)
  have hinterrupt := settled.interrupt
  revert hinterrupt
  decide +kernel

end Transfer

end MeshNoc
