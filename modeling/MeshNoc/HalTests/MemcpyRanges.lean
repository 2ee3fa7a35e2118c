import MeshNoc.HalTests.LocalTransfer

/-!
# The ranges that memcpy is called on

`memcpy` is undefined on overlapping ranges. The platform calls it on simulated memory at
four places: when a DMA engine is started, when the router delivers a packet, in `dmem_copy`
and in `dma_memcpy_addr`. None of the checks on the way there compares the two ranges, so
what keeps them apart is the regions they are in: a remote transfer is between regions of
different kinds, all others may be given one region twice. `ref_cpu_local_move` takes
`memmove` for this reason.

For each function the call of `memcpy` it makes is given as a `Copy`, by the checks that
guard it, and the function is shown to be undefined exactly when that copy is.

## Main results

* `MemcpyCall.memcpy_eq` — which copy a call makes on ranges inside region instances
* `memcpyApart_iff` — the calls whose `memcpy` gets ranges that are apart
* `exec_eq_none_iff_not_apart` — the others are undefined
-/

namespace MeshNoc

open Lib

/-! ### The four places -/

/-- The `memcpy` in `HAL_DMAC512StartTransfers`. -/
def halDmac512StartTransfersMemcpy (p : MeshPlatform) (init : Dmac512Init) :
    Option (Copy Buffer) :=
  let size : Addr := init.xferCount.setWidth 64
  let srcPtr := addrToPtr p init.srcAddr
  let dstPtr := addrToPtr p init.dstAddr
  if srcPtr ≠ .null ∧ dstPtr ≠ .null ∧
      validateAddress init.srcAddr size = true ∧ validateAddress init.dstAddr size = true then
    some ⟨dstPtr, srcPtr, size.toNat⟩
  else none

/-- The `memcpy` in `noc_send_packet`, with or without arbitration. -/
def nocSendPacketMemcpy (p : MeshPlatform) (hdr : PktHeader) : Option (Copy Buffer) :=
  (packetPointers p hdr).map fun ptrs => ⟨ptrs.2, ptrs.1, hdr.length.toNat⟩

/-- The `memcpy` in `dmem_copy`. -/
def dmemCopyMemcpy (p : MeshPlatform) (srcAddr dstAddr size : Addr) : Option (Copy Buffer) :=
  if getAddressRegion srcAddr ≠ .dmem512 ∨ getAddressRegion dstAddr ≠ .dmem512 then none
  else if !validateAddress srcAddr size || !validateAddress dstAddr size then none
  else
    let srcPtr := addrToPtr p srcAddr
    let dstPtr := addrToPtr p dstAddr
    if srcPtr = .null ∨ dstPtr = .null then none else some ⟨dstPtr, srcPtr, size.toNat⟩

/-- The `memcpy` in `dma_memcpy_addr`. -/
def dmaMemcpyAddrMemcpy (p : MeshPlatform) (dstAddr srcAddr size : Addr) :
    Option (Copy Buffer) :=
  let dstPtr := addrToPtr p dstAddr
  let srcPtr := addrToPtr p srcAddr
  if dstPtr ≠ .null ∧ srcPtr ≠ .null ∧
      validateAddress srcAddr size = true ∧ validateAddress dstAddr size = true then
    some ⟨dstPtr, srcPtr, size.toNat⟩
  else none

/-- The call of `memcpy`. -/
def memcpyOf (m : Mem) (copy : Copy Buffer) : Option Mem :=
  m.memcpy Buffer.size copy.dst copy.src copy.length

section Places

variable {p : MeshPlatform} {m : Mem}

/-- Between the enable bit and the report an engine makes its `memcpy`, or fails. -/
theorem halDmac512StartTransfers_memcpy (handle : Dmac512Handle) :
    halDmac512StartTransfers p handle m = (do
      let m ← modifyReg m (handle.inst.add dmacTotalXferCnt)
        (setDmac512DmacEn · dmac512EnableTransfers)
      match halDmac512StartTransfersMemcpy p handle.init with
      | some copy => do
        let m ← memcpyOf m copy
        let m ← modifyReg m (handle.inst.add dmacStatus) (· &&& ~~~dmac512StatusDmacBusyMask)
        modifyReg m (handle.inst.add dmacIntr) (· ||| dmac512IntrDmacIntrMask)
      | none => modifyReg m (handle.inst.add dmacStatus) (· ||| dmac512StatusDmacBusyMask)) := by
  simp only [halDmac512StartTransfers, halDmac512StartTransfersMemcpy]
  split_ifs <;> rfl

theorem packetCopy_memcpy (hdr : PktHeader) : packetCopy p m hdr =
    match nocSendPacketMemcpy p hdr with
    | some copy => memcpyOf m copy
    | none => some m := by
  rw [packetCopy, nocSendPacketMemcpy]
  cases packetPointers p hdr <;> rfl

theorem dmemCopy_memcpy (srcAddr dstAddr size : Addr) : dmemCopy p m srcAddr dstAddr size =
    match dmemCopyMemcpy p srcAddr dstAddr size with
    | some copy => (memcpyOf m copy).map fun m => (0, m)
    | none => some (-1, m) := by
  simp only [dmemCopy, dmemCopyMemcpy, Option.map_eq_bind]
  split_ifs <;> rfl

theorem dmaMemcpyAddr_memcpy (dstAddr srcAddr size : Addr) :
    dmaMemcpyAddr p m dstAddr srcAddr size =
      match dmaMemcpyAddrMemcpy p dstAddr srcAddr size with
      | some copy => memcpyOf m copy
      | none => some m := by
  simp only [dmaMemcpyAddr, dmaMemcpyAddrMemcpy]
  split_ifs <;> rfl

end Places

/-! ### The functions that lead there -/

/-- The `memcpy` that `HAL_DMAC512Transfer` reaches. -/
def halDmac512TransferMemcpy (p : MeshPlatform) (init : Dmac512Init)
    (srcAddr dstAddr size : Addr) : Option (Copy Buffer) :=
  if size = 0 ∨ 0xFFFFFF < size then none
  else if !validateAddress srcAddr size || !validateAddress dstAddr size then none
  else halDmac512StartTransfersMemcpy p (transferInit init srcAddr dstAddr size)

/-- The `memcpy` that `dma_local_transfer` reaches. -/
def dmaLocalTransferMemcpy (p : MeshPlatform) (driver : DmaDriver) (m : Mem) (tileId : ℤ)
    (srcAddr dstAddr size : Addr) : Option (Copy Buffer) :=
  if getTileIdFromAddress srcAddr ≠ tileId ∨ getTileIdFromAddress dstAddr ≠ tileId then none
  else if !validateAddress srcAddr size || !validateAddress dstAddr size then none
  else
    match dmaTileGetHandle p driver m tileId with
    | some (0, driver, _) =>
      halDmac512TransferMemcpy p (driver.handles tileId.toNat).init srcAddr dstAddr size
    | _ => none

/-- The `memcpy` that `ref_dma_remote_transfer` reaches. -/
def refDmaRemoteTransferMemcpy (st : HalState) (srcAddr dstAddr size : Addr) :
    Option (Copy Buffer) :=
  if !st.platformSet then none
  else if !validateAddress srcAddr size || !validateAddress dstAddr size then none
  else if ¬ RemoteRegions srcAddr dstAddr then none
  else nocSendPacketMemcpy st.platform (remotePacket srcAddr dstAddr size)

/-- The `memcpy` that `ref_dmem_to_dmem_transfer` reaches. -/
def refDmemToDmemTransferMemcpy (st : HalState) (srcAddr dstAddr size : Addr) :
    Option (Copy Buffer) :=
  if !st.platformSet then none
  else if !validateAddress srcAddr size || !validateAddress dstAddr size then none
  else if getAddressRegion srcAddr ≠ .dmem512 ∨ getAddressRegion dstAddr ≠ .dmem512 then none
  else dmemCopyMemcpy st.platform srcAddr dstAddr size

/-- The functions of `g_hal` and of the drivers that call `memcpy` on simulated memory. -/
inductive MemcpyFunction
  | dmaLocalTransfer (tileId : ℤ)
  | dmaRemoteTransfer
  | dmemToDmemTransfer
  | dmemCopy
  | dmaMemcpyAddr
  deriving DecidableEq

/-- One of them with its arguments. -/
structure MemcpyCall where
  function : MemcpyFunction
  srcAddr : Addr
  dstAddr : Addr
  size : Addr

namespace MemcpyCall

variable (c : MemcpyCall)

/-- The `memcpy` the call reaches. -/
def memcpy (st : HalSystem) : Option (Copy Buffer) :=
  match c.function with
  | .dmaLocalTransfer tileId =>
    dmaLocalTransferMemcpy st.platform st.dma st.mem tileId c.srcAddr c.dstAddr c.size
  | .dmaRemoteTransfer =>
    refDmaRemoteTransferMemcpy st.toHalState c.srcAddr c.dstAddr c.size
  | .dmemToDmemTransfer =>
    refDmemToDmemTransferMemcpy st.toHalState c.srcAddr c.dstAddr c.size
  | .dmemCopy => dmemCopyMemcpy st.platform c.srcAddr c.dstAddr c.size
  | .dmaMemcpyAddr => dmaMemcpyAddrMemcpy st.platform c.dstAddr c.srcAddr c.size

/-- The call, by the state it leaves. -/
def exec (st : HalSystem) : Option HalSystem :=
  match c.function with
  | .dmaLocalTransfer tileId =>
    ((HalCall.dmaLocalTransfer tileId c.srcAddr c.dstAddr c.size).exec st).map Prod.snd
  | .dmaRemoteTransfer =>
    ((HalCall.dmaRemoteTransfer c.srcAddr c.dstAddr c.size).exec st).map Prod.snd
  | .dmemToDmemTransfer =>
    ((HalCall.dmemToDmemTransfer c.srcAddr c.dstAddr c.size).exec st).map Prod.snd
  | .dmemCopy =>
    (MeshNoc.dmemCopy st.platform st.mem c.srcAddr c.dstAddr c.size).map fun result =>
      { st with mem := result.2 }
  | .dmaMemcpyAddr =>
    (MeshNoc.dmaMemcpyAddr st.platform st.mem c.dstAddr c.srcAddr c.size).map fun mem =>
      { st with mem := mem }

/-- Both ranges lie inside single region instances. -/
structure InRegions : Prop where
  src : InRegion c.srcAddr c.size
  dst : InRegion c.dstAddr c.size

/-- The function's own checks of tiles and regions pass. -/
def Accepted : Prop :=
  match c.function with
  | .dmaLocalTransfer tileId => 0 ≤ tileId ∧ getTileIdFromAddress c.srcAddr = tileId ∧
      getTileIdFromAddress c.dstAddr = tileId
  | .dmaRemoteTransfer => RemoteRegions c.srcAddr c.dstAddr
  | .dmemToDmemTransfer | .dmemCopy =>
    getAddressRegion c.srcAddr = .dmem512 ∧ getAddressRegion c.dstAddr = .dmem512
  | .dmaMemcpyAddr => True

/-- The number of bytes it hands to `memcpy`. -/
def count : ℕ :=
  match c.function with
  -- the length of a packet has 16 bits
  | .dmaRemoteTransfer => c.size.toNat % 65536
  | _ => c.size.toNat

/-- The ranges of the `memcpy` the call reaches, if it reaches one, share no byte. -/
def MemcpyApart (st : HalSystem) : Prop :=
  ∀ copy, c.memcpy st = some copy → ¬ copy.dst.Overlaps copy.src copy.length

instance : Decidable c.Accepted := by
  unfold Accepted
  cases c.function <;> infer_instance

variable {c} {st : HalSystem}

/-- On an empty range no call reaches `memcpy`. -/
theorem memcpy_of_size (empty : c.size = 0) : c.memcpy st = none := by
  obtain ⟨function, srcAddr, dstAddr, size⟩ := c
  dsimp only at empty
  subst empty
  cases function <;>
    simp only [memcpy, dmaLocalTransferMemcpy, refDmaRemoteTransferMemcpy,
      refDmemToDmemTransferMemcpy, dmemCopyMemcpy, dmaMemcpyAddrMemcpy, validateAddress_zero,
      Bool.not_false, Bool.true_or, Bool.false_eq_true, and_false, if_true, if_false, ite_self]

/-- What an engine is started with: the addresses and the size of the transfer. -/
theorem halDmac512TransferMemcpy_eq {r s : Region} {src dst size : Addr}
    (hsrc : r.Contains src size) (hdst : s.Contains dst size) (init : Dmac512Init) :
    halDmac512TransferMemcpy platformAfterSetup init src dst size =
      some ⟨addrToPtr platformAfterSetup dst, addrToPtr platformAfterSetup src, size.toNat⟩ := by
  have hsmall : size.toNat ≤ 0x40000 := hsrc.size_le
  have hbounds : ¬ (size = 0 ∨ 0xFFFFFF < size) := by
    rintro (hzero | hlarge)
    · exact hsrc.1 hzero
    · exact absurd (show 0xFFFFFF < size.toNat from hlarge) (by omega)
  -- the size survives the 32 bits of the handle
  have hsize : (transferInit init src dst size).xferCount.setWidth 64 = size := by
    apply BitVec.eq_of_toNat_eq
    simp only [transferInit, BitVec.toNat_setWidth]
    omega
  rw [halDmac512TransferMemcpy, if_neg hbounds, hsrc.validateAddress_eq,
    hdst.validateAddress_eq, if_neg (by decide), halDmac512StartTransfersMemcpy]
  simp only [hsize]
  exact if_pos ⟨hsrc.ptr_ne_null, hdst.ptr_ne_null, hsrc.validateAddress_eq,
    hdst.validateAddress_eq⟩

theorem dmaLocalTransferMemcpy_eq (ready : HalReady st) {r s : Region} {src dst size : Addr}
    (hsrc : r.Contains src size) (hdst : s.Contains dst size) (tileId : ℤ) :
    dmaLocalTransferMemcpy st.platform st.dma st.mem tileId src dst size =
      if 0 ≤ tileId ∧ getTileIdFromAddress src = tileId ∧ getTileIdFromAddress dst = tileId then
        some ⟨addrToPtr platformAfterSetup dst, addrToPtr platformAfterSetup src, size.toNat⟩
      else none := by
  rw [dmaLocalTransferMemcpy, hsrc.validateAddress_eq, hdst.validateAddress_eq,
    if_neg (c := (!true || !true) = true) (by decide)]
  by_cases htiles : getTileIdFromAddress src = tileId ∧ getTileIdFromAddress dst = tileId
  · rw [if_neg (by rw [not_or, not_not, not_not]; exact htiles)]
    by_cases hnonneg : 0 ≤ tileId
    · rw [if_pos ⟨hnonneg, htiles⟩]
      have hid : r.tileId = tileId :=
        (getTileIdFromAddress_of_covers hsrc.covers).symm.trans htiles.1
      obtain ⟨tile, htile⟩ := Region.exists_tile (hid.symm ▸ hnonneg)
      obtain rfl : tileId = tile := hid.symm.trans htile
      rw [dmaTileGetHandle_eq tile.isLt (ready.initialized tile tile.isLt), ready.platform]
      exact halDmac512TransferMemcpy_eq hsrc hdst _
    -- there is no engine for the id `-1`
    · rw [if_neg fun h => hnonneg h.1, dmaTileGetHandle, if_pos (.inl (by omega))]
      rfl
  · rw [if_pos (by rw [← not_and_or]; exact htiles), if_neg fun h => htiles h.2]

theorem refDmaRemoteTransferMemcpy_eq (ready : HalReady st) {r s : Region} {src dst size : Addr}
    (hsrc : r.Contains src size) (hdst : s.Contains dst size) :
    refDmaRemoteTransferMemcpy st.toHalState src dst size =
      if RemoteRegions src dst ∧ size.toNat % 65536 ≠ 0 then
        some ⟨addrToPtr platformAfterSetup dst, addrToPtr platformAfterSetup src,
          size.toNat % 65536⟩
      else none := by
  have hset : ¬ (!st.platformSet) = true := by simp [ready.platform_set]
  rw [refDmaRemoteTransferMemcpy, if_neg hset, hsrc.validateAddress_eq, hdst.validateAddress_eq,
    if_neg (by decide)]
  by_cases remote : RemoteRegions src dst
  · rw [if_neg (not_not.mpr remote), ready.platform, nocSendPacketMemcpy,
      remote.packetPointers_eq hsrc hdst]
    by_cases hempty : size.toNat % 65536 = 0
    · rw [if_pos hempty, if_neg fun h => h.2 hempty]
      rfl
    · rw [if_neg hempty, if_pos ⟨remote, hempty⟩, Option.map_some, remotePacket_length]
  · rw [if_pos remote, if_neg fun h => remote h.1]

theorem dmemCopyMemcpy_eq {r s : Region} {src dst size : Addr} (hsrc : r.Contains src size)
    (hdst : s.Contains dst size) : dmemCopyMemcpy platformAfterSetup src dst size =
      if getAddressRegion src = .dmem512 ∧ getAddressRegion dst = .dmem512 then
        some ⟨addrToPtr platformAfterSetup dst, addrToPtr platformAfterSetup src, size.toNat⟩
      else none := by
  rw [dmemCopyMemcpy, hsrc.validateAddress_eq, hdst.validateAddress_eq]
  simp only [if_neg (not_or.mpr ⟨hsrc.ptr_ne_null, hdst.ptr_ne_null⟩)]
  by_cases modules : getAddressRegion src = .dmem512 ∧ getAddressRegion dst = .dmem512
  · rw [if_pos modules, if_neg (not_or.mpr ⟨not_not.mpr modules.1, not_not.mpr modules.2⟩)]
    rfl
  · rw [if_neg modules, if_pos (not_and_or.mp modules)]

/-- The driver makes the checks of the HAL once more. -/
theorem refDmemToDmemTransferMemcpy_eq (ready : HalReady st) {r s : Region}
    {src dst size : Addr} (hsrc : r.Contains src size) (hdst : s.Contains dst size) :
    refDmemToDmemTransferMemcpy st.toHalState src dst size =
      if getAddressRegion src = .dmem512 ∧ getAddressRegion dst = .dmem512 then
        some ⟨addrToPtr platformAfterSetup dst, addrToPtr platformAfterSetup src, size.toNat⟩
      else none := by
  have hset : ¬ (!st.platformSet) = true := by simp [ready.platform_set]
  rw [refDmemToDmemTransferMemcpy, if_neg hset, hsrc.validateAddress_eq, hdst.validateAddress_eq,
    if_neg (by decide), ready.platform, dmemCopyMemcpy_eq hsrc hdst]
  by_cases modules : getAddressRegion src = .dmem512 ∧ getAddressRegion dst = .dmem512
  · rw [if_pos modules, if_neg (not_or.mpr ⟨not_not.mpr modules.1, not_not.mpr modules.2⟩)]
  · rw [if_neg modules, ite_self]

theorem dmaMemcpyAddrMemcpy_eq {r s : Region} {src dst size : Addr} (hsrc : r.Contains src size)
    (hdst : s.Contains dst size) : dmaMemcpyAddrMemcpy platformAfterSetup dst src size =
      some ⟨addrToPtr platformAfterSetup dst, addrToPtr platformAfterSetup src, size.toNat⟩ :=
  if_pos ⟨hdst.ptr_ne_null, hsrc.ptr_ne_null, hsrc.validateAddress_eq, hdst.validateAddress_eq⟩

/-- On ranges inside region instances a call that is accepted hands the translated addresses
to `memcpy`, and its number of bytes unless none is left. -/
theorem memcpy_eq (ready : HalReady st) (inside : c.InRegions) : c.memcpy st =
    if c.Accepted ∧ c.count ≠ 0 then
      some ⟨addrToPtr platformAfterSetup c.dstAddr, addrToPtr platformAfterSetup c.srcAddr,
        c.count⟩
    else none := by
  obtain ⟨function, srcAddr, dstAddr, size⟩ := c
  by_cases hsize : size = 0
  · subst hsize
    have hcount : (⟨function, srcAddr, dstAddr, 0⟩ : MemcpyCall).count = 0 := by
      cases function <;> rfl
    rw [memcpy_of_size rfl, if_neg fun h => h.2 hcount]
  obtain ⟨r, hsrc⟩ := inside.src.contains hsize
  obtain ⟨s, hdst⟩ := inside.dst.contains hsize
  have hcount : size.toNat ≠ 0 := hsrc.toNat_ne_zero
  cases function with
  | dmaLocalTransfer tileId =>
    refine (dmaLocalTransferMemcpy_eq ready hsrc hdst tileId).trans ?_
    exact if_congr (and_iff_left hcount).symm rfl rfl
  | dmaRemoteTransfer => exact refDmaRemoteTransferMemcpy_eq ready hsrc hdst
  | dmemToDmemTransfer =>
    refine (refDmemToDmemTransferMemcpy_eq ready hsrc hdst).trans ?_
    exact if_congr (and_iff_left hcount).symm rfl rfl
  | dmemCopy =>
    have hcopy := (congrArg (dmemCopyMemcpy · srcAddr dstAddr size) ready.platform).trans
      (dmemCopyMemcpy_eq hsrc hdst)
    exact hcopy.trans (if_congr (and_iff_left hcount).symm rfl rfl)
  | dmaMemcpyAddr =>
    have hcopy := (congrArg (dmaMemcpyAddrMemcpy · dstAddr srcAddr size) ready.platform).trans
      (dmaMemcpyAddrMemcpy_eq hsrc hdst)
    exact hcopy.trans (if_pos ⟨trivial, hcount⟩).symm

theorem count_le (c : MemcpyCall) : c.count ≤ c.size.toNat := by
  unfold count
  split
  · exact Nat.mod_le _ _
  · exact le_rfl

/-- A copy of some bytes has both its ranges in region instances. -/
theorem InRegions.contains_of_count (inside : c.InRegions) (count : c.count ≠ 0) :
    ∃ r s : Region, r.Contains c.srcAddr c.size ∧ s.Contains c.dstAddr c.size := by
  have hle := c.count_le
  obtain ⟨r, hsrc⟩ := inside.src.contains fun hzero => by
    rw [hzero] at hle
    exact count (Nat.le_zero.mp hle)
  obtain ⟨s, hdst⟩ := inside.dst.contains hsrc.1
  exact ⟨r, s, hsrc, hdst⟩

/-- An accepted call on ranges that meet hands all of its bytes over: it is no remote one. -/
theorem count_of_meet (inside : c.InRegions) (accepted : c.Accepted)
    (meet : RangesMeet c.srcAddr c.size c.dstAddr c.size) : c.count = c.size.toNat := by
  obtain ⟨function, srcAddr, dstAddr, size⟩ := c
  cases function with
  | dmaRemoteTransfer =>
    have hsize : size ≠ 0 := meet.size_ne_zero
    obtain ⟨r, hsrc⟩ := inside.src.contains hsize
    obtain ⟨s, hdst⟩ := inside.dst.contains hsize
    exact absurd meet (RemoteRegions.apart accepted hsrc hdst)
  | _ => rfl

/-- On ranges inside region instances `memcpy` gets ranges that are apart exactly when the
call is rejected or its own ranges have no address in common. -/
theorem memcpyApart_iff (ready : HalReady st) (inside : c.InRegions) : c.MemcpyApart st ↔
    (c.Accepted → ¬ RangesMeet c.srcAddr c.size c.dstAddr c.size) := by
  unfold MemcpyApart
  rw [memcpy_eq ready inside]
  constructor
  · intro apart accepted meet
    have hsize : c.size ≠ 0 := meet.size_ne_zero
    obtain ⟨r, hsrc⟩ := inside.src.contains hsize
    obtain ⟨s, hdst⟩ := inside.dst.contains hsize
    have hcount := count_of_meet inside accepted meet
    refine apart _ (if_pos ⟨accepted, by rw [hcount]; exact hsrc.toNat_ne_zero⟩) ?_
    rw [hcount]
    exact (hsrc.overlaps_iff hdst).mpr meet
  · intro apart copy hcopy
    split_ifs at hcopy with hreaches
    obtain rfl := Option.some.inj hcopy
    obtain ⟨r, s, hsrc, hdst⟩ := inside.contains_of_count hreaches.2
    exact hsrc.not_overlaps hdst c.count_le (apart hreaches.1)

/-! ### Undefined calls -/

/-- The copy a call makes lies inside the buffers, so only overlapping ranges make it
undefined. -/
theorem memcpyOf_eq_none_iff (ready : HalReady st) (inside : c.InRegions) {copy : Copy Buffer}
    (reached : c.memcpy st = some copy) (m : Mem) :
    memcpyOf m copy = none ↔ copy.dst.Overlaps copy.src copy.length := by
  rw [memcpy_eq ready inside] at reached
  split_ifs at reached with hreaches
  obtain rfl := Option.some.inj reached
  obtain ⟨r, s, hsrc, hdst⟩ := inside.contains_of_count hreaches.2
  rw [memcpyOf, Memory.memcpy, hsrc.memmove_copy hdst m c.count_le]
  simp

/-- What the two driver functions are undefined on. -/
theorem exists_memcpyOf_eq_none_iff (ready : HalReady st) (inside : c.InRegions) (m : Mem) :
    (∃ copy, c.memcpy st = some copy ∧ memcpyOf m copy = none) ↔ ¬ c.MemcpyApart st := by
  unfold MemcpyApart
  push Not
  exact exists_congr fun copy =>
    and_congr_right fun reached => memcpyOf_eq_none_iff ready inside reached m

theorem exec_dmaLocalTransfer_eq_none_iff (ready : HalReady st) {tileId : ℤ}
    (inside : c.InRegions) (hfunction : c.function = .dmaLocalTransfer tileId) :
    c.exec st = none ↔
      c.Accepted ∧ RangesMeet c.srcAddr c.size c.dstAddr c.size := by
  obtain ⟨function, srcAddr, dstAddr, size⟩ := c
  dsimp only at hfunction
  subst hfunction
  have hids : ∀ {r : Region} {a : Addr}, r.Covers a → getTileIdFromAddress a = r.tileId :=
    fun covers => getTileIdFromAddress_of_covers covers
  simp only [exec, Option.map_eq_none_iff]
  constructor
  · intro hnone
    rcases dmaLocalTransfer_cases st tileId inside.src inside.dst with hrejected | hranges
    · rw [refDmaLocalTransfer_rejected ready hrejected] at hnone
      simp at hnone
    · obtain ⟨tile, rfl, ranges⟩ := hranges
      obtain ⟨r, hr, hsrc⟩ := ranges.src
      obtain ⟨s, hs, hdst⟩ := ranges.dst
      refine ⟨⟨by omega, (hids hsrc.covers).trans hr, (hids hdst.covers).trans hs⟩, ?_⟩
      by_contra apart
      rw [refDmaLocalTransfer_eq ready ranges apart] at hnone
      simp at hnone
  · rintro ⟨⟨hnonneg, hsrcTile, hdstTile⟩, meet⟩
    obtain ⟨r, hsrc⟩ := inside.src.contains meet.size_ne_zero
    obtain ⟨s, hdst⟩ := inside.dst.contains meet.size_ne_zero
    have hr : r.tileId = tileId := (hids hsrc.covers).symm.trans hsrcTile
    obtain ⟨tile, htile⟩ := Region.exists_tile (hr.symm ▸ hnonneg)
    obtain rfl : tileId = tile := hr.symm.trans htile
    have ranges : LocalRanges tile srcAddr dstAddr size :=
      ⟨⟨r, hr, hsrc⟩, ⟨s, (hids hdst.covers).symm.trans hdstTile, hdst⟩⟩
    exact refDmaLocalTransfer_eq_none ready ranges meet

theorem exec_transfer_eq_none_iff (ready : HalReady st) {t : Transfer} (inside : t.InRegions) :
    t.call.exec st = none ↔ t.CopiesOntoItself := by
  refine ⟨fun hnone => ?_, t.exec_eq_none ready inside⟩
  by_contra apart
  obtain ⟨noc, -, hexec⟩ := t.exec_eq ready inside apart
  rw [hexec] at hnone
  simp at hnone

/-- A call on ranges inside region instances is undefined exactly when its `memcpy` gets
ranges that overlap. -/
theorem exec_eq_none_iff_not_apart (ready : HalReady st) (inside : c.InRegions) :
    c.exec st = none ↔ ¬ c.MemcpyApart st := by
  have happart := not_congr (memcpyApart_iff ready inside)
  rw [Classical.not_imp, not_not] at happart
  cases hfunction : c.function with
  | dmaLocalTransfer tileId =>
    rw [happart]
    exact exec_dmaLocalTransfer_eq_none_iff ready inside hfunction
  | dmaRemoteTransfer =>
    have hexec := exec_transfer_eq_none_iff ready
      (t := ⟨.dmaRemoteTransfer, c.srcAddr, c.dstAddr, c.size⟩) ⟨inside.src, inside.dst⟩
    simp only [exec, hfunction, Option.map_eq_none_iff]
    rw [happart]
    refine hexec.trans (iff_of_false (fun honto => by simp [Transfer.CopiesOntoItself] at honto) ?_)
    rintro ⟨accepted, meet⟩
    obtain ⟨r, hsrc⟩ := inside.src.contains meet.size_ne_zero
    obtain ⟨s, hdst⟩ := inside.dst.contains meet.size_ne_zero
    rw [Accepted, hfunction] at accepted
    exact RemoteRegions.apart accepted hsrc hdst meet
  | dmemToDmemTransfer =>
    have hexec := exec_transfer_eq_none_iff ready
      (t := ⟨.dmemToDmemTransfer, c.srcAddr, c.dstAddr, c.size⟩) ⟨inside.src, inside.dst⟩
    simp only [exec, hfunction, Option.map_eq_none_iff]
    rw [happart, Accepted, hfunction]
    refine hexec.trans ⟨fun honto => ⟨honto.2.1.2, honto.2.2⟩, fun h => ?_⟩
    exact ⟨rfl, ⟨h.2.size_ne_zero, h.1⟩, h.2⟩
  | dmemCopy =>
    rw [← exists_memcpyOf_eq_none_iff ready inside st.mem]
    simp only [exec, memcpy, hfunction, Option.map_eq_none_iff, dmemCopy_memcpy]
    cases dmemCopyMemcpy st.platform c.srcAddr c.dstAddr c.size <;> simp
  | dmaMemcpyAddr =>
    rw [← exists_memcpyOf_eq_none_iff ready inside st.mem]
    simp only [exec, memcpy, hfunction, Option.map_eq_none_iff, dmaMemcpyAddr_memcpy]
    cases dmaMemcpyAddrMemcpy st.platform c.dstAddr c.srcAddr c.size <;> simp

end MemcpyCall

open MemcpyCall

/-- 16 bytes of the first module, copied 16 bytes further. -/
theorem memcpyApart_iff_dmem0 : ∃ st, HalReady st ∧
    (MemcpyApart ⟨.dmemCopy, 0x10000000, 0x10000010, 16⟩ st ↔
      (Accepted ⟨.dmemCopy, 0x10000000, 0x10000010, 16⟩ →
        ¬ RangesMeet 0x10000000 16 0x10000010 16)) := by
  have ready := halReady_afterSetup platformSetup_eq
  have inside : InRegions ⟨.dmemCopy, 0x10000000, 0x10000010, 16⟩ :=
    ⟨⟨.dmem 0, by decide⟩, ⟨.dmem 0, by decide⟩⟩
  exact ⟨_, ready, memcpyApart_iff ready inside⟩

/-- 16 bytes of the first module, copied 8 bytes further by the driver. -/
theorem not_memcpyApart_dmem0 : ¬ ∀ st, HalReady st → ∀ c : MemcpyCall, c.InRegions →
    c.MemcpyApart st := by
  intro apart
  have ready := halReady_afterSetup platformSetup_eq
  have inside : InRegions ⟨.dmemCopy, 0x10000000, 0x10000008, 16⟩ :=
    ⟨⟨.dmem 0, by decide⟩, ⟨.dmem 0, by decide⟩⟩
  have hsrc : Region.Contains (.dmem 0) 0x10000000 16 := ⟨by decide, by decide⟩
  have hdst : Region.Contains (.dmem 0) 0x10000008 16 := ⟨by decide, by decide⟩
  have hmodules : getAddressRegion 0x10000000 = .dmem512 ∧
      getAddressRegion 0x10000008 = .dmem512 := by decide +kernel
  have hcopy := (dmemCopyMemcpy_eq hsrc hdst).trans (if_pos hmodules)
  exact apart _ ready _ inside _ hcopy ((hsrc.overlaps_iff hdst).mpr (by decide))

end MeshNoc
