import MeshNoc.HalTests.HalTransfer
import MeshNoc.HalTests.FlatMemory
import MeshNoc.Lib.Copies

/-!
# What transfers between region instances do

The three transfers of `g_hal` that make no use of a DMA engine, on ranges inside single
region instances: each is one copy of the bytes, or rejected, and its answer depends on the
arguments only. A transfer between DMEM modules is undefined when its ranges overlap.

## Main results

* `Transfer.exec_eq` — a transfer is its copy and its answer
* `Transfer.exec_eq_none` — the transfers that are undefined
-/

namespace MeshNoc

open Lib

/-- The `size` addresses from `addr` on lie in one region instance. -/
def InRegion (addr size : Addr) : Prop :=
  ∃ r : Region, regionPlacement.CoversRange r addr.toNat size.toNat

/-- Two ranges have an address in common. -/
def RangesMeet (a n b k : Addr) : Prop :=
  max a.toNat b.toNat < min (a.toNat + n.toNat) (b.toNat + k.toNat)

instance (a n b k : Addr) : Decidable (RangesMeet a n b k) := inferInstanceAs (Decidable (_ < _))

theorem RangesMeet.symm {a n b k : Addr} (meet : RangesMeet a n b k) : RangesMeet b k a n := by
  unfold RangesMeet at *
  omega

/-- Empty ranges do not meet. -/
theorem RangesMeet.size_ne_zero {a b size : Addr} (meet : RangesMeet a size b size) :
    size ≠ 0 := by
  rintro rfl
  have hzero : (0 : Addr).toNat = 0 := rfl
  unfold RangesMeet at meet
  omega

theorem InRegion.contains {addr size : Addr} (inside : InRegion addr size)
    (nonempty : size ≠ 0) : ∃ r : Region, r.Contains addr size := by
  obtain ⟨r, h⟩ := inside
  exact ⟨r, nonempty, h⟩

theorem validateAddress_zero (addr : Addr) : validateAddress addr 0 = false := if_pos rfl

section Contains

variable {r s : Region} {src dst size : Addr}

theorem Region.Contains.ptr_ne_null (h : r.Contains src size) :
    addrToPtr platformAfterSetup src ≠ .null := by
  rw [h.addrToPtr_eq]
  exact regionPlacement.ptrAt_ne_null r _

theorem Region.Contains.toNat_ne_zero (h : r.Contains src size) : size.toNat ≠ 0 := by
  have := h.1
  bv_omega

/-- Part of a range is accessible behind the translated address. -/
theorem Region.Contains.within_addrToPtr (h : r.Contains src size) {n : ℕ}
    (le : n ≤ size.toNat) : (addrToPtr platformAfterSetup src).Within Buffer.size n := by
  rw [h.addrToPtr_eq]
  exact h.within.mono le

/-- A memmove between two ranges is a copy. -/
theorem Region.Contains.memmove_copy (hsrc : r.Contains src size) (hdst : s.Contains dst size)
    (m : Mem) {n : ℕ} (le : n ≤ size.toNat) :
    m.memmove Buffer.size (addrToPtr platformAfterSetup dst) (addrToPtr platformAfterSetup src)
      n = some (Copy.apply m
        ⟨addrToPtr platformAfterSetup dst, addrToPtr platformAfterSetup src, n⟩) :=
  if_pos ⟨hdst.within_addrToPtr le, hsrc.within_addrToPtr le⟩

/-- The ranges overlap where they are stored exactly when they have an address in common. -/
theorem Region.Contains.overlaps_iff (hsrc : r.Contains src size) (hdst : s.Contains dst size) :
    (addrToPtr platformAfterSetup dst).Overlaps (addrToPtr platformAfterSetup src) size.toNat ↔
      RangesMeet src size dst size := by
  rw [hdst.addrToPtr_eq, hsrc.addrToPtr_eq]
  obtain ⟨hs₁, hs₂⟩ := hsrc.2
  obtain ⟨hd₁, hd₂⟩ := hdst.2
  constructor
  · intro overlaps
    by_contra apart
    unfold RangesMeet at apart
    exact hdst.2.not_overlaps hsrc.2 (by omega) overlaps
  · intro meet
    unfold RangesMeet at meet
    -- the larger of the two addresses lies in both ranges, so the instances are one
    have hsame : r = s := regionPlacement.windows_disjoint r s (max src.toNat dst.toNat)
      (by omega) (by omega) (by omega) (by omega)
    subst hsame
    exact ⟨rfl, by simp only [Placement.ptrAt]; omega, by simp only [Placement.ptrAt]; omega⟩

/-- Nor do parts of ranges that do not meet. -/
theorem Region.Contains.not_overlaps (hsrc : r.Contains src size) (hdst : s.Contains dst size)
    {n : ℕ} (le : n ≤ size.toNat) (apart : ¬ RangesMeet src size dst size) :
    ¬ (addrToPtr platformAfterSetup dst).Overlaps (addrToPtr platformAfterSetup src) n := by
  rintro ⟨hblock, hlow, hhigh⟩
  exact apart ((hsrc.overlaps_iff hdst).mp ⟨hblock, by omega, by omega⟩)

/-- A memcpy between ranges that do not meet is a copy. -/
theorem Region.Contains.memcpy_copy (hsrc : r.Contains src size) (hdst : s.Contains dst size)
    (m : Mem) {n : ℕ} (le : n ≤ size.toNat) (apart : ¬ RangesMeet src size dst size) :
    m.memcpy Buffer.size (addrToPtr platformAfterSetup dst) (addrToPtr platformAfterSetup src)
      n = some (Copy.apply m
        ⟨addrToPtr platformAfterSetup dst, addrToPtr platformAfterSetup src, n⟩) := by
  rw [Memory.memcpy, if_neg (hsrc.not_overlaps hdst le apart), hsrc.memmove_copy hdst m le]

/-- Between ranges that meet it is undefined. -/
theorem Region.Contains.memcpy_eq_none (hsrc : r.Contains src size)
    (hdst : s.Contains dst size) (m : Mem) (meet : RangesMeet src size dst size) :
    m.memcpy Buffer.size (addrToPtr platformAfterSetup dst) (addrToPtr platformAfterSetup src)
      size.toNat = none := by
  rw [Memory.memcpy, if_pos ((hsrc.overlaps_iff hdst).mpr meet)]

end Contains

/-! ### Packets -/

/-- The regions of a remote transfer. -/
def RemoteRegions (srcAddr dstAddr : Addr) : Prop :=
  getAddressRegion srcAddr = .tileDlm1_512 ∧ getAddressRegion dstAddr = .dmem512 ∨
    getAddressRegion srcAddr = .dmem512 ∧ getAddressRegion dstAddr = .tileDlm1_512

instance (srcAddr dstAddr : Addr) : Decidable (RemoteRegions srcAddr dstAddr) :=
  inferInstanceAs (Decidable (_ ∨ _))

/-- The ranges of a remote transfer never meet: they are of different kinds. -/
theorem RemoteRegions.apart {r s : Region} {src dst size : Addr}
    (remote : RemoteRegions src dst) (hsrc : r.Contains src size) (hdst : s.Contains dst size) :
    ¬ RangesMeet src size dst size := by
  intro meet
  unfold RangesMeet at meet
  obtain ⟨hs₁, hs₂⟩ := hsrc.2
  obtain ⟨hd₁, hd₂⟩ := hdst.2
  have hsame : r = s := regionPlacement.windows_disjoint r s (max src.toNat dst.toNat)
    (by omega) (by omega) (by omega) (by omega)
  have hkinds : getAddressRegion src = getAddressRegion dst := by
    rw [getAddressRegion_of_covers hsrc.covers, getAddressRegion_of_covers hdst.covers, hsame]
  obtain ⟨h, h'⟩ | ⟨h, h'⟩ := remote <;> rw [h, h'] at hkinds <;> simp at hkinds

/-- Address `0` is in no region of a remote transfer. -/
theorem ne_zero_of_region {a : Addr}
    (region : getAddressRegion a = .tileDlm1_512 ∨ getAddressRegion a = .dmem512) : a ≠ 0 := by
  rintro rfl
  have hzero : getAddressRegion 0 = .tileDlm64 := by decide +kernel
  rw [hzero] at region
  simp at region

theorem remotePacket_length (src dst size : Addr) :
    (remotePacket src dst size).length.toNat = size.toNat % 65536 :=
  BitVec.toNat_setWidth 16 size

/-- The copy of the packet of a remote transfer, unless no byte is left of its length. -/
theorem RemoteRegions.packetPointers_eq {r s : Region} {src dst size : Addr}
    (remote : RemoteRegions src dst) (hsrc : r.Contains src size) (hdst : s.Contains dst size) :
    packetPointers platformAfterSetup (remotePacket src dst size) =
      if size.toNat % 65536 = 0 then none
      else some (addrToPtr platformAfterSetup src, addrToPtr platformAfterSetup dst) := by
  have hzero : (0 : BitVec 16).toNat = 0 := rfl
  have hnonzero : src ≠ 0 ∧ dst ≠ 0 := by
    obtain ⟨h, h'⟩ | ⟨h, h'⟩ := remote
    · exact ⟨ne_zero_of_region (.inl h), ne_zero_of_region (.inr h')⟩
    · exact ⟨ne_zero_of_region (.inr h), ne_zero_of_region (.inl h')⟩
  have hlength : 0 < (remotePacket src dst size).length ↔ size.toNat % 65536 ≠ 0 := by
    rw [BitVec.lt_def, remotePacket_length, hzero]
    omega
  rw [packetPointers, if_pos ⟨rfl, hnonzero⟩]
  by_cases hempty : size.toNat % 65536 = 0
  · rw [if_pos hempty]
    exact if_neg fun h => hlength.mp h.2.2 hempty
  · rw [if_neg hempty]
    exact if_pos ⟨hsrc.ptr_ne_null, hdst.ptr_ne_null, hlength.mpr hempty⟩

/-- The packet of a remote transfer: as many bytes are copied as its 16-bit length says. -/
theorem nocSendPacket_eq {r s : Region} {src dst size : Addr} (remote : RemoteRegions src dst)
    (hsrc : r.Contains src size) (hdst : s.Contains dst size) (m : Mem) {noc : NocArbitration}
    (free : ∀ l, noc.locks l = false) :
    ∃ noc' : NocArbitration, (∀ l, noc'.locks l = false) ∧
      nocSendPacket platformAfterSetup m noc (remotePacket src dst size) =
        some (0, Copy.apply m ⟨addrToPtr platformAfterSetup dst,
          addrToPtr platformAfterSetup src, size.toNat % 65536⟩, noc') := by
  obtain ⟨noc', hfree, hsend⟩ :=
    nocSendPacket_of_free platformAfterSetup m free (remotePacket src dst size)
  refine ⟨noc', hfree, hsend.trans ?_⟩
  rw [packetCopy, remote.packetPointers_eq hsrc hdst]
  by_cases hempty : size.toNat % 65536 = 0
  · rw [if_pos hempty, hempty, Copy.apply, Memory.put_zero]
    rfl
  · have hcopy := hsrc.memcpy_copy hdst m (Nat.mod_le _ 65536) (remote.apart hsrc hdst)
    rw [if_neg hempty]
    simp only [remotePacket_length, hcopy, Option.map_some]

/-! ### Transfers -/

/-- The transfers of `g_hal` that use no DMA engine. -/
inductive TransferKind
  | cpuLocalMove
  | dmaRemoteTransfer
  | dmemToDmemTransfer
  deriving DecidableEq, Repr

/-- A transfer with its arguments. -/
structure Transfer where
  kind : TransferKind
  srcAddr : Addr
  dstAddr : Addr
  size : Addr
  deriving DecidableEq

/-- The state in which a call returns that has left `mem` as memory. -/
def HalState.returned (st : HalState) (mem : Mem) : HalState :=
  { st with mem := mem }.unlock

namespace Transfer

variable (t : Transfer)

/-- The call of `g_hal`. -/
def call : HalCall :=
  match t.kind with
  | .cpuLocalMove => .cpuLocalMove t.srcAddr t.dstAddr t.size
  | .dmaRemoteTransfer => .dmaRemoteTransfer t.srcAddr t.dstAddr t.size
  | .dmemToDmemTransfer => .dmemToDmemTransfer t.srcAddr t.dstAddr t.size

/-- Both ranges lie inside single region instances. -/
structure InRegions : Prop where
  src : InRegion t.srcAddr t.size
  dst : InRegion t.dstAddr t.size

/-- The regions are those the transfer is for. -/
def RegionsOk : Prop :=
  match t.kind with
  | .cpuLocalMove => True
  | .dmaRemoteTransfer => RemoteRegions t.srcAddr t.dstAddr
  | .dmemToDmemTransfer =>
    getAddressRegion t.srcAddr = .dmem512 ∧ getAddressRegion t.dstAddr = .dmem512

instance : Decidable t.RegionsOk := by
  unfold RegionsOk
  cases t.kind <;> infer_instance

/-- The transfer is accepted, its ranges being inside region instances. -/
def Accepted : Prop := t.size ≠ 0 ∧ t.RegionsOk

instance : Decidable t.Accepted := inferInstanceAs (Decidable (_ ∧ _))

/-- What the transfer returns. -/
def answer : HalAnswer :=
  if t.Accepted then
    match t.kind with
    | .dmaRemoteTransfer => { result := t.size.toNat }
    | _ => { result := 0 }
  else { result := -1 }

/-- The number of bytes it copies. -/
def length : ℕ :=
  if t.Accepted then
    match t.kind with
    -- the length of a packet has 16 bits
    | .dmaRemoteTransfer => t.size.toNat % 65536
    | _ => t.size.toNat
  else 0

/-- The copy it makes. -/
def copy : Copy Buffer :=
  { dst := addrToPtr platformAfterSetup t.dstAddr
    src := addrToPtr platformAfterSetup t.srcAddr
    length := t.length }

/-- A copy between DMEM modules whose own ranges meet: its `memcpy` is undefined. -/
def CopiesOntoItself : Prop :=
  t.kind = .dmemToDmemTransfer ∧ t.Accepted ∧ RangesMeet t.srcAddr t.size t.dstAddr t.size

instance : Decidable t.CopiesOntoItself := inferInstanceAs (Decidable (_ ∧ _ ∧ _))

variable {t} {st : HalSystem}

theorem answer_of_not_accepted (rejected : ¬ t.Accepted) : t.answer = { result := -1 } :=
  if_neg rejected

/-- A rejected transfer copies nothing. -/
theorem apply_of_not_accepted (rejected : ¬ t.Accepted) (m : Mem) : Copy.apply m t.copy = m := by
  have hlength : t.copy.length = 0 := if_neg rejected
  rw [Copy.apply, hlength, Memory.put_zero]

/-- A copy of memory that leaves the arbitration as it is. -/
theorem onHal_eq {f : HalState → Option (HalAnswer × HalState)} {a : HalAnswer} {mem : Mem}
    (ready : HalReady st)
    (ran : f st.toHalState = some (a, st.toHalState.returned mem)) :
    ∃ noc : NocArbitration, (∀ l, noc.locks l = false) ∧
      st.onHal f = some (a, ⟨st.toHalState.returned mem, noc⟩) := by
  refine ⟨st.noc, ready.arbitration_free, ?_⟩
  rw [HalSystem.onHal, ran]
  rfl

theorem lock_eq (ready : HalReady st) :
    st.lock = some { st.toHalState with halMutex.held := true } :=
  HalState.lock_of_unlocked ready.unlocked

theorem addrToPtr_eq (ready : HalReady st) (a : Addr) :
    addrToPtr st.platform a = addrToPtr platformAfterSetup a := by
  rw [ready.platform]

theorem length_le (t : Transfer) : t.length ≤ t.size.toNat := by
  unfold length
  split_ifs
  · cases t.kind
    · exact le_rfl
    · exact Nat.mod_le _ _
    · exact le_rfl
  · exact Nat.zero_le _

theorem not_accepted_of_size (empty : t.size = 0) : ¬ t.Accepted := fun h => h.1 empty

/-- A call that is rejected has made no copy. -/
theorem returned_of_not_accepted (st : HalSystem) (rejected : ¬ t.Accepted) :
    (t.answer, st.toHalState.returned (Copy.apply st.mem t.copy)) =
      ({ result := -1 }, st.toHalState.unlock) := by
  rw [answer_of_not_accepted rejected, apply_of_not_accepted rejected]
  rfl

/-- `ref_cpu_local_move` on ranges of region instances. -/
theorem refCpuLocalMove_eq (ready : HalReady st) (kind : t.kind = .cpuLocalMove)
    (inside : t.InRegions) :
    refCpuLocalMove t.srcAddr t.dstAddr t.size st.toHalState =
      some (t.answer, st.toHalState.returned (Copy.apply st.mem t.copy)) := by
  simp only [refCpuLocalMove, lock_eq ready, Option.bind_eq_bind, Option.bind_some,
    addrToPtr_eq ready]
  by_cases hsize : t.size = 0
  -- an empty range is never valid
  · rw [returned_of_not_accepted st (not_accepted_of_size hsize), hsize, validateAddress_zero,
      Bool.not_false, Bool.true_or, if_pos rfl, ite_self]
    rfl
  · obtain ⟨r, hsrc⟩ := inside.src.contains hsize
    obtain ⟨s, hdst⟩ := inside.dst.contains hsize
    have haccepted : t.Accepted := ⟨hsize, by rw [RegionsOk, kind]; trivial⟩
    have hlength : t.length = t.size.toNat := by rw [length, if_pos haccepted, kind]
    have hanswer : t.answer = { result := 0 } := by rw [answer, if_pos haccepted, kind]
    rw [hsrc.validateAddress_eq, hdst.validateAddress_eq,
      if_neg (not_or.mpr ⟨hsrc.ptr_ne_null, hdst.ptr_ne_null⟩), if_neg (by decide),
      hsrc.memmove_copy hdst _ le_rfl, hanswer, copy, hlength]
    rfl

/-- `ref_dma_remote_transfer` on ranges of region instances. -/
theorem refDmaRemoteTransfer_eq (ready : HalReady st) (kind : t.kind = .dmaRemoteTransfer)
    (inside : t.InRegions) : ∃ noc : NocArbitration, (∀ l, noc.locks l = false) ∧
      refDmaRemoteTransfer t.srcAddr t.dstAddr t.size st = some (t.answer,
        ⟨st.toHalState.returned (Copy.apply st.mem t.copy), noc⟩) := by
  have hset : ¬ (!st.platformSet) = true := by simp [ready.platform_set]
  simp only [refDmaRemoteTransfer, lock_eq ready, if_neg hset, Option.bind_eq_bind,
    Option.bind_some]
  by_cases hsize : t.size = 0
  · obtain ⟨hanswer, hreturned⟩ := Prod.mk.inj
      (returned_of_not_accepted st (not_accepted_of_size hsize))
    refine ⟨st.noc, ready.arbitration_free, ?_⟩
    rw [hanswer, hreturned, hsize, validateAddress_zero, Bool.not_false, Bool.true_or,
      if_pos rfl]
    rfl
  obtain ⟨r, hsrc⟩ := inside.src.contains hsize
  obtain ⟨s, hdst⟩ := inside.dst.contains hsize
  rw [hsrc.validateAddress_eq, hdst.validateAddress_eq, if_neg (by decide)]
  by_cases hregions : RemoteRegions t.srcAddr t.dstAddr
  · have haccepted : t.Accepted := ⟨hsize, by rw [RegionsOk, kind]; exact hregions⟩
    have hlength : t.length = t.size.toNat % 65536 := by rw [length, if_pos haccepted, kind]
    have hanswer : t.answer = { result := t.size.toNat } := by
      rw [answer, if_pos haccepted, kind]
    obtain ⟨noc, hfree, hsend⟩ :=
      nocSendPacket_eq hregions hsrc hdst st.mem ready.arbitration_free
    have hsent := (congrArg (nocSendPacket · st.mem st.noc _) ready.platform).trans hsend
    refine ⟨noc, hfree, ?_⟩
    rw [if_neg (show ¬ ¬ (_ ∨ _) from not_not.mpr hregions), hsent, hanswer, copy, hlength,
      hsrc.intOfSize_eq]
    rfl
  · have hrejected : ¬ t.Accepted := by
      rintro ⟨-, h⟩
      rw [RegionsOk, kind] at h
      exact hregions h
    obtain ⟨hanswer, hreturned⟩ := Prod.mk.inj (returned_of_not_accepted st hrejected)
    refine ⟨st.noc, ready.arbitration_free, ?_⟩
    rw [if_pos (show ¬ (_ ∨ _) from hregions), hanswer, hreturned]
    rfl

/-- `dmem_copy` makes all checks of `ref_dmem_to_dmem_transfer` once more. -/
theorem dmemCopy_eq {r s : Region} {src dst size : Addr} (hsrc : r.Contains src size)
    (hdst : s.Contains dst size)
    (modules : getAddressRegion src = .dmem512 ∧ getAddressRegion dst = .dmem512) (m : Mem) :
    dmemCopy platformAfterSetup m src dst size =
      if RangesMeet src size dst size then none
      else some (0, Copy.apply m
        ⟨addrToPtr platformAfterSetup dst, addrToPtr platformAfterSetup src, size.toNat⟩) := by
  rw [dmemCopy, if_neg (not_or.mpr ⟨not_not.mpr modules.1, not_not.mpr modules.2⟩),
    hsrc.validateAddress_eq, hdst.validateAddress_eq, if_neg (by decide)]
  simp only [if_neg (not_or.mpr ⟨hsrc.ptr_ne_null, hdst.ptr_ne_null⟩)]
  by_cases meet : RangesMeet src size dst size
  · rw [if_pos meet, hsrc.memcpy_eq_none hdst m meet]
    rfl
  · rw [if_neg meet, hsrc.memcpy_copy hdst m le_rfl meet]
    rfl

/-- `ref_dmem_to_dmem_transfer` on ranges of region instances. -/
theorem refDmemToDmemTransfer_eq (ready : HalReady st) (kind : t.kind = .dmemToDmemTransfer)
    (inside : t.InRegions) :
    refDmemToDmemTransfer t.srcAddr t.dstAddr t.size st.toHalState =
      if t.CopiesOntoItself then none
      else some (t.answer, st.toHalState.returned (Copy.apply st.mem t.copy)) := by
  have hset : ¬ (!st.platformSet) = true := by simp [ready.platform_set]
  have hrejected : ¬ t.Accepted → ¬ t.CopiesOntoItself := fun h honto => h honto.2.1
  simp only [refDmemToDmemTransfer, lock_eq ready, if_neg hset, Option.bind_eq_bind,
    Option.bind_some]
  by_cases hsize : t.size = 0
  · have hnot := not_accepted_of_size hsize
    rw [if_neg (hrejected hnot), returned_of_not_accepted st hnot, hsize, validateAddress_zero,
      Bool.not_false, Bool.true_or, if_pos rfl]
    rfl
  obtain ⟨r, hsrc⟩ := inside.src.contains hsize
  obtain ⟨s, hdst⟩ := inside.dst.contains hsize
  rw [hsrc.validateAddress_eq, hdst.validateAddress_eq, if_neg (by decide)]
  by_cases hregions : getAddressRegion t.srcAddr = .dmem512 ∧ getAddressRegion t.dstAddr = .dmem512
  · have haccepted : t.Accepted := ⟨hsize, by rw [RegionsOk, kind]; exact hregions⟩
    have hlength : t.length = t.size.toNat := by rw [length, if_pos haccepted, kind]
    have hanswer : t.answer = { result := 0 } := by rw [answer, if_pos haccepted, kind]
    have hcopy := (congrArg (dmemCopy · st.mem t.srcAddr t.dstAddr t.size)
      ready.platform).trans (dmemCopy_eq hsrc hdst hregions st.mem)
    rw [if_neg (not_or.mpr ⟨not_not.mpr hregions.1, not_not.mpr hregions.2⟩), hcopy]
    by_cases meet : RangesMeet t.srcAddr t.size t.dstAddr t.size
    · rw [if_pos meet, if_pos ⟨kind, haccepted, meet⟩]
      rfl
    · rw [if_neg meet, if_neg fun honto => meet honto.2.2, hanswer, copy, hlength]
      rfl
  · have hnot : ¬ t.Accepted := by
      rintro ⟨-, h⟩
      rw [RegionsOk, kind] at h
      exact hregions h
    rw [if_pos (not_and_or.mp hregions), if_neg (hrejected hnot), returned_of_not_accepted st hnot]
    rfl

/-- A transfer on ranges of region instances is undefined when it copies onto itself, and
else it is its copy and its answer. -/
theorem exec_eq (ready : HalReady st) (inside : t.InRegions) (apart : ¬ t.CopiesOntoItself) :
    ∃ noc : NocArbitration, (∀ l, noc.locks l = false) ∧ t.call.exec st = some (t.answer,
      ⟨st.toHalState.returned (Copy.apply st.mem t.copy), noc⟩) := by
  rw [call]
  cases hkind : t.kind with
  | cpuLocalMove => exact onHal_eq ready (refCpuLocalMove_eq ready hkind inside)
  | dmaRemoteTransfer => exact refDmaRemoteTransfer_eq ready hkind inside
  | dmemToDmemTransfer =>
    have heq := refDmemToDmemTransfer_eq ready hkind inside
    rw [if_neg apart] at heq
    exact onHal_eq ready heq

theorem exec_eq_none (ready : HalReady st) (inside : t.InRegions)
    (onto : t.CopiesOntoItself) : t.call.exec st = none := by
  have heq := refDmemToDmemTransfer_eq ready onto.1 inside
  rw [if_pos onto] at heq
  rw [call, onto.1]
  simp only [HalCall.exec, HalSystem.onHal, heq, Option.bind_eq_bind, Option.bind_none]

/-- The state behind a transfer is ready for the next call. -/
theorem ready_returned (ready : HalReady st) {noc : NocArbitration}
    (free : ∀ l, noc.locks l = false) (mem : Mem) :
    HalReady ⟨st.toHalState.returned mem, noc⟩ :=
  ⟨ready.platform, ready.platform_set, rfl, ready.initialized, ready.inst, ready.configuration,
    free⟩

end Transfer

end MeshNoc
