import MeshNoc.HalTests.EngineIdle
import MeshNoc.HalTests.HalInterface

/-!
# The whole interface on the flat memory

What each request to the HAL returns and does to a memory with a byte at every address,
DMA transfers and direct accesses included. The registers of the engines are bytes of this
memory: a local transfer programs them before the copy and reports behind it. Every request
of the contract is simulated by the flat memory, from any contents of memory.

## Main results

* `HalHolds.exec` — one request from related states
* `hal_interface_refines` — every sequence of requests
-/

namespace MeshNoc

open Lib

/-! ### The flat memory -/

namespace FlatMemory

/-- The `size` bytes from `addr` on. -/
def bytes (mem : FlatMemory) (addr : Addr) (size : ℕ) : List Byte :=
  (List.range size).map fun i => mem (addr + BitVec.ofNat 64 i)

/-- Copy `n` bytes; they are read before any is written. -/
def copied (mem : FlatMemory) (src dst : Addr) (n : ℕ) : FlatMemory :=
  Placement.flatPut BitVec.toNat mem dst.toNat n fun i => mem (src + BitVec.ofNat 64 i)

/-- The first address of the registers of a tile's engine. -/
def engineBase (tile : ℕ) : ℕ := 0x100000 * tile + 0xF000

/-- Address `a` is one of the registers of the engine. -/
def IsRegister (tile : ℕ) (a : Addr) : Prop :=
  engineBase tile ≤ a.toNat ∧ a.toNat < engineBase tile + dmac512RegSize

instance (tile : ℕ) (a : Addr) : Decidable (IsRegister tile a) :=
  inferInstanceAs (Decidable (_ ∧ _))

/-- Change the registers of an engine byte by byte. -/
def onRegisters (mem : FlatMemory) (tile : ℕ) (f : ℕ → Byte → Byte) : FlatMemory := fun a =>
  if IsRegister tile a then f (a.toNat - engineBase tile) (mem a) else mem a

/-- The parameters of a local transfer. -/
def engineInit (src dst size : Addr) : Dmac512Init :=
  { dobBeat := .axiTrans8, dfbBeat := .axiTrans8, dmacMode := .normalMode,
    srcAddr := src, dstAddr := dst, xferCount := size.setWidth 32 }

/-- A local transfer: the engine is programmed, copies and reports. -/
def transferred (mem : FlatMemory) (tile : ℕ) (src dst size : Addr) : FlatMemory :=
  ((mem.onRegisters tile (programmedByte (engineInit src dst size))).copied src dst
    size.toNat).onRegisters tile reportedByte

end FlatMemory

/-! ### The calls on the flat memory -/

namespace HalCall

/-- A local transfer that the driver carries out. -/
def LocalAccepted (tileId : ℤ) (srcAddr dstAddr size : Addr) : Prop :=
  size ≠ 0 ∧ 0 ≤ tileId ∧ getTileIdFromAddress srcAddr = tileId ∧
    getTileIdFromAddress dstAddr = tileId

instance (tileId : ℤ) (srcAddr dstAddr size : Addr) :
    Decidable (LocalAccepted tileId srcAddr dstAddr size) :=
  inferInstanceAs (Decidable (_ ∧ _))

/-- Every range lies inside a single region instance, no `memcpy` is made between ranges
that meet, and the caller's buffer is `NULL` or long enough. -/
def InContract (call : HalCall) : Prop :=
  call.InRegions ∧
    match call with
    | dmemToDmemTransfer srcAddr dstAddr size =>
      ¬ (Transfer.mk .dmemToDmemTransfer srcAddr dstAddr size).CopiesOntoItself
    | dmaLocalTransfer _ srcAddr dstAddr size => ¬ RangesMeet srcAddr size dstAddr size
    | memoryRead _ buffer size | memoryWrite _ buffer size =>
      ∀ bytes, buffer = some bytes → size.toNat ≤ bytes.length
    | _ => True

/-- What the call returns. -/
def answer (mem : FlatMemory) : HalCall → HalAnswer
  | cpuLocalMove srcAddr dstAddr size => (Transfer.mk .cpuLocalMove srcAddr dstAddr size).answer
  | dmaRemoteTransfer srcAddr dstAddr size =>
    (Transfer.mk .dmaRemoteTransfer srcAddr dstAddr size).answer
  | dmemToDmemTransfer srcAddr dstAddr size =>
    (Transfer.mk .dmemToDmemTransfer srcAddr dstAddr size).answer
  | dmaLocalTransfer tileId srcAddr dstAddr size =>
    { result := if LocalAccepted tileId srcAddr dstAddr size then size.toNat else -1 }
  | memoryRead addr buffer size =>
    match buffer with
    | some target =>
      if size = 0 then ⟨-1, some target⟩
      else ⟨size.toNat, some (mem.bytes addr size.toNat ++ target.drop size.toNat)⟩
    | none => ⟨-1, none⟩
  | memoryWrite _ buffer size =>
    { result := if buffer = none ∨ size = 0 then -1 else size.toNat }
  | memoryFill _ _ size | memorySet _ _ size =>
    { result := if size = 0 then -1 else size.toNat }

/-- The bytes the call writes, local transfers apart. -/
def flatByte (mem : FlatMemory) : HalCall → ℕ → Byte
  | cpuLocalMove srcAddr _ _ | dmaRemoteTransfer srcAddr _ _ | dmemToDmemTransfer srcAddr _ _
  | dmaLocalTransfer _ srcAddr _ _ => fun i => mem (srcAddr + BitVec.ofNat 64 i)
  | memoryWrite _ buffer _ => fun i => (buffer.getD []).getD i 0
  | memoryFill _ value _ => fun i => BitVec.ofNat 8 ((value.toNat + i) % 256)
  | memorySet _ value _ => fun _ => value
  | memoryRead _ _ _ => fun _ => 0

/-- The memory it leaves. -/
def effect (mem : FlatMemory) : HalCall → FlatMemory
  | dmaLocalTransfer tileId srcAddr dstAddr size =>
    if LocalAccepted tileId srcAddr dstAddr size then
      mem.transferred tileId.toNat srcAddr dstAddr size
    else mem
  | call => Placement.flatPut BitVec.toNat mem call.target.toNat call.count (call.flatByte mem)

end HalCall

/-- The system is ready for the next call, and holds the flat memory's byte at every
address of a region instance. -/
structure HalHolds (st : HalSystem) (mem : FlatMemory) : Prop where
  ready : HalReady st
  represents : regionPlacement.Represents BitVec.toNat st.mem mem

/-- What a ready system holds. -/
theorem HalReady.holds {st : HalSystem} (ready : HalReady st) :
    HalHolds st (regionByte st.mem) :=
  ⟨ready, fun _ _ covers => congrArg st.mem.get (addrToPtr_of_covers covers).symm⟩

section Represents

variable {m : Mem} {mem : FlatMemory} {r s : Region} {src dst size a : Addr}

theorem regionByte_of_represents (rep : regionPlacement.Represents BitVec.toNat m mem)
    (covers : r.Covers a) : regionByte m a = mem a :=
  (congrArg m.get (addrToPtr_of_covers covers)).trans (rep r a covers)

theorem represents_of_regionByte
    (bytes : ∀ r : Region, ∀ a : Addr, r.Covers a → regionByte m a = mem a) :
    regionPlacement.Represents BitVec.toNat m mem :=
  fun r a covers => (congrArg m.get (addrToPtr_of_covers covers)).symm.trans (bytes r a covers)

/-- A write to part of a range of a region instance. -/
theorem Region.Contains.represents_put (h : r.Contains dst size)
    (rep : regionPlacement.Represents BitVec.toNat m mem) {n : ℕ} (le : n ≤ size.toNat)
    (f : ℕ → Byte) : regionPlacement.Represents BitVec.toNat
      (m.put (addrToPtr platformAfterSetup dst) n f)
      (Placement.flatPut BitVec.toNat mem dst.toNat n f) := by
  have hlow := h.2.1
  have hhigh := h.2.2
  rw [h.addrToPtr_eq]
  exact rep.put ⟨hlow, by omega⟩ f

theorem Region.Contains.represents_copy (hsrc : r.Contains src size) (hdst : s.Contains dst size)
    (rep : regionPlacement.Represents BitVec.toNat m mem) :
    regionPlacement.Represents BitVec.toNat (Copy.apply m
      ⟨addrToPtr platformAfterSetup dst, addrToPtr platformAfterSetup src, size.toNat⟩)
      (mem.copied src dst size.toNat) := by
  have hbytes : ∀ i < size.toNat, m.get ((addrToPtr platformAfterSetup src).add i) =
      mem (src + BitVec.ofNat 64 i) := fun i hi => by
    rw [← hsrc.regionByte_add m hi]
    exact regionByte_of_represents rep (hsrc.covers_add hi)
  rw [Copy.apply, Memory.put_congr hbytes]
  exact hdst.represents_put rep le_rfl _

/-- The registers of an engine are the addresses `regAddr` names. -/
theorem isRegister_iff {tile : Fin 8} :
    FlatMemory.IsRegister tile a ↔ ∃ k < dmac512RegSize, a = regAddr tile k := by
  constructor
  · rintro ⟨hlow, hhigh⟩
    have hk : a.toNat - FlatMemory.engineBase tile < dmac512RegSize := by omega
    refine ⟨_, hk, BitVec.eq_of_toNat_eq ?_⟩
    rw [regAddr_toNat tile hk]
    simp only [FlatMemory.engineBase] at *
    omega
  · rintro ⟨k, hk, rfl⟩
    rw [FlatMemory.IsRegister, regAddr_toNat tile hk, FlatMemory.engineBase]
    omega

/-- A change of the registers, in memory and on the flat memory. -/
theorem represents_onRegisters {m' : Mem} (tile : Fin 8) {f : ℕ → Byte → Byte}
    (rep : regionPlacement.Represents BitVec.toNat m mem)
    (registers : ∀ k < dmac512RegSize,
      regionByte m' (regAddr tile k) = f k (regionByte m (regAddr tile k)))
    (others : ∀ r : Region, ∀ a : Addr, r.Covers a → (∀ k < dmac512RegSize, a ≠ regAddr tile k) →
      regionByte m' a = regionByte m a) :
    regionPlacement.Represents BitVec.toNat m' (mem.onRegisters tile f) := by
  refine represents_of_regionByte fun r a covers => ?_
  by_cases hreg : FlatMemory.IsRegister tile a
  · obtain ⟨k, hk, rfl⟩ := isRegister_iff.mp hreg
    have hindex : (regAddr tile k).toNat - FlatMemory.engineBase tile = k := by
      rw [regAddr_toNat tile hk, FlatMemory.engineBase]
      omega
    rw [FlatMemory.onRegisters, if_pos hreg, hindex, registers k hk,
      regionByte_of_represents rep covers]
  · rw [FlatMemory.onRegisters, if_neg hreg, others r a covers fun k hk same =>
      hreg (isRegister_iff.mpr ⟨k, hk, same⟩)]
    exact regionByte_of_represents rep covers

end Represents

/-! ### One call -/

section Call

variable {st : HalSystem} {mem : FlatMemory} {addr src dst size : Addr}

/-- The parameters of the engine depend on the arguments only. -/
theorem HalReady.transferInit_eq (ready : HalReady st) (tile : Fin 8) :
    st.transferInit tile src dst size = FlatMemory.engineInit src dst size := by
  obtain ⟨hdob, hdfb, hmode⟩ := ready.configuration tile tile.isLt
  rw [HalSystem.transferInit, MeshNoc.transferInit, hdob, hdfb, hmode]
  rfl

/-- The memory behind a local transfer. -/
theorem HalHolds.represents_transferred (holds : HalHolds st mem) {tile : Fin 8}
    (ranges : LocalRanges tile src dst size) :
    regionPlacement.Represents BitVec.toNat (st.transferred tile src dst size)
      (mem.transferred tile src dst size) := by
  obtain ⟨r, -, hsrc⟩ := ranges.src
  obtain ⟨s, -, hdst⟩ := ranges.dst
  let init := FlatMemory.engineInit src dst size
  have hprogrammed : regionPlacement.Represents BitVec.toNat
      (programmed (dmaRegsPtr tile) init st.mem) (mem.onRegisters tile (programmedByte init)) :=
    represents_onRegisters tile holds.represents (fun k hk => regionByte_programmed hk)
      fun _ _ covers other => regionByte_programmed_of_ne covers other
  have hcopied := hsrc.represents_copy hdst hprogrammed
  rw [HalSystem.transferred, holds.ready.transferInit_eq]
  exact represents_onRegisters tile hcopied (fun k hk => regionByte_reported hk)
    fun _ _ covers other => regionByte_reported_of_ne covers other

/-- The driver's tests, for ranges of region instances. -/
theorem localAccepted_iff {tileId : ℤ} (hsrc : InRegion src size) (hdst : InRegion dst size) :
    HalCall.LocalAccepted tileId src dst size ↔
      ∃ tile : Fin 8, tileId = tile ∧ LocalRanges tile src dst size := by
  constructor
  · rintro ⟨hsize, hnonneg, hsrcTile, hdstTile⟩
    obtain ⟨r, hr⟩ := hsrc.contains hsize
    obtain ⟨s, hs⟩ := hdst.contains hsize
    rw [getTileIdFromAddress_of_covers hr.covers] at hsrcTile
    rw [getTileIdFromAddress_of_covers hs.covers] at hdstTile
    obtain ⟨tile, htile⟩ := Region.exists_tile (hsrcTile.symm ▸ hnonneg)
    have hid : tileId = tile := hsrcTile.symm.trans htile
    exact ⟨tile, hid, ⟨r, htile, hr⟩, ⟨s, hdstTile.trans hid, hs⟩⟩
  · rintro ⟨tile, rfl, ⟨r, hr, hsrc'⟩, s, hs, hdst'⟩
    refine ⟨hsrc'.1, Int.natCast_nonneg _, ?_, ?_⟩
    · rw [getTileIdFromAddress_of_covers hsrc'.covers, hr]
    · rw [getTileIdFromAddress_of_covers hdst'.covers, hs]

/-- A local transfer is rejected as the flat memory says, or carried out. -/
theorem HalHolds.dmaLocalTransfer (holds : HalHolds st mem) {tileId : ℤ}
    (hsrc : InRegion src size) (hdst : InRegion dst size)
    (apart : ¬ RangesMeet src size dst size) :
    ∃ st', HalCall.exec st (.dmaLocalTransfer tileId src dst size) =
        some (HalCall.answer mem (.dmaLocalTransfer tileId src dst size), st') ∧
      HalHolds st' (HalCall.effect mem (.dmaLocalTransfer tileId src dst size)) := by
  simp only [HalCall.answer, HalCall.effect]
  by_cases haccepted : HalCall.LocalAccepted tileId src dst size
  · obtain ⟨tile, rfl, ranges⟩ := (localAccepted_iff hsrc hdst).mp haccepted
    rw [if_pos haccepted, if_pos haccepted, refDmaLocalTransfer_eq holds.ready ranges apart]
    exact ⟨_, rfl, holds.ready.transferred, holds.represents_transferred ranges⟩
  · rw [if_neg haccepted, if_neg haccepted]
    have hrejected := (dmaLocalTransfer_cases st tileId hsrc hdst).resolve_right fun h =>
      haccepted ((localAccepted_iff hsrc hdst).mpr h)
    exact ⟨_, refDmaLocalTransfer_rejected holds.ready hrejected,
      Transfer.ready_returned holds.ready holds.ready.arbitration_free _, holds.represents⟩

/-- The bytes a call writes are those of the flat memory. -/
theorem HalHolds.byte_eq (holds : HalHolds st mem) {call : HalCall} (inside : call.InRegions)
    {i : ℕ} (hi : i < call.count) : call.byte st.mem i = call.flatByte mem i := by
  have hsource : ∀ {src : Addr}, InRegion src call.size →
      regionByte st.mem (src + BitVec.ofNat 64 i) = mem (src + BitVec.ofNat 64 i) := by
    intro src hsrc
    have hlt : i < call.size.toNat := hi.trans_le call.count_le
    obtain ⟨r, hr⟩ := hsrc.contains fun hzero => by
      rw [hzero] at hlt
      exact absurd hlt (Nat.not_lt_zero i)
    exact regionByte_of_represents holds.represents (hr.covers_add hlt)
  cases call with
  | cpuLocalMove srcAddr dstAddr size => exact hsource inside.1
  | dmaLocalTransfer tileId srcAddr dstAddr size => exact hsource inside.1
  | dmaRemoteTransfer srcAddr dstAddr size => exact hsource inside.1
  | dmemToDmemTransfer srcAddr dstAddr size => exact hsource inside.1
  | memoryRead addr buffer size => rfl
  | memoryWrite addr buffer size => rfl
  | memoryFill addr value size => rfl
  | memorySet addr value size => rfl

/-- What a call has written is what it writes on the flat memory. -/
theorem HalHolds.of_wroteOnly (holds : HalHolds st mem) {call : HalCall} {st' : HalSystem}
    (inside : call.InRegions) (other : call.isLocal = false) (wrote : WroteOnly call st st') :
    HalHolds st' (call.effect mem) := by
  refine ⟨wrote.ready, ?_⟩
  have heffect : call.effect mem = Placement.flatPut BitVec.toNat mem call.target.toNat
      call.count (call.flatByte mem) := by
    cases call <;> first | rfl | exact absurd other Bool.true_eq_false.mp
  rw [wrote.mem, heffect, HalCall.written,
    Memory.put_congr fun i hi => holds.byte_eq inside hi]
  by_cases hsize : call.size = 0
  · have hcount : call.count = 0 := by
      have hle := call.count_le
      rw [hsize] at hle
      exact Nat.le_zero.mp hle
    rw [hcount, Memory.put_zero, Placement.flatPut_zero]
    exact holds.represents
  · obtain ⟨r, hr⟩ := inside.target.contains hsize
    exact hr.represents_put holds.represents call.count_le _

/-- A transfer without an engine returns what its arguments say. -/
theorem HalHolds.transfer (holds : HalHolds st mem) {t : Transfer} (inside : t.InRegions)
    (apart : ¬ t.CopiesOntoItself) : ∃ st', t.call.exec st = some (t.answer, st') := by
  obtain ⟨noc, -, hexec⟩ := t.exec_eq holds.ready inside apart
  exact ⟨_, hexec⟩

/-- The bytes behind the translated address. -/
theorem HalHolds.load_eq (holds : HalHolds st mem) {r : Region} (inside : r.Contains addr size) :
    st.mem.load Buffer.size (addrToPtr platformAfterSetup addr) size.toNat =
      some (mem.bytes addr size.toNat) := by
  rw [Memory.load, if_pos (inside.within_addrToPtr le_rfl)]
  refine congrArg some (List.map_congr_left fun i hi => ?_)
  have hlt := List.mem_range.mp hi
  rw [← inside.regionByte_add st.mem hlt]
  exact regionByte_of_represents holds.represents (inside.covers_add hlt)

theorem HalHolds.memoryRead (holds : HalHolds st mem) {buffer : Option (List Byte)}
    (inside : InRegion addr size)
    (long : ∀ bytes, buffer = some bytes → size.toNat ≤ bytes.length) :
    ∃ st', HalCall.exec st (.memoryRead addr buffer size) =
      some (HalCall.answer mem (.memoryRead addr buffer size), st') := by
  cases buffer with
  | none => exact ⟨_, onHal_memoryAccess_rejected holds.ready (.inl rfl)⟩
  | some target =>
    simp only [HalCall.answer]
    by_cases hsize : size = 0
    · rw [if_pos hsize]
      exact ⟨_, onHal_memoryAccess_rejected holds.ready (.inr hsize)⟩
    · obtain ⟨r, hr⟩ := inside.contains hsize
      have hok : ((some target).isSome && size != 0) = true := bne_iff_ne.mpr hsize
      rw [if_neg hsize, HalCall.exec, refMemoryRead, hok, onHal_memoryAccess_eq holds.ready hr,
        hr.intOfSize_eq, holds.load_eq hr]
      simp only [Option.bind_eq_bind, Option.bind_some, if_pos (long target rfl)]
      exact ⟨_, rfl⟩

theorem HalHolds.memoryWrite (holds : HalHolds st mem) {buffer : Option (List Byte)}
    (inside : InRegion addr size)
    (long : ∀ bytes, buffer = some bytes → size.toNat ≤ bytes.length) :
    ∃ st', HalCall.exec st (.memoryWrite addr buffer size) =
      some (HalCall.answer mem (.memoryWrite addr buffer size), st') := by
  simp only [HalCall.answer]
  cases buffer with
  | none => exact ⟨_, onHal_memoryAccess_rejected holds.ready (.inl rfl)⟩
  | some source =>
    by_cases hsize : size = 0
    · rw [if_pos (.inr hsize)]
      exact ⟨_, onHal_memoryAccess_rejected holds.ready (.inr hsize)⟩
    · obtain ⟨r, hr⟩ := inside.contains hsize
      have hok : ((some source).isSome && size != 0) = true := bne_iff_ne.mpr hsize
      have hlength : (source.take size.toNat).length = size.toNat :=
        List.length_take_of_le (long source rfl)
      rw [if_neg (not_or.mpr ⟨Option.some_ne_none source, hsize⟩), HalCall.exec, refMemoryWrite,
        hok, onHal_memoryAccess_eq holds.ready hr, hr.intOfSize_eq]
      simp only [Option.bind_eq_bind, Option.bind_some, if_pos (long source rfl), Memory.store,
        hlength, if_pos (hr.within_addrToPtr le_rfl)]
      exact ⟨_, rfl⟩

theorem HalHolds.memoryFill (holds : HalHolds st mem) {value : Byte}
    (inside : InRegion addr size) : ∃ st', HalCall.exec st (.memoryFill addr value size) =
      some (HalCall.answer mem (.memoryFill addr value size), st') := by
  simp only [HalCall.answer]
  by_cases hsize : size = 0
  · rw [if_pos hsize]
    exact ⟨_, onHal_memoryAccess_rejected holds.ready (.inr hsize)⟩
  · obtain ⟨r, hr⟩ := inside.contains hsize
    have hok : (size != 0) = true := bne_iff_ne.mpr hsize
    rw [if_neg hsize, HalCall.exec, refMemoryFill, hok, onHal_memoryAccess_eq holds.ready hr,
      hr.intOfSize_eq, fillPattern, Memory.foldlM_storeByte (hr.within_addrToPtr le_rfl)]
    exact ⟨_, rfl⟩

theorem HalHolds.memorySet (holds : HalHolds st mem) {value : Byte}
    (inside : InRegion addr size) : ∃ st', HalCall.exec st (.memorySet addr value size) =
      some (HalCall.answer mem (.memorySet addr value size), st') := by
  simp only [HalCall.answer]
  by_cases hsize : size = 0
  · rw [if_pos hsize]
    exact ⟨_, onHal_memoryAccess_rejected holds.ready (.inr hsize)⟩
  · obtain ⟨r, hr⟩ := inside.contains hsize
    have hok : (size != 0) = true := bne_iff_ne.mpr hsize
    rw [if_neg hsize, HalCall.exec, refMemorySet, hok, onHal_memoryAccess_eq holds.ready hr,
      hr.intOfSize_eq, Memory.memset, if_pos (hr.within_addrToPtr le_rfl)]
    exact ⟨_, rfl⟩

/-- Every call other than a local transfer is defined and returns what the flat memory says. -/
theorem HalHolds.answer_eq (holds : HalHolds st mem) {call : HalCall} (other : call.isLocal = false)
    (contract : call.InContract) : ∃ st', call.exec st = some (call.answer mem, st') := by
  obtain ⟨inside, hcall⟩ := contract
  cases call with
  | cpuLocalMove srcAddr dstAddr size =>
    let t : Transfer := ⟨.cpuLocalMove, srcAddr, dstAddr, size⟩
    exact holds.transfer (t := t) ⟨inside.1, inside.2⟩
      fun honto => by simp [t, Transfer.CopiesOntoItself] at honto
  | dmaLocalTransfer tileId srcAddr dstAddr size => exact absurd other Bool.true_eq_false.mp
  | dmaRemoteTransfer srcAddr dstAddr size =>
    let t : Transfer := ⟨.dmaRemoteTransfer, srcAddr, dstAddr, size⟩
    exact holds.transfer (t := t) ⟨inside.1, inside.2⟩
      fun honto => by simp [t, Transfer.CopiesOntoItself] at honto
  | dmemToDmemTransfer srcAddr dstAddr size =>
    exact holds.transfer (t := ⟨.dmemToDmemTransfer, srcAddr, dstAddr, size⟩)
      ⟨inside.1, inside.2⟩ hcall
  | memoryRead addr buffer size => exact holds.memoryRead inside hcall
  | memoryWrite addr buffer size => exact holds.memoryWrite inside hcall
  | memoryFill addr value size => exact holds.memoryFill inside
  | memorySet addr value size => exact holds.memorySet inside

/-- Every call of the contract is simulated by the flat memory. -/
theorem HalHolds.call (holds : HalHolds st mem) {call : HalCall} (contract : call.InContract) :
    ∃ st', call.exec st = some (call.answer mem, st') ∧ HalHolds st' (call.effect mem) := by
  cases hlocal : call.isLocal with
  | false =>
    obtain ⟨st', hran⟩ := holds.answer_eq hlocal contract
    exact ⟨st', hran, holds.of_wroteOnly contract.1 hlocal
      (call.wroteOnly holds.ready contract.1 hlocal hran)⟩
  | true =>
    obtain ⟨inside, hcall⟩ := contract
    cases call <;> simp only [HalCall.isLocal, Bool.false_eq_true] at hlocal
    exact holds.dmaLocalTransfer inside.1 inside.2 hcall

end Call

/-! ### All requests -/

/-- The address of a region instance that is stored behind a pointer. -/
noncomputable def addrOf (ptr : Ptr Buffer) : Addr :=
  open Classical in
  if h : ∃ a, getAddressRegion a ≠ .invalid ∧ addrToPtr platformAfterSetup a = ptr then h.choose
  else 0

/-- Every place of memory has one address. -/
theorem addrOf_addrToPtr {r : Region} {a : Addr} (covers : r.Covers a) :
    addrOf (addrToPtr platformAfterSetup a) = a := by
  have hvalid : getAddressRegion a ≠ .invalid := by
    rw [getAddressRegion_of_covers covers]
    exact r.kind_ne_invalid
  have hexists : ∃ b, getAddressRegion b ≠ .invalid ∧
      addrToPtr platformAfterSetup b = addrToPtr platformAfterSetup a := ⟨a, hvalid, rfl⟩
  rw [addrOf, dif_pos hexists]
  exact addrToPtr_inj hexists.choose_spec.1 hvalid hexists.choose_spec.2

/-- The `n` bytes behind the pointer are those of a range of a region instance. -/
def PointsTo (ptr : Ptr Buffer) (n : ℕ) : Prop :=
  ∃ (r : Region) (addr size : Addr), r.Contains addr size ∧ size.toNat = n ∧
    addrToPtr platformAfterSetup addr = ptr

/-- What the route query returns. -/
def routeLength (a b : Addr) : ℤ :=
  let (i, j) := (getTileIdFromAddress a, getTileIdFromAddress b)
  if i < 0 ∨ j < 0 then -1 else (j % 4 - i % 4).natAbs + (j / 4 - i / 4).natAbs

namespace HalRequest

/-- The data calls keep their contract, the pointers lead into region instances. -/
def InContract : HalRequest → Prop
  | data call => call.InContract
  | store dstPtr bytes => PointsTo dstPtr bytes.length
  | load srcPtr size => PointsTo srcPtr size
  | nodeSync _ | getDmemStatus _ | meshRouteOptimal _ _ => True

/-- What the request returns. -/
noncomputable def answer (mem : FlatMemory) : HalRequest → HalAnswer
  | data call => call.answer mem
  | nodeSync _ | store _ _ => { result := 0 }
  | getDmemStatus dmemBaseAddr => { result := statusOf dmemBaseAddr }
  | meshRouteOptimal srcAddr dstAddr => { result := routeLength srcAddr dstAddr }
  | load srcPtr size => { result := 0, buffer := some (mem.bytes (addrOf srcPtr) size) }

/-- The memory it leaves. -/
noncomputable def effect (mem : FlatMemory) : HalRequest → FlatMemory
  | data call => call.effect mem
  | store dstPtr bytes =>
    Placement.flatPut BitVec.toNat mem (addrOf dstPtr).toNat bytes.length fun i => bytes.getD i 0
  | nodeSync _ | getDmemStatus _ | meshRouteOptimal _ _ | load _ _ => mem

/-- The request on the flat memory. -/
noncomputable def flat (mem : FlatMemory) (request : HalRequest) : HalAnswer × FlatMemory :=
  (request.answer mem, request.effect mem)

end HalRequest

section Request

variable {st : HalSystem} {mem : FlatMemory}

theorem refMeshRouteOptimal_eq_routeLength {st : HalState} (unlocked : st.halMutex.held = false)
    (a b : Addr) :
    refMeshRouteOptimal a b st = some ({ result := routeLength a b }, st.returned st.mem) := by
  simp only [refMeshRouteOptimal, HalState.lock_of_unlocked unlocked, Option.bind_eq_bind,
    Option.bind_some, routeLength]
  split_ifs <;> rfl

/-- A query leaves memory alone. -/
theorem HalHolds.query (holds : HalHolds st mem)
    {f : HalState → Option (HalAnswer × HalState)} {a : HalAnswer}
    (ran : f st.toHalState = some (a, st.toHalState.returned st.mem)) :
    ∃ st', st.onHal f = some (a, st') ∧ HalHolds st' mem := by
  obtain ⟨noc, hfree, hcall⟩ := Transfer.onHal_eq holds.ready ran
  exact ⟨_, hcall, Transfer.ready_returned holds.ready hfree _, holds.represents⟩

/-- A store through a pointer. -/
theorem HalHolds.store (holds : HalHolds st mem) {dstPtr : Ptr Buffer} {bytes : List Byte}
    (points : PointsTo dstPtr bytes.length) :
    ∃ st', HalRequest.exec st (.store dstPtr bytes) = some ({ result := 0 }, st') ∧
      HalHolds st' (HalRequest.effect mem (.store dstPtr bytes)) := by
  obtain ⟨r, addr, size, h, hsize, rfl⟩ := points
  have hready : ∀ m, HalReady { st with mem := m } := fun _ =>
    ⟨holds.ready.platform, holds.ready.platform_set, holds.ready.unlocked,
      holds.ready.initialized, holds.ready.inst, holds.ready.configuration,
      holds.ready.arbitration_free⟩
  rw [HalRequest.exec, Memory.store, ← hsize, if_pos (h.within_addrToPtr le_rfl)]
  refine ⟨_, rfl, hready _, ?_⟩
  rw [HalRequest.effect, addrOf_addrToPtr h.covers, ← hsize]
  exact h.represents_put holds.represents le_rfl fun i => bytes.getD i 0

/-- A load through a pointer. -/
theorem HalHolds.load (holds : HalHolds st mem) {srcPtr : Ptr Buffer} {n : ℕ}
    (points : PointsTo srcPtr n) :
    HalRequest.exec st (.load srcPtr n) =
      some (HalRequest.answer mem (.load srcPtr n), st) := by
  obtain ⟨r, addr, size, h, rfl, rfl⟩ := points
  rw [HalRequest.exec, holds.load_eq h, HalRequest.answer, addrOf_addrToPtr h.covers]
  rfl

/-- Every request of the contract is simulated by the flat memory. -/
theorem HalHolds.exec (holds : HalHolds st mem) {request : HalRequest}
    (contract : request.InContract) : ∃ st', request.exec st = some (request.answer mem, st') ∧
      HalHolds st' (request.effect mem) := by
  have hunlocked : st.toHalState.halMutex.held = false := holds.ready.unlocked
  cases request with
  | data call => exact holds.call contract
  | nodeSync mask =>
    refine holds.query ?_
    rw [refNodeSync, HalState.lock_of_unlocked hunlocked]
    rfl
  | getDmemStatus dmemBaseAddr => exact holds.query (refGetDmemStatus_eq hunlocked _)
  | meshRouteOptimal srcAddr dstAddr =>
    exact holds.query (refMeshRouteOptimal_eq_routeLength hunlocked _ _)
  | store dstPtr bytes => exact holds.store contract
  | load srcPtr size => exact ⟨st, holds.load contract, holds⟩

/-- From every ready state, whatever memory holds, every sequence of requests of the
contract is defined, returns what the flat memory returns, and leaves its bytes. Of a remote
transfer the flat memory too moves only what the length of a packet can say. -/
theorem hal_interface_refines (ready : HalReady st) {requests : List HalRequest}
    (contract : ∀ request ∈ requests, request.InContract) :
    ∃ st', tryRun HalRequest.exec st requests = some
        ((runTrace HalRequest.flat (regionByte st.mem) requests).map Prod.snd, st') ∧
      HalHolds st' (runState HalRequest.flat (regionByte st.mem) requests) :=
  tryRun_refines (fun _ _ _ within related => related.exec within) ready.holds contract

/-- A chunk is filled and gathered, its module's state is asked for, the nodes are synced. -/
def oneGather : List HalRequest :=
  [.data (.memoryFill 0x10000000 0x10 256), .data (.dmaRemoteTransfer 0x10000000 0x8000 256),
    .getDmemStatus 0x10000000, .nodeSync 1]

theorem hal_interface_refines_oneGather : ∃ st st', HalReady st ∧
    tryRun HalRequest.exec st oneGather = some
      ((runTrace HalRequest.flat (regionByte st.mem) oneGather).map Prod.snd, st') ∧
    HalHolds st' (runState HalRequest.flat (regionByte st.mem) oneGather) := by
  have ready := halReady_afterSetup platformSetup_eq
  have contract : ∀ request ∈ oneGather, request.InContract := by
    simp only [oneGather, List.forall_mem_cons]
    refine ⟨⟨⟨.dmem 0, by decide⟩, trivial⟩,
      ⟨⟨⟨.dmem 0, by decide⟩, ⟨.dlm1_512 0, by decide⟩⟩, trivial⟩, trivial, trivial, ?_⟩
    exact fun request h => absurd h List.not_mem_nil
  obtain ⟨st', hrun, holds⟩ := hal_interface_refines ready contract
  exact ⟨_, st', ready, hrun, holds⟩

end Request

end MeshNoc
