import MeshNoc.HalTests.HalReference
import MeshNoc.PlatformInit.Validation
import MeshNoc.Lib.Refinement

/-!
# The HAL as a flat memory

What the memory functions of the HAL are for: reading, writing, filling, setting, moving
and transferring bytes of one memory with a byte at every address. On ranges that lie
inside one region instance the reference implementation refines this memory: every
sequence of calls succeeds, reads return the bytes of the flat memory, and nothing but
the addressed bytes changes.

## Main results

* `HalOp.exec_refines` — one call from related states
* `hal_refines_flat_memory` — every sequence of calls after `platform_setup`
-/

namespace MeshNoc

open Lib

/-- A byte at every address. -/
abbrev FlatMemory := Addr → Byte

/-- The calls of `g_hal` that access memory without a DMA engine or the network, with
non-NULL buffers. -/
inductive HalOp
  | memoryWrite (addr : Addr) (buffer : List Byte) (size : Addr)
  | memoryFill (addr : Addr) (value : Byte) (size : Addr)
  | memorySet (addr : Addr) (value : Byte) (size : Addr)
  | memoryRead (addr : Addr) (buffer : List Byte) (size : Addr)
  | cpuLocalMove (srcAddr dstAddr size : Addr)
  | dmemToDmemTransfer (srcAddr dstAddr size : Addr)

namespace HalOp

/-- The call, as the reference implementation makes it. -/
def exec (st : HalState) : HalOp → Option (HalAnswer × HalState)
  | memoryWrite addr buffer size => refMemoryWrite addr (some buffer) size st
  | memoryFill addr value size => refMemoryFill addr value size st
  | memorySet addr value size => refMemorySet addr value size st
  | memoryRead addr buffer size => refMemoryRead addr (some buffer) size st
  | cpuLocalMove srcAddr dstAddr size => refCpuLocalMove srcAddr dstAddr size st
  | dmemToDmemTransfer srcAddr dstAddr size => refDmemToDmemTransfer srcAddr dstAddr size st

/-- The call on the flat memory. -/
def flat (mem : FlatMemory) : HalOp → HalAnswer × FlatMemory
  | memoryWrite addr buffer size =>
    ({ result := size.toNat },
      Placement.flatPut BitVec.toNat mem addr.toNat size.toNat fun i => buffer.getD i 0)
  | memoryFill addr value size =>
    ({ result := size.toNat },
      Placement.flatPut BitVec.toNat mem addr.toNat size.toNat fun i =>
        BitVec.ofNat 8 ((value.toNat + i) % 256))
  | memorySet addr value size =>
    ({ result := size.toNat },
      Placement.flatPut BitVec.toNat mem addr.toNat size.toNat fun _ => value)
  | memoryRead addr buffer size =>
    ({ result := size.toNat
       buffer := some ((List.range size.toNat).map (fun i => mem (addr + BitVec.ofNat 64 i)) ++
         buffer.drop size.toNat) }, mem)
  | cpuLocalMove srcAddr dstAddr size | dmemToDmemTransfer srcAddr dstAddr size =>
    ({ result := 0 },
      Placement.flatPut BitVec.toNat mem dstAddr.toNat size.toNat fun i =>
        mem (srcAddr + BitVec.ofNat 64 i))

/-- Every range of the call lies inside one region instance, of DMEM modules and apart
for a transfer between modules, and the caller's buffer has `size` bytes. -/
def Valid : HalOp → Prop
  | memoryWrite addr buffer size | memoryRead addr buffer size =>
    (∃ r : Region, r.Contains addr size) ∧ size.toNat ≤ buffer.length
  | memoryFill addr _ size | memorySet addr _ size => ∃ r : Region, r.Contains addr size
  | cpuLocalMove srcAddr dstAddr size =>
    (∃ r : Region, r.Contains srcAddr size) ∧ ∃ r : Region, r.Contains dstAddr size
  | dmemToDmemTransfer srcAddr dstAddr size =>
    (∃ id, (Region.dmem id).Contains srcAddr size) ∧
      (∃ id, (Region.dmem id).Contains dstAddr size) ∧
        (srcAddr.toNat + size.toNat ≤ dstAddr.toNat ∨
          dstAddr.toNat + size.toNat ≤ srcAddr.toNat)

end HalOp

/-- The HAL holds the bytes of the flat memory: the platform is as set up, no call is in
progress, every address of a region instance has its byte, and storage of no address is
still zero. -/
structure HalRefines (st : HalState) (mem : FlatMemory) : Prop where
  platform : st.platform = platformAfterSetup
  platform_set : st.platformSet = true
  unlocked : st.halMutex.held = false
  represents : regionPlacement.Represents BitVec.toNat st.mem mem
  untouched : ∀ b k, (∀ r, ¬ regionPlacement.Stores r b k) → st.mem b k = 0

section Contains

variable {r : Region} {addr size : Addr}

/-- The size comes back as a non-negative `int`. -/
theorem Region.Contains.intOfSize_eq (h : r.Contains addr size) :
    intOfSize size = size.toNat := intOfSize_of_lt h.lt

/-- The bytes behind the translated address are those of the flat memory. -/
theorem Region.Contains.get_add (h : r.Contains addr size) {m : Mem} {mem : FlatMemory}
    (rep : regionPlacement.Represents BitVec.toNat m mem) {i : ℕ} (hi : i < size.toNat) :
    m.get ((regionPlacement.ptrAt r addr.toNat).add i) = mem (addr + BitVec.ofNat 64 i) := by
  have hvalue := h.toNat_add hi
  rw [← h.2.ptrAt_add, ← hvalue]
  refine rep r _ ?_
  rw [hvalue]
  exact h.2.covers hi

end Contains

/-! ### One call -/

section Call

variable {st : HalState} {mem : FlatMemory} {r : Region} {addr src dst size : Addr}

/-- A call that accesses one range succeeds with the access. -/
theorem HalRefines.memoryAccess_eq (related : HalRefines st mem) (h : r.Contains addr size)
    {buffer out : Option (List Byte)} {m : Mem}
    {access : Ptr Buffer → Mem → Option (Option (List Byte) × Mem)}
    (accessed : access (regionPlacement.ptrAt r addr.toNat) st.mem = some (out, m)) :
    memoryAccess true addr size buffer access st =
      some (⟨size.toNat, out⟩, { st with mem := m }.unlock) := by
  have hnull := regionPlacement.ptrAt_ne_null r addr.toNat
  simp only [memoryAccess, HalState.lock, related.unlocked, related.platform,
    h.validateAddress_eq, h.addrToPtr_eq, accessed, h.intOfSize_eq, if_neg hnull,
    Bool.false_eq_true, if_false, Bool.not_true, Option.bind_eq_bind, Option.bind_some]
  rfl

/-- Writing a range keeps the relation. -/
theorem HalRefines.put (related : HalRefines st mem) (h : r.Contains addr size)
    (f : ℕ → Byte) :
    HalRefines
      { st with mem := st.mem.put (regionPlacement.ptrAt r addr.toNat) size.toNat f }.unlock
      (Placement.flatPut BitVec.toNat mem addr.toNat size.toNat f) where
  platform := related.platform
  platform_set := related.platform_set
  unlocked := rfl
  represents := related.represents.put h.2 f
  untouched b k unplaced := by
    change st.mem.put _ _ _ b k = 0
    -- storage of no address stays zero: the write goes to addresses of `r` only
    rw [h.2.put_of_not_stores f unplaced]
    exact related.untouched b k unplaced

/-- Reading keeps the relation. -/
theorem HalRefines.unlock (related : HalRefines st mem) : HalRefines st.unlock mem :=
  { related with unlocked := rfl }

theorem HalRefines.memoryWrite (related : HalRefines st mem) (h : r.Contains addr size)
    {buffer : List Byte} (long : size.toNat ≤ buffer.length) :
    ∃ st', refMemoryWrite addr (some buffer) size st = some ({ result := size.toNat }, st') ∧
      HalRefines st' (Placement.flatPut BitVec.toNat mem addr.toNat size.toNat
        fun i => buffer.getD i 0) := by
  have hlength : (buffer.take size.toNat).length = size.toNat := List.length_take_of_le long
  have hstore : st.mem.store Buffer.size (regionPlacement.ptrAt r addr.toNat)
      (buffer.take size.toNat) = some (st.mem.put (regionPlacement.ptrAt r addr.toNat) size.toNat
        fun i => buffer.getD i 0) := by
    rw [Memory.store, hlength, if_pos h.within]
    refine congrArg some (Memory.put_congr fun i hi => ?_)
    simp only [List.getD_eq_getElem?_getD, List.getElem?_take_of_lt hi]
  -- the flat memory takes the same bytes
  refine ⟨_, ?_, related.put h fun i => buffer.getD i 0⟩
  have hsize : (size != 0) = true := bne_iff_ne.mpr h.1
  rw [refMemoryWrite, hsize]
  refine related.memoryAccess_eq h ?_
  simp only [Option.bind_eq_bind, Option.bind_some, if_pos long, hstore]

/-- The pattern of the fill loop, computed in 64 bits and cut to a byte. -/
theorem fillByte_eq (value : Byte) (i : ℕ) :
    (value.setWidth 64 + BitVec.ofNat 64 i).setWidth 8 =
      BitVec.ofNat 8 ((value.toNat + i) % 256) := by
  apply BitVec.eq_of_toNat_eq
  simp only [BitVec.toNat_setWidth, BitVec.toNat_add, BitVec.toNat_ofNat]
  omega

theorem HalRefines.memoryFill (related : HalRefines st mem) (h : r.Contains addr size)
    (value : Byte) :
    ∃ st', refMemoryFill addr value size st = some ({ result := size.toNat }, st') ∧
      HalRefines st' (Placement.flatPut BitVec.toNat mem addr.toNat size.toNat
        fun i => BitVec.ofNat 8 ((value.toNat + i) % 256)) := by
  refine ⟨_, ?_, related.put h fun i => BitVec.ofNat 8 ((value.toNat + i) % 256)⟩
  have hsize : (size != 0) = true := bne_iff_ne.mpr h.1
  rw [refMemoryFill, hsize]
  refine related.memoryAccess_eq h ?_
  simp only [fillPattern, fillByte_eq, Memory.foldlM_storeByte h.within, Option.bind_eq_bind,
    Option.bind_some]

theorem HalRefines.memorySet (related : HalRefines st mem) (h : r.Contains addr size)
    (value : Byte) :
    ∃ st', refMemorySet addr value size st = some ({ result := size.toNat }, st') ∧
      HalRefines st' (Placement.flatPut BitVec.toNat mem addr.toNat size.toNat
        fun _ => value) := by
  refine ⟨_, ?_, related.put h fun _ => value⟩
  have hsize : (size != 0) = true := bne_iff_ne.mpr h.1
  rw [refMemorySet, hsize]
  refine related.memoryAccess_eq h ?_
  simp only [Memory.memset, if_pos h.within, Option.bind_eq_bind, Option.bind_some]

theorem HalRefines.memoryRead (related : HalRefines st mem) (h : r.Contains addr size)
    {buffer : List Byte} (long : size.toNat ≤ buffer.length) :
    ∃ st', refMemoryRead addr (some buffer) size st = some
      ({ result := size.toNat
         buffer := some ((List.range size.toNat).map (fun i => mem (addr + BitVec.ofNat 64 i)) ++
           buffer.drop size.toNat) }, st') ∧ HalRefines st' mem := by
  -- what the pointer reads is what the flat memory holds on the range
  have hload : st.mem.load Buffer.size (regionPlacement.ptrAt r addr.toNat) size.toNat =
      some ((List.range size.toNat).map fun i => mem (addr + BitVec.ofNat 64 i)) := by
    rw [Memory.load, if_pos h.within]
    exact congrArg some (List.map_congr_left fun i hi =>
      h.get_add related.represents (List.mem_range.mp hi))
  refine ⟨_, ?_, related.unlock⟩
  have hsize : (size != 0) = true := bne_iff_ne.mpr h.1
  rw [refMemoryRead, hsize]
  refine related.memoryAccess_eq h ?_
  simp only [Option.bind_eq_bind, Option.bind_some, hload, if_pos long]

/-- A memmove between two ranges stores the flat memory's bytes, for any overlap. -/
theorem HalRefines.memmove_eq (related : HalRefines st mem) {s : Region}
    (hsrc : r.Contains src size) (hdst : s.Contains dst size) :
    st.mem.memmove Buffer.size (regionPlacement.ptrAt s dst.toNat)
      (regionPlacement.ptrAt r src.toNat) size.toNat =
        some (st.mem.put (regionPlacement.ptrAt s dst.toNat) size.toNat
          fun i => mem (src + BitVec.ofNat 64 i)) := by
  rw [Memory.memmove, if_pos ⟨hdst.within, hsrc.within⟩]
  exact congrArg some (Memory.put_congr fun i hi => hsrc.get_add related.represents hi)

theorem HalRefines.cpuLocalMove (related : HalRefines st mem) {s : Region}
    (hsrc : r.Contains src size) (hdst : s.Contains dst size) :
    ∃ st', refCpuLocalMove src dst size st = some ({ result := 0 }, st') ∧
      HalRefines st' (Placement.flatPut BitVec.toNat mem dst.toNat size.toNat
        fun i => mem (src + BitVec.ofNat 64 i)) := by
  have hnull : ¬ (regionPlacement.ptrAt r src.toNat = .null ∨
      regionPlacement.ptrAt s dst.toNat = .null) := by simp [Placement.ptrAt_ne_null]
  refine ⟨_, ?_, related.put hdst fun i => mem (src + BitVec.ofNat 64 i)⟩
  simp only [refCpuLocalMove, HalState.lock, related.unlocked, related.platform,
    hsrc.validateAddress_eq, hdst.validateAddress_eq, hsrc.addrToPtr_eq, hdst.addrToPtr_eq,
    related.memmove_eq hsrc hdst, if_neg hnull, Bool.false_eq_true, if_false, Bool.not_true,
    Bool.or_self, Option.bind_eq_bind, Option.bind_some]
  rfl

/-- The driver's copy, on ranges that are apart. -/
theorem HalRefines.dmemCopy_eq (related : HalRefines st mem) {id id' : Fin 8}
    (hsrc : (Region.dmem id).Contains src size) (hdst : (Region.dmem id').Contains dst size)
    (apart : src.toNat + size.toNat ≤ dst.toNat ∨ dst.toNat + size.toNat ≤ src.toNat) :
    dmemCopy platformAfterSetup st.mem src dst size =
      some (0, st.mem.put (regionPlacement.ptrAt (.dmem id') dst.toNat) size.toNat
        fun i => mem (src + BitVec.ofNat 64 i)) := by
  have hregions : ¬ (getAddressRegion src ≠ .dmem512 ∨ getAddressRegion dst ≠ .dmem512) := by
    simp [getAddressRegion_of_covers hsrc.covers, getAddressRegion_of_covers hdst.covers,
      Region.kind]
  have hnull : ¬ (regionPlacement.ptrAt (.dmem id) src.toNat = .null ∨
      regionPlacement.ptrAt (.dmem id') dst.toNat = .null) := by
    simp [Placement.ptrAt_ne_null]
  -- `memcpy` is defined here: ranges that are apart are stored apart
  have hoverlap := hdst.2.not_overlaps hsrc.2 apart.symm
  simp only [dmemCopy, if_neg hregions, hsrc.validateAddress_eq, hdst.validateAddress_eq,
    hsrc.addrToPtr_eq, hdst.addrToPtr_eq, if_neg hnull, Memory.memcpy, if_neg hoverlap,
    related.memmove_eq hsrc hdst, Bool.not_true, Bool.or_self,
    Bool.false_eq_true, if_false, Option.bind_eq_bind, Option.bind_some]

theorem HalRefines.dmemToDmemTransfer (related : HalRefines st mem) {id id' : Fin 8}
    (hsrc : (Region.dmem id).Contains src size) (hdst : (Region.dmem id').Contains dst size)
    (apart : src.toNat + size.toNat ≤ dst.toNat ∨ dst.toNat + size.toNat ≤ src.toNat) :
    ∃ st', refDmemToDmemTransfer src dst size st = some ({ result := 0 }, st') ∧
      HalRefines st' (Placement.flatPut BitVec.toNat mem dst.toNat size.toNat
        fun i => mem (src + BitVec.ofNat 64 i)) := by
  have hregions : ¬ (getAddressRegion src ≠ .dmem512 ∨ getAddressRegion dst ≠ .dmem512) := by
    simp [getAddressRegion_of_covers hsrc.covers, getAddressRegion_of_covers hdst.covers,
      Region.kind]
  refine ⟨_, ?_, related.put hdst fun i => mem (src + BitVec.ofNat 64 i)⟩
  simp only [refDmemToDmemTransfer, HalState.lock, related.unlocked, related.platform,
    related.platform_set, hsrc.validateAddress_eq, hdst.validateAddress_eq, if_neg hregions,
    related.dmemCopy_eq hsrc hdst apart, Bool.false_eq_true, if_false, Bool.not_true,
    Bool.or_self, Option.bind_eq_bind, Option.bind_some]
  rfl

/-- Every call of the contract is simulated by the flat memory. -/
theorem HalOp.exec_refines (related : HalRefines st mem) (op : HalOp) (valid : op.Valid) :
    ∃ st', op.exec st = some ((op.flat mem).1, st') ∧ HalRefines st' (op.flat mem).2 := by
  cases op with
  | memoryWrite addr buffer size =>
    obtain ⟨⟨r, h⟩, long⟩ := valid
    exact related.memoryWrite h long
  | memoryFill addr value size =>
    obtain ⟨r, h⟩ := valid
    exact related.memoryFill h value
  | memorySet addr value size =>
    obtain ⟨r, h⟩ := valid
    exact related.memorySet h value
  | memoryRead addr buffer size =>
    obtain ⟨⟨r, h⟩, long⟩ := valid
    exact related.memoryRead h long
  | cpuLocalMove srcAddr dstAddr size =>
    obtain ⟨⟨r, hsrc⟩, s, hdst⟩ := valid
    exact related.cpuLocalMove hsrc hdst
  | dmemToDmemTransfer srcAddr dstAddr size =>
    obtain ⟨⟨id, hsrc⟩, ⟨id', hdst⟩, apart⟩ := valid
    exact related.dmemToDmemTransfer hsrc hdst apart

end Call

/-! ### Every sequence of calls -/

/-- After set-up the HAL holds the all-zero memory. -/
theorem halRefines_afterSetup (dma : DmaDriver) (plic : PlicState) :
    HalRefines (HalState.afterSetup ⟨platformAfterSetup, zeroMem, dma, plic⟩) fun _ => 0 where
  platform := rfl
  platform_set := rfl
  unlocked := rfl
  represents _ _ _ := rfl
  untouched _ _ _ := rfl

/-- From the state `platform_setup` leaves, every sequence of calls on ranges of single
instances succeeds with the answers of a flat memory that is zero at first, and ends in
a state that holds the flat memory. -/
theorem hal_refines_flat_memory (ops : List HalOp) (valid : ∀ op ∈ ops, op.Valid) :
    ∃ st st', platformSetup = some st ∧
      tryRun HalOp.exec (HalState.afterSetup st) ops =
        some ((runTrace HalOp.flat (fun _ => 0) ops).map Prod.snd, st') ∧
      HalRefines st' (runState HalOp.flat (fun _ => 0) ops) := by
  obtain ⟨st', hrun, hrelated⟩ := tryRun_refines (R := HalRefines)
    (fun _ _ op hop related => HalOp.exec_refines related op hop)
    (halRefines_afterSetup (dmaAfter numTiles) plicAfterSetup) valid
  exact ⟨_, st', platformSetup_eq, hrun, hrelated⟩

/-- Three bytes written to DMEM0, transferred to DMEM1 and read back there. -/
theorem hal_refines_flat_memory_transfer :
    ∃ st st', platformSetup = some st ∧
      tryRun HalOp.exec (HalState.afterSetup st)
        [.memoryWrite 0x10000010 [7, 8, 9] 3, .dmemToDmemTransfer 0x10000010 0x10400000 3,
          .memoryRead 0x10400000 [0, 0, 0, 1] 3] =
        some ([⟨3, none⟩, ⟨0, none⟩, ⟨3, some [7, 8, 9, 1]⟩], st') := by
  have hanswers : (runTrace HalOp.flat (fun _ => 0)
      [.memoryWrite 0x10000010 [7, 8, 9] 3, .dmemToDmemTransfer 0x10000010 0x10400000 3,
        .memoryRead 0x10400000 [0, 0, 0, 1] 3]).map Prod.snd =
      [⟨3, none⟩, ⟨0, none⟩, ⟨3, some [7, 8, 9, 1]⟩] := by decide +kernel
  obtain ⟨st, st', hsetup, hrun, -⟩ := hal_refines_flat_memory
    [.memoryWrite 0x10000010 [7, 8, 9] 3, .dmemToDmemTransfer 0x10000010 0x10400000 3,
      .memoryRead 0x10400000 [0, 0, 0, 1] 3] (by
    simp only [List.mem_cons, List.not_mem_nil, or_false, forall_eq_or_imp, forall_eq]
    exact ⟨⟨⟨.dmem 0, by decide⟩, by decide⟩, ⟨⟨0, by decide⟩, ⟨1, by decide⟩, by decide⟩,
      ⟨⟨.dmem 1, by decide⟩, by decide⟩⟩)
  exact ⟨st, st', hsetup, hanswers ▸ hrun⟩

end MeshNoc
