import MeshNoc.HalTests.LocalTransfer

/-!
# Idle engines

Between the calls of the HAL every engine is to be idle, and nothing but a local transfer is
to touch the control and status registers of an engine. The registers are bytes of the
tile's DLM1_512, so a call that writes there reaches them: the engines stay idle as long as
what it writes is what they hold.

## Main results

* `HalCall.wroteOnly` — what a call other than a local transfer writes
* `EnginesIdle.of_transferred` — what a local transfer leaves of the busy bits
* `idleRun_iff` — the exact condition for a run of calls
-/

namespace MeshNoc

open Lib

namespace HalCall

/-- A local transfer. -/
def isLocal : HalCall → Bool
  | dmaLocalTransfer _ _ _ _ => true
  | _ => false

/-- Every range of the call lies inside a single region instance. -/
def InRegions : HalCall → Prop
  | cpuLocalMove srcAddr dstAddr size | dmaLocalTransfer _ srcAddr dstAddr size
  | dmaRemoteTransfer srcAddr dstAddr size | dmemToDmemTransfer srcAddr dstAddr size =>
    InRegion srcAddr size ∧ InRegion dstAddr size
  | memoryRead addr _ size | memoryWrite addr _ size | memoryFill addr _ size
  | memorySet addr _ size => InRegion addr size

/-- The first address the call writes to. -/
def target : HalCall → Addr
  | cpuLocalMove _ dstAddr _ | dmaLocalTransfer _ _ dstAddr _ | dmaRemoteTransfer _ dstAddr _
  | dmemToDmemTransfer _ dstAddr _ => dstAddr
  | memoryRead addr _ _ | memoryWrite addr _ _ | memoryFill addr _ _ | memorySet addr _ _ => addr

/-- The number of bytes it writes there, local transfers apart. -/
def count : HalCall → ℕ
  | cpuLocalMove srcAddr dstAddr size =>
    (Transfer.mk .cpuLocalMove srcAddr dstAddr size).length
  | dmaRemoteTransfer srcAddr dstAddr size =>
    (Transfer.mk .dmaRemoteTransfer srcAddr dstAddr size).length
  | dmemToDmemTransfer srcAddr dstAddr size =>
    (Transfer.mk .dmemToDmemTransfer srcAddr dstAddr size).length
  | memoryWrite _ buffer size => if buffer.isSome then size.toNat else 0
  | memoryFill _ _ size | memorySet _ _ size => size.toNat
  | dmaLocalTransfer _ _ _ _ | memoryRead _ _ _ => 0

/-- The bytes it writes, `m` being memory before the call. -/
def byte (m : Mem) : HalCall → ℕ → Byte
  | cpuLocalMove srcAddr _ _ | dmaRemoteTransfer srcAddr _ _ | dmemToDmemTransfer srcAddr _ _
  | dmaLocalTransfer _ srcAddr _ _ => fun i => regionByte m (srcAddr + BitVec.ofNat 64 i)
  | memoryWrite _ buffer _ => fun i => (buffer.getD []).getD i 0
  | memoryFill _ value _ => fun i => BitVec.ofNat 8 ((value.toNat + i) % 256)
  | memorySet _ value _ => fun _ => value
  | memoryRead _ _ _ => fun _ => 0

end HalCall

/-! ### What the calls write -/

section Effect

variable {st st' : HalSystem} {answer : HalAnswer} {addr size : Addr}

/-- The memory behind a call that has written `count` bytes. -/
def HalCall.written (call : HalCall) (m : Mem) : Mem :=
  m.put (addrToPtr platformAfterSetup call.target) call.count (call.byte m)

/-- A call has written what it is to write, and nothing else of the system has changed
but the arbitration and the mutex. -/
structure WroteOnly (call : HalCall) (st st' : HalSystem) : Prop where
  mem : st'.mem = call.written st.mem
  dma : st'.dma = st.dma
  ready : HalReady st'

/-- A transfer that uses no engine writes the bytes of its source. -/
theorem Transfer.wroteOnly {t : Transfer} (ready : HalReady st) (inside : t.InRegions)
    (ran : t.call.exec st = some (answer, st')) : WroteOnly t.call st st' := by
  have hapart : ¬ t.CopiesOntoItself := by
    intro honto
    rw [t.exec_eq_none ready inside honto] at ran
    simp at ran
  obtain ⟨noc, hfree, hexec⟩ := t.exec_eq ready inside hapart
  obtain ⟨-, rfl⟩ := Prod.mk.inj (Option.some.inj (ran.symm.trans hexec))
  refine ⟨?_, rfl, Transfer.ready_returned ready hfree _⟩
  have htarget : t.call.target = t.dstAddr := by
    unfold Transfer.call
    cases t.kind <;> rfl
  have hcount : t.call.count = t.length := by
    obtain ⟨kind, src, dst, size⟩ := t
    cases kind <;> rfl
  have hbyte : ∀ m, t.call.byte m = fun i =>
      regionByte m (t.srcAddr + BitVec.ofNat 64 i) := by
    intro m
    unfold Transfer.call
    cases t.kind <;> rfl
  rw [HalCall.written, htarget, hcount, hbyte]
  change Copy.apply st.mem t.copy = _
  rw [Copy.apply]
  refine Memory.put_congr fun i hi => ?_
  -- a byte is copied, so the size is not zero
  have hi' : i < t.size.toNat := hi.trans_le t.length_le
  obtain ⟨r, hsrc⟩ := inside.src.contains fun hzero => by
    rw [hzero] at hi'
    exact absurd hi' (Nat.not_lt_zero i)
  exact (hsrc.regionByte_add st.mem hi').symm

/-- An accepted access to one range is made at the translated address. -/
theorem onHal_memoryAccess_eq {buffer : Option (List Byte)}
    {access : Ptr Buffer → Mem → Option (Option (List Byte) × Mem)} {r : Region}
    (ready : HalReady st) (inside : r.Contains addr size) :
    st.onHal (memoryAccess true addr size buffer access) =
      (access (addrToPtr platformAfterSetup addr) st.mem).map fun out =>
        (⟨intOfSize size, out.1⟩, ⟨st.toHalState.returned out.2, st.noc⟩) := by
  simp only [HalSystem.onHal, memoryAccess, Transfer.lock_eq ready, Option.bind_eq_bind,
    Option.bind_some, Transfer.addrToPtr_eq ready]
  rw [inside.validateAddress_eq, if_neg (by decide), if_neg (by decide),
    if_neg inside.ptr_ne_null]
  cases access (addrToPtr platformAfterSetup addr) st.mem with
  | none => rfl
  | some out => rfl

/-- A rejected access changes nothing. -/
theorem onHal_memoryAccess_rejected {argumentsOk : Bool} {buffer : Option (List Byte)}
    {access : Ptr Buffer → Mem → Option (Option (List Byte) × Mem)} (ready : HalReady st)
    (rejected : argumentsOk = false ∨ size = 0) :
    st.onHal (memoryAccess argumentsOk addr size buffer access) =
      some (⟨-1, buffer⟩, ⟨st.toHalState.returned st.mem, st.noc⟩) := by
  simp only [HalSystem.onHal, memoryAccess, Transfer.lock_eq ready, Option.bind_eq_bind,
    Option.bind_some]
  obtain rfl | rfl := rejected
  · rfl
  · rw [validateAddress_zero, Bool.not_false, if_pos rfl, ite_self]
    rfl

/-- The functions that access one range: they are rejected, or they access memory at the
translated address. -/
theorem memoryAccess_cases {argumentsOk : Bool} {buffer : Option (List Byte)}
    {access : Ptr Buffer → Mem → Option (Option (List Byte) × Mem)} (ready : HalReady st)
    (inside : InRegion addr size)
    (ran : st.onHal (memoryAccess argumentsOk addr size buffer access) = some (answer, st')) :
    ((argumentsOk = false ∨ size = 0) ∧
        st' = ⟨st.toHalState.returned st.mem, st.noc⟩) ∨
      argumentsOk = true ∧ ∃ r : Region, r.Contains addr size ∧ ∃ out mem,
        access (addrToPtr platformAfterSetup addr) st.mem = some (out, mem) ∧
          st' = ⟨st.toHalState.returned mem, st.noc⟩ := by
  by_cases hrejected : argumentsOk = false ∨ size = 0
  · rw [onHal_memoryAccess_rejected ready hrejected] at ran
    exact .inl ⟨hrejected, (Prod.mk.inj (Option.some.inj ran)).2.symm⟩
  · obtain ⟨hok, hsize⟩ := not_or.mp hrejected
    obtain ⟨r, hr⟩ := inside.contains hsize
    rw [Bool.not_eq_false] at hok
    subst hok
    rw [onHal_memoryAccess_eq ready hr] at ran
    obtain ⟨⟨out, mem⟩, haccess, hresult⟩ := Option.map_eq_some_iff.mp ran
    exact .inr ⟨rfl, r, hr, out, mem, haccess, (Prod.mk.inj hresult).2.symm⟩

/-- What is left to show of a function that accesses one range. -/
theorem WroteOnly.of_memoryAccess {call : HalCall} {argumentsOk : Bool}
    {buffer : Option (List Byte)}
    {access : Ptr Buffer → Mem → Option (Option (List Byte) × Mem)} (ready : HalReady st)
    (inside : InRegion addr size)
    (ran : st.onHal (memoryAccess argumentsOk addr size buffer access) = some (answer, st'))
    (rejected : argumentsOk = false ∨ size = 0 → call.count = 0)
    (accessed : argumentsOk = true → ∀ r : Region, r.Contains addr size → ∀ out mem,
      access (addrToPtr platformAfterSetup addr) st.mem = some (out, mem) →
        mem = call.written st.mem) : WroteOnly call st st' := by
  obtain ⟨hrejected, rfl⟩ | ⟨hok, r, hr, out, mem, haccess, rfl⟩ :=
    memoryAccess_cases ready inside ran
  · refine ⟨?_, rfl, Transfer.ready_returned ready ready.arbitration_free _⟩
    rw [HalCall.written, rejected hrejected, Memory.put_zero]
    rfl
  · exact ⟨accessed hok r hr out mem haccess, rfl,
      Transfer.ready_returned ready ready.arbitration_free _⟩

theorem refMemoryRead_wroteOnly {buffer : Option (List Byte)} (ready : HalReady st)
    (inside : InRegion addr size)
    (ran : HalCall.exec st (.memoryRead addr buffer size) = some (answer, st')) :
    WroteOnly (.memoryRead addr buffer size) st st' := by
  refine .of_memoryAccess ready inside ran (fun _ => rfl) fun _ r hr out mem haccess => ?_
  simp only [Option.bind_eq_bind, Option.bind_eq_some_iff] at haccess
  obtain ⟨target, -, bytes, -, hread⟩ := haccess
  split_ifs at hread
  obtain ⟨-, rfl⟩ := Prod.mk.inj (Option.some.inj hread)
  exact (Memory.put_zero _).symm

theorem refMemoryWrite_wroteOnly {buffer : Option (List Byte)} (ready : HalReady st)
    (inside : InRegion addr size)
    (ran : HalCall.exec st (.memoryWrite addr buffer size) = some (answer, st')) :
    WroteOnly (.memoryWrite addr buffer size) st st' := by
  refine .of_memoryAccess ready inside ran (fun hrejected => ?_)
    fun hok r hr out mem haccess => ?_
  · simp only [HalCall.count]
    obtain hnull | rfl := hrejected
    · cases buffer with
      | none => rfl
      | some source =>
        obtain rfl : size = 0 := by simpa using hnull
        rfl
    · exact ite_self _
  · simp only [Option.bind_eq_bind, Option.bind_eq_some_iff] at haccess
    obtain ⟨source, rfl, hwrite⟩ := haccess
    split_ifs at hwrite with hlong
    obtain ⟨stored, hstore, hresult⟩ := Option.bind_eq_some_iff.mp hwrite
    obtain ⟨-, rfl⟩ := Prod.mk.inj (Option.some.inj hresult)
    have hlength : (source.take size.toNat).length = size.toNat :=
      List.length_take_of_le hlong
    rw [Memory.store, hlength, if_pos (hr.within_addrToPtr le_rfl)] at hstore
    rw [← Option.some.inj hstore]
    refine Memory.put_congr fun i hi => ?_
    simp only [HalCall.byte, Option.getD_some, List.getD_eq_getElem?_getD,
      List.getElem?_take_of_lt hi]

theorem refMemoryFill_wroteOnly {value : Byte} (ready : HalReady st)
    (inside : InRegion addr size)
    (ran : HalCall.exec st (.memoryFill addr value size) = some (answer, st')) :
    WroteOnly (.memoryFill addr value size) st st' := by
  refine .of_memoryAccess ready inside ran (fun hrejected => ?_)
    fun _ r hr out mem haccess => ?_
  · obtain hempty | rfl := hrejected
    · obtain rfl : size = 0 := by simpa using hempty
      rfl
    · rfl
  · simp only [fillPattern, fillByte_eq, Memory.foldlM_storeByte (hr.within_addrToPtr le_rfl),
      Option.bind_eq_bind, Option.bind_some, Option.some.injEq, Prod.mk.injEq] at haccess
    exact haccess.2.symm

theorem refMemorySet_wroteOnly {value : Byte} (ready : HalReady st)
    (inside : InRegion addr size)
    (ran : HalCall.exec st (.memorySet addr value size) = some (answer, st')) :
    WroteOnly (.memorySet addr value size) st st' := by
  refine .of_memoryAccess ready inside ran (fun hrejected => ?_)
    fun _ r hr out mem haccess => ?_
  · obtain hempty | rfl := hrejected
    · obtain rfl : size = 0 := by simpa using hempty
      rfl
    · rfl
  · simp only [Memory.memset, if_pos (hr.within_addrToPtr le_rfl), Option.bind_eq_bind,
      Option.bind_some, Option.some.injEq, Prod.mk.injEq] at haccess
    exact haccess.2.symm

/-- Bytes set inside a region instance. -/
theorem refMemorySet_defined {value : Byte} {r : Region} (ready : HalReady st)
    (inside : r.Contains addr size) :
    ∃ answer st', HalCall.exec st (.memorySet addr value size) = some (answer, st') := by
  have hok : (size != 0) = true := bne_iff_ne.mpr inside.1
  rw [HalCall.exec, refMemorySet, hok, onHal_memoryAccess_eq ready inside, Memory.memset,
    if_pos (inside.within_addrToPtr le_rfl)]
  exact ⟨_, _, rfl⟩

/-- What any call other than a local transfer writes. -/
theorem HalCall.wroteOnly {call : HalCall} (ready : HalReady st) (inside : call.InRegions)
    (other : call.isLocal = false) (ran : call.exec st = some (answer, st')) :
    WroteOnly call st st' := by
  cases call with
  | cpuLocalMove srcAddr dstAddr size =>
    exact Transfer.wroteOnly (t := ⟨.cpuLocalMove, srcAddr, dstAddr, size⟩) ready
      ⟨inside.1, inside.2⟩ ran
  | dmaLocalTransfer tileId srcAddr dstAddr size => simp [isLocal] at other
  | dmaRemoteTransfer srcAddr dstAddr size =>
    exact Transfer.wroteOnly (t := ⟨.dmaRemoteTransfer, srcAddr, dstAddr, size⟩) ready
      ⟨inside.1, inside.2⟩ ran
  | dmemToDmemTransfer srcAddr dstAddr size =>
    exact Transfer.wroteOnly (t := ⟨.dmemToDmemTransfer, srcAddr, dstAddr, size⟩) ready
      ⟨inside.1, inside.2⟩ ran
  | memoryRead addr buffer size => exact refMemoryRead_wroteOnly ready inside ran
  | memoryWrite addr buffer size => exact refMemoryWrite_wroteOnly ready inside ran
  | memoryFill addr value size => exact refMemoryFill_wroteOnly ready inside ran
  | memorySet addr value size => exact refMemorySet_wroteOnly ready inside ran

/-- A local transfer is rejected, or it is one of a tile on ranges of that tile. -/
theorem refDmaLocalTransfer_cases {tileId : ℤ} {src dst : Addr} (ready : HalReady st)
    (hsrc : InRegion src size) (hdst : InRegion dst size)
    (ran : HalCall.exec st (.dmaLocalTransfer tileId src dst size) = some (answer, st')) :
    st' = ⟨st.toHalState.returned st.mem, st.noc⟩ ∨
      ∃ tile : Fin 8, LocalRanges tile src dst size ∧ ¬ RangesMeet src size dst size ∧
        st' = ⟨{ st.toHalState with
            dma := st.transferredDma tile src dst size
            mem := st.transferred tile src dst size }.unlock, st.noc⟩ := by
  rcases dmaLocalTransfer_cases st tileId hsrc hdst with hrejected | ⟨tile, rfl, ranges⟩
  -- a rejected transfer leaves the driver and memory as they are
  · rw [refDmaLocalTransfer_rejected ready hrejected] at ran
    exact .inl (Prod.mk.inj (Option.some.inj ran)).2.symm
  · have hapart : ¬ RangesMeet src size dst size := by
      intro meet
      rw [refDmaLocalTransfer_eq_none ready ranges meet] at ran
      simp at ran
    rw [refDmaLocalTransfer_eq ready ranges hapart] at ran
    exact .inr ⟨tile, ranges, hapart, (Prod.mk.inj (Option.some.inj ran)).2.symm⟩

end Effect

/-! ### The registers between calls -/

/-- Byte `k` of the registers that the handle of a tile points at. -/
def HalSystem.engineByte (st : HalSystem) (tile : Fin 8) (k : ℕ) : Byte :=
  st.mem.get ((st.dma.handles tile).inst.add k)

/-- No engine is busy. -/
def EnginesIdle (st : HalSystem) : Prop :=
  ∀ tile : Fin 8, halDmac512IsBusy (st.dma.handles tile) st.mem = some false

/-- The control and status registers of every engine, the first eight bytes, are the same
in two states. -/
def RegistersKept (st st' : HalSystem) : Prop :=
  ∀ tile : Fin 8, ∀ k < 8, st'.engineByte tile k = st.engineByte tile k

/-- The engines are idle in every state a run of calls reaches, and no call other than a
local transfer changes a control or status register. A run ends at an undefined call. -/
def IdleRun (st : HalSystem) : List HalCall → Prop
  | [] => EnginesIdle st
  | call :: rest => EnginesIdle st ∧
    match call.exec st with
    | none => True
    | some (_, st') => (call.isLocal = false → RegistersKept st st') ∧ IdleRun st' rest

/-- Where the call writes to a control or status register, it writes what is there. -/
def HalCall.SparesRegisters (call : HalCall) (m : Mem) : Prop :=
  ∀ tile : Fin 8, ∀ k < 8, ∀ i < call.count,
    call.target + BitVec.ofNat 64 i = regAddr tile k →
      call.byte m i = regionByte m (regAddr tile k)

/-- Every call of the run, but the local transfers, spares the registers in the state it is
made in. -/
def SparingRun (st : HalSystem) : List HalCall → Prop
  | [] => True
  | call :: rest =>
    match call.exec st with
    | none => True
    | some (_, st') =>
      (call.isLocal = false → call.SparesRegisters st.mem) ∧ SparingRun st' rest

section Registers

variable {st st' : HalSystem} {answer : HalAnswer} {call : HalCall} {tile : Fin 8} {k : ℕ}

theorem HalReady.engineByte_eq (ready : HalReady st) (hk : k < dmac512RegSize) :
    st.engineByte tile k = regionByte st.mem (regAddr tile k) := by
  rw [HalSystem.engineByte, ready.inst tile tile.isLt, regionByte, addrToPtr_regAddr tile hk]

/-- Idle engines, in terms of the busy bits. -/
theorem HalReady.enginesIdle_iff (ready : HalReady st) : EnginesIdle st ↔
    ∀ tile : Fin 8, (regionByte st.mem (regAddr tile 0x05)).getLsbD 0 = false := by
  have hbusy : ∀ tile : Fin 8, halDmac512IsBusy (st.dma.handles tile) st.mem =
      some ((regionByte st.mem (regAddr tile 0x05)).getLsbD 0) := by
    intro tile
    have hinst := ready.inst tile tile.isLt
    rw [halDmac512IsBusy_eq (hinst ▸ dmaRegsPtr_within tile), hinst, regionByte,
      addrToPtr_regAddr tile (by decide)]
  exact forall_congr' fun tile => by rw [hbusy tile, Option.some.injEq]

theorem HalCall.count_le (call : HalCall) : call.count ≤ call.size.toNat := by
  cases call with
  | memoryWrite addr buffer size =>
    simp only [count, HalCall.size]
    split_ifs
    · exact le_rfl
    · exact Nat.zero_le _
  | cpuLocalMove srcAddr dstAddr size => exact Transfer.length_le _
  | dmaRemoteTransfer srcAddr dstAddr size => exact Transfer.length_le _
  | dmemToDmemTransfer srcAddr dstAddr size => exact Transfer.length_le _
  | dmaLocalTransfer tileId srcAddr dstAddr size => exact Nat.zero_le _
  | memoryRead addr buffer size => exact Nat.zero_le _
  | memoryFill addr value size => exact le_rfl
  | memorySet addr value size => exact le_rfl

theorem HalCall.InRegions.target (inside : call.InRegions) :
    InRegion call.target call.size := by
  cases call with
  | cpuLocalMove srcAddr dstAddr size => exact inside.2
  | dmaLocalTransfer tileId srcAddr dstAddr size => exact inside.2
  | dmaRemoteTransfer srcAddr dstAddr size => exact inside.2
  | dmemToDmemTransfer srcAddr dstAddr size => exact inside.2
  | memoryRead addr buffer size => exact inside
  | memoryWrite addr buffer size => exact inside
  | memoryFill addr value size => exact inside
  | memorySet addr value size => exact inside

/-- A byte that the call writes. -/
theorem HalCall.regionByte_written (inside : call.InRegions) (m : Mem) {i : ℕ}
    (hi : i < call.count) :
    regionByte (call.written m) (call.target + BitVec.ofNat 64 i) = call.byte m i := by
  obtain ⟨r, hr⟩ := inside.target.contains fun hzero => by
    have := hi.trans_le call.count_le
    rw [hzero] at this
    exact absurd this (Nat.not_lt_zero i)
  rw [written, hr.regionByte_put _ hi call.count_le]

/-- A byte of a region that it does not write. -/
theorem HalCall.regionByte_written_of_ne {r : Region} {a : Addr} (inside : call.InRegions)
    (covers : r.Covers a) (m : Mem)
    (other : ∀ i < call.count, call.target + BitVec.ofNat 64 i ≠ a) :
    regionByte (call.written m) a = regionByte m a := by
  by_cases hsize : call.size = 0
  · have hcount : call.count = 0 := by
      have := call.count_le
      rw [hsize] at this
      exact Nat.le_zero.mp this
    rw [written, hcount, Memory.put_zero]
  · obtain ⟨s, hs⟩ := inside.target.contains hsize
    exact hs.regionByte_put_of_ne _ covers call.count_le fun i hi same => other i hi same.symm

/-- A call keeps the control and status registers exactly when it spares them. -/
theorem registersKept_iff (ready : HalReady st) (inside : call.InRegions)
    (wrote : WroteOnly call st st') : RegistersKept st st' ↔ call.SparesRegisters st.mem := by
  have hbytes : RegistersKept st st' ↔ ∀ tile : Fin 8, ∀ k < 8,
      regionByte (call.written st.mem) (regAddr tile k) =
        regionByte st.mem (regAddr tile k) := by
    refine forall_congr' fun tile => forall₂_congr fun k hk => ?_
    have hk' : k < dmac512RegSize := hk.trans (by decide)
    rw [wrote.ready.engineByte_eq hk', ready.engineByte_eq hk', wrote.mem]
  rw [hbytes]
  constructor
  · intro kept tile k hk i hi hsame
    rw [← kept tile k hk, ← hsame, call.regionByte_written inside _ hi]
  · intro spares tile k hk
    by_cases hreached : ∃ i < call.count, call.target + BitVec.ofNat 64 i = regAddr tile k
    · obtain ⟨i, hi, hsame⟩ := hreached
      rw [← spares tile k hk i hi hsame, ← hsame, call.regionByte_written inside _ hi]
    · have hk' : k < dmac512RegSize := hk.trans (by decide)
      exact call.regionByte_written_of_ne inside (regAddr_covers tile hk') _
        fun i hi same => hreached ⟨i, hi, same⟩

/-- Kept registers keep the engines idle. -/
theorem EnginesIdle.of_kept (idle : EnginesIdle st) (ready : HalReady st)
    (ready' : HalReady st') (kept : RegistersKept st st') : EnginesIdle st' := by
  rw [ready'.enginesIdle_iff]
  rw [ready.enginesIdle_iff] at idle
  intro tile
  have hbyte := kept tile 0x05 (by decide)
  rw [ready'.engineByte_eq (by decide), ready.engineByte_eq (by decide)] at hbyte
  rw [hbyte]
  exact idle tile

/-- A register of another tile is in no range and no engine of this one. -/
theorem LocalRanges.regionByte_transferred_other {src dst size : Addr} {other : Fin 8}
    (ranges : LocalRanges tile src dst size) (hne : other ≠ tile) (hk : k < dmac512RegSize) :
    regionByte (st.transferred tile src dst size) (regAddr other k) =
      regionByte st.mem (regAddr other k) := by
  obtain ⟨r, -, hsrc⟩ := ranges.src
  obtain ⟨s, hs, hdst⟩ := ranges.dst
  have hcovers := regAddr_covers other hk
  have hregs : ∀ j < dmac512RegSize, regAddr other k ≠ regAddr tile j := by
    intro j hj same
    have hvalue := congrArg BitVec.toNat same
    have hsize : dmac512RegSize = 0x50 := rfl
    rw [regAddr_toNat other hk, regAddr_toNat tile hj] at hvalue
    exact hne (Fin.ext (by omega))
  have houtside : ¬ RangeHas dst size (regAddr other k) := by
    intro inside
    obtain ⟨i, hi, hsame⟩ := hdst.exists_index inside
    have hregion := (hdst.covers_add hi).unique (hsame ▸ hcovers)
    rw [hregion] at hs
    exact hne (Fin.ext (by simpa [Region.tileId] using hs))
  rw [regionByte_transferred_of_ne hsrc hdst hcovers hregs, movedByte_of_not _ houtside]
  exact regionByte_programmed_of_ne hcovers hregs

/-- A local transfer leaves the engine of its tile idle and touches no other. -/
theorem EnginesIdle.of_transferred {src dst size : Addr} (idle : EnginesIdle st)
    (ready : HalReady st) (ready' : HalReady st') (ranges : LocalRanges tile src dst size)
    (mem : st'.mem = st.transferred tile src dst size) : EnginesIdle st' := by
  obtain ⟨r, -, hsrc⟩ := ranges.src
  obtain ⟨s, -, hdst⟩ := ranges.dst
  rw [ready'.enginesIdle_iff, mem]
  rw [ready.enginesIdle_iff] at idle
  intro other
  by_cases hsame : other = tile
  · rw [hsame, regionByte_transferred_regAddr hsrc hdst (by decide)]
    exact reportedByte_busy _
  · rw [ranges.regionByte_transferred_other hsame (by decide)]
    exact idle other

/-- The state behind a local transfer is ready for the next call. -/
theorem HalReady.transferred {src dst size : Addr} (ready : HalReady st) :
    HalReady ⟨{ st.toHalState with
      dma := st.transferredDma tile src dst size
      mem := st.transferred tile src dst size }.unlock, st.noc⟩ := by
  have hhandle : ∀ i, (st.transferredDma tile src dst size).handles i =
      if i = tile then ⟨dmaRegsPtr tile, st.transferInit tile src dst size⟩
      else st.dma.handles i := fun i => Function.update_apply _ _ _ _
  refine ⟨ready.platform, ready.platform_set, rfl, ready.initialized, fun i hi => ?_,
    fun i hi => ?_, ready.arbitration_free⟩
  · change ((st.transferredDma tile src dst size).handles i).inst = _
    rw [hhandle]
    split_ifs with h
    · rw [h]
    · exact ready.inst i hi
  · change ((st.transferredDma tile src dst size).handles i).init.dobBeat = _ ∧
      ((st.transferredDma tile src dst size).handles i).init.dfbBeat = _ ∧
        ((st.transferredDma tile src dst size).handles i).init.dmacMode = _
    rw [hhandle]
    split_ifs with h
    · exact ready.configuration tile tile.isLt
    · exact ready.configuration i hi

/-- One call, from a state in which the engines are idle: with idle engines it ends, if it
is a local transfer or keeps the registers. -/
theorem HalCall.step_idle (ready : HalReady st) (idle : EnginesIdle st)
    (inside : call.InRegions) (ran : call.exec st = some (answer, st')) :
    HalReady st' ∧ ((call.isLocal = false → RegistersKept st st') → EnginesIdle st') ∧
      ((call.isLocal = false → RegistersKept st st') ↔
        (call.isLocal = false → call.SparesRegisters st.mem)) := by
  cases hlocal : call.isLocal with
  | false =>
    have wrote := call.wroteOnly ready inside hlocal ran
    exact ⟨wrote.ready, fun kept => idle.of_kept ready wrote.ready (kept rfl),
      forall_congr' fun _ => registersKept_iff ready inside wrote⟩
  | true =>
    refine ⟨?_, fun _ => ?_, iff_of_true (by simp) (by simp)⟩ <;>
      cases call <;> simp only [isLocal, Bool.false_eq_true] at hlocal <;>
        obtain rfl | ⟨tile, ranges, -, rfl⟩ :=
          refDmaLocalTransfer_cases ready inside.1 inside.2 ran
    · exact Transfer.ready_returned ready ready.arbitration_free _
    · exact ready.transferred
    · have hready := Transfer.ready_returned ready ready.arbitration_free st.mem
      rw [hready.enginesIdle_iff]
      exact ready.enginesIdle_iff.mp idle
    · exact idle.of_transferred ready ready.transferred ranges rfl

end Registers

/-! ### Runs -/

/-- From a state with idle engines. -/
theorem idleRun_iff_of_ready {st : HalSystem} (ready : HalReady st) (idle : EnginesIdle st)
    {calls : List HalCall} (inside : ∀ call ∈ calls, call.InRegions) :
    IdleRun st calls ↔ SparingRun st calls := by
  induction calls generalizing st with
  | nil => exact iff_of_true idle trivial
  | cons call rest ih =>
    simp only [IdleRun, SparingRun]
    rw [and_iff_right idle]
    cases hran : call.exec st with
    | none => exact Iff.rfl
    | some outcome =>
      obtain ⟨answer, st'⟩ := outcome
      obtain ⟨hready, hidle, hkept⟩ :=
        call.step_idle ready idle (inside call List.mem_cons_self) hran
      have hrest := fun h => ih hready (hidle h)
        fun later hlater => inside later (List.mem_cons_of_mem call hlater)
      -- the rest of the run is compared once this call has kept the registers
      rw [← hkept]
      exact and_congr_right hrest

/-- After set-up no engine is busy. -/
theorem enginesIdle_afterSetup {st : PlatformState} (setup : platformSetup = some st) :
    EnginesIdle (HalSystem.afterSetup st) := by
  rw [(halReady_afterSetup setup).enginesIdle_iff]
  obtain rfl := Option.some.inj (platformSetup_eq.symm.trans setup)
  intro tile
  rw [regionByte_eq_apply (regAddr_covers tile (by decide))]
  exact BitVec.getLsbD_zero

/-- From the state `platform_setup` leaves, the engines are idle in every state a run of
calls reaches, the registers being changed by local transfers only, if and only if every
other call writes to a control or status register just what the register holds. Both sides
end with the first call that is undefined. -/
theorem idleRun_iff {st : PlatformState} (setup : platformSetup = some st)
    {calls : List HalCall} (inside : ∀ call ∈ calls, call.InRegions) :
    IdleRun (HalSystem.afterSetup st) calls ↔ SparingRun (HalSystem.afterSetup st) calls :=
  idleRun_iff_of_ready (halReady_afterSetup setup) (enginesIdle_afterSetup setup) inside

/-- A local transfer, and a write to the memory of another tile. -/
theorem idleRun_iff_pair : ∃ st, platformSetup = some st ∧
    (IdleRun (HalSystem.afterSetup st) [.dmaLocalTransfer 0 0x0 0x8000 16,
        .memorySet 0x100000 1 8] ↔
      SparingRun (HalSystem.afterSetup st) [.dmaLocalTransfer 0 0x0 0x8000 16,
        .memorySet 0x100000 1 8]) := by
  refine ⟨_, platformSetup_eq, idleRun_iff platformSetup_eq ?_⟩
  simp only [List.mem_cons, List.not_mem_nil, or_false, forall_eq_or_imp, forall_eq]
  exact ⟨⟨⟨.dlm64 0, by decide⟩, ⟨.dlm1_512 0, by decide⟩⟩, ⟨.dlm64 1, by decide⟩⟩

/-- Four bytes set at the address of the status register of tile 0: the engine is busy. -/
theorem not_idleRun_memorySet : ∃ st, platformSetup = some st ∧
    HalCall.InRegions (.memorySet 0xF004 0xFF 4) ∧
      ¬ IdleRun (HalSystem.afterSetup st) [.memorySet 0xF004 0xFF 4] := by
  have ready := halReady_afterSetup platformSetup_eq
  have inside : HalCall.InRegions (.memorySet 0xF004 0xFF 4) := ⟨.dlm1_512 0, by decide⟩
  refine ⟨_, platformSetup_eq, inside, fun run => ?_⟩
  have hcontains : (Region.dlm1_512 0).Contains 0xF004 4 := by decide
  obtain ⟨_, st', hran⟩ : ∃ answer st', HalCall.exec _ (.memorySet 0xF004 0xFF 4) =
    some (answer, st') := refMemorySet_defined ready hcontains
  have sparing := (idleRun_iff_of_ready ready (enginesIdle_afterSetup platformSetup_eq)
    (by simpa using inside)).mp run
  simp only [SparingRun, hran] at sparing
  have spared := sparing.1 rfl 0 4 (by decide) 0 (by decide) (by decide)
  rw [regionByte_eq_apply (regAddr_covers 0 (by decide))] at spared
  exact absurd spared (by decide)

end MeshNoc
