import MeshNoc.Hal.Dmac512
import MeshNoc.Lib.Registers

/-!
# Transfers of the DMAC512 engines

Programming an engine and running a transfer, from `hal/dma512/hal_dmac512.c` and
`hal/dma512/rvv_dmac512.h`. The engine is simulated: starting it copies the bytes at once.

## Main results

* `halDmac512ConfigureChannel_eq` — programming is four masked updates of the registers
* `halDmac512Transfer_eq` — an accepted transfer is programming, the copy and two more
  updates; its busy bit is raised before the copy and lowered behind it
-/

namespace MeshNoc

open Lib

/-! ### Registers and fields -/

def dmacSrcAddr : ℕ := 0x20
def dmacDstAddr : ℕ := 0x30
def dmacTotalXferCnt : ℕ := 0x40

/-- `sizeof(DMAC512_RegDef)`. -/
def dmac512RegSize : ℕ := 0x50

def dmac512CtrlDobBShift : ℕ := 20
def dmac512CtrlDfbBShift : ℕ := 16
def dmac512CtrlDmacModeShift : ℕ := 8
def dmac512CtrlDobBMask : BitVec 32 := 0x7 <<< dmac512CtrlDobBShift
def dmac512CtrlDfbBMask : BitVec 32 := 0x7 <<< dmac512CtrlDfbBShift
def dmac512CtrlDmacModeMask : BitVec 32 := 0x3 <<< dmac512CtrlDmacModeShift

def dmac512StatusDmacBusyShift : ℕ := 0

/-- `DMAC512_STATUS_DMAC_BUSY_MASK`: it uses the shift of the control register's mode. -/
def dmac512StatusDmacBusyMask : BitVec 32 := 0x1 <<< dmac512CtrlDmacModeShift

def dmac512IntrDmacIntrShift : ℕ := 0
def dmac512IntrDmacIntrMask : BitVec 32 := 0x1 <<< dmac512IntrDmacIntrShift

def dmac512SrcAddrShift : ℕ := 0
def dmac512SrcAddrMask : BitVec 32 := 0xFFFFFFFF <<< dmac512SrcAddrShift
def dmac512DstAddrShift : ℕ := 0
def dmac512DstAddrMask : BitVec 32 := 0xFFFFFFFF <<< dmac512DstAddrShift

def dmac512TotalXferCntDmacEnShift : ℕ := 31
def dmac512TotalXferCntShift : ℕ := 0
def dmac512TotalXferCntDmacEnMask : BitVec 32 := 0x1 <<< dmac512TotalXferCntDmacEnShift
def dmac512TotalXferCntMask : BitVec 32 := 0xFFFFFF <<< dmac512TotalXferCntShift

/-- The value of the enumerator. -/
def Dmac512DbB.code : Dmac512DbB → BitVec 32
  | axiTrans2 => 0
  | axiTrans4 => 1
  | axiTrans8 => 2
  | axiTrans16 => 3
  | axiTrans32 => 4
  | axiTrans64 => 5

/-- The value of the enumerator. -/
def Dmac512OpMode.code : Dmac512OpMode → BitVec 32
  | normalMode => 0

/-- `DMAC512_ENABLE_TRANSFERS`. -/
def dmac512EnableTransfers : BitVec 32 := 1

/-- The macros `SET_DMAC512_…` on a 32-bit register: the field of `mask` becomes `val`. -/
def setField (mask : BitVec 32) (shift : ℕ) (reg val : BitVec 32) : BitVec 32 :=
  (reg &&& ~~~mask) ||| (val <<< shift)

def setDmac512CtrlDobB : BitVec 32 → BitVec 32 → BitVec 32 :=
  setField dmac512CtrlDobBMask dmac512CtrlDobBShift

def setDmac512CtrlDfbB : BitVec 32 → BitVec 32 → BitVec 32 :=
  setField dmac512CtrlDfbBMask dmac512CtrlDfbBShift

def setDmac512CtrlMode : BitVec 32 → BitVec 32 → BitVec 32 :=
  setField dmac512CtrlDmacModeMask dmac512CtrlDmacModeShift

def setDmac512TotalXferCnt : BitVec 32 → BitVec 32 → BitVec 32 :=
  setField dmac512TotalXferCntMask dmac512TotalXferCntShift

def setDmac512DmacEn : BitVec 32 → BitVec 32 → BitVec 32 :=
  setField dmac512TotalXferCntDmacEnMask dmac512TotalXferCntDmacEnShift

/-- `SET_DMAC512_SRC_ADDR`: the mask is complemented as a 32-bit value, before it is
widened to the 64 bits of the register. -/
def setDmac512SrcAddr (reg val : BitVec 64) : BitVec 64 :=
  (reg &&& (~~~dmac512SrcAddrMask).setWidth 64) ||| (val <<< dmac512SrcAddrShift)

/-- `SET_DMAC512_DST_ADDR`. -/
def setDmac512DstAddr (reg val : BitVec 64) : BitVec 64 :=
  (reg &&& (~~~dmac512DstAddrMask).setWidth 64) ||| (val <<< dmac512DstAddrShift)

/-- `GET_DMAC512_STATUS_DMAC_BUSY`. -/
def getDmac512StatusDmacBusy (reg : BitVec 32) : BitVec 32 :=
  (reg &&& dmac512StatusDmacBusyMask) >>> dmac512StatusDmacBusyShift

/-! ### Transfers -/

/-- Read a 64-bit register, and write back what `f` makes of it. -/
def modifyReg64 (m : Mem) (reg : Ptr Buffer) (f : BitVec 64 → BitVec 64) : Option Mem := do
  let old ← m.load64 Buffer.size reg
  m.store64 Buffer.size reg (f old)

/-- `HAL_DMAC512ConfigureChannel`, for a handle that is not `NULL`. -/
def halDmac512ConfigureChannel (handle : Dmac512Handle) (m : Mem) : Option (ℤ × Mem) := do
  let regs := handle.inst
  let m ← modifyReg m (regs.add dmacControl) (setDmac512CtrlDobB · handle.init.dobBeat.code)
  let m ← modifyReg m (regs.add dmacControl) (setDmac512CtrlDfbB · handle.init.dfbBeat.code)
  let m ← modifyReg m (regs.add dmacControl) (setDmac512CtrlMode · handle.init.dmacMode.code)
  let m ← modifyReg64 m (regs.add dmacSrcAddr) (setDmac512SrcAddr · handle.init.srcAddr)
  let m ← modifyReg64 m (regs.add dmacDstAddr) (setDmac512DstAddr · handle.init.dstAddr)
  let m ← modifyReg m (regs.add dmacTotalXferCnt) (setDmac512TotalXferCnt · handle.init.xferCount)
  some (0, m)

/-- `HAL_DMAC512StartTransfers`. -/
def halDmac512StartTransfers (p : MeshPlatform) (handle : Dmac512Handle) (m : Mem) :
    Option Mem := do
  let regs := handle.inst
  let m ← modifyReg m (regs.add dmacTotalXferCnt) (setDmac512DmacEn · dmac512EnableTransfers)
  let srcAddr := handle.init.srcAddr
  let dstAddr := handle.init.dstAddr
  let size : Addr := handle.init.xferCount.setWidth 64
  let srcPtr := addrToPtr p srcAddr
  let dstPtr := addrToPtr p dstAddr
  if srcPtr ≠ .null ∧ dstPtr ≠ .null ∧
      validateAddress srcAddr size = true ∧ validateAddress dstAddr size = true then do
    let m ← m.memcpy Buffer.size dstPtr srcPtr size.toNat
    -- the transfer is complete: not busy, and an interrupt
    let m ← modifyReg m (regs.add dmacStatus) (· &&& ~~~dmac512StatusDmacBusyMask)
    modifyReg m (regs.add dmacIntr) (· ||| dmac512IntrDmacIntrMask)
  else
    modifyReg m (regs.add dmacStatus) (· ||| dmac512StatusDmacBusyMask)

/-- `HAL_DMAC512IsBusy`. -/
def halDmac512IsBusy (handle : Dmac512Handle) (m : Mem) : Option Bool := do
  let status ← m.load32 Buffer.size (handle.inst.add dmacStatus)
  some (getDmac512StatusDmacBusy status != 0)

/-- The parameters of the handle, configured for a transfer. -/
def transferInit (init : Dmac512Init) (srcAddr dstAddr size : Addr) : Dmac512Init :=
  { init with srcAddr := srcAddr, dstAddr := dstAddr, xferCount := size.setWidth 32 }

/-- `HAL_DMAC512Transfer`, for a handle that is not `NULL`. -/
def halDmac512Transfer (p : MeshPlatform) (handle : Dmac512Handle) (m : Mem)
    (srcAddr dstAddr size : Addr) : Option (ℤ × Dmac512Handle × Mem) :=
  if size = 0 ∨ 0xFFFFFF < size then some (-1, handle, m)
  else if !validateAddress srcAddr size || !validateAddress dstAddr size then
    some (-1, handle, m)
  else do
    let handle := { handle with init := transferInit handle.init srcAddr dstAddr size }
    let (configResult, m) ← halDmac512ConfigureChannel handle m
    if configResult ≠ 0 then some (-1, handle, m)
    else do
      let m ← modifyReg m (handle.inst.add dmacStatus) (· ||| dmac512StatusDmacBusyMask)
      let m ← halDmac512StartTransfers p handle m
      some ((size.setWidth 32).toInt, handle, m)

/-! ### What a transfer does to memory -/

section Registers

variable {m : Mem} {reg : Ptr Buffer}

theorem modifyReg_eq (within : reg.Within Buffer.size 4) (f : BitVec 32 → BitVec 32)
    (mask value : BitVec 32) (masked : ∀ word, f word = (word &&& ~~~mask) ||| value) :
    modifyReg m reg f = some (m.setBits reg 4 (byteOf mask) (byteOf value)) :=
  Memory.modify32_eq within f mask value masked

theorem modifyReg_setField (within : reg.Within Buffer.size 4) (mask : BitVec 32) (shift : ℕ)
    (val : BitVec 32) : modifyReg m reg (setField mask shift · val) =
      some (m.setBits reg 4 (byteOf mask) (byteOf (val <<< shift))) :=
  modifyReg_eq within _ mask (val <<< shift) fun _ => rfl

theorem modifyReg_or (within : reg.Within Buffer.size 4) (value : BitVec 32) :
    modifyReg m reg (· ||| value) =
      some (m.setBits reg 4 (byteOf (0 : BitVec 32)) (byteOf value)) := by
  refine modifyReg_eq within _ 0 value fun word => ?_
  have hall : ~~~(0 : BitVec 32) = BitVec.allOnes 32 := rfl
  rw [hall, BitVec.and_allOnes]

theorem modifyReg_and_not (within : reg.Within Buffer.size 4) (mask : BitVec 32) :
    modifyReg m reg (· &&& ~~~mask) =
      some (m.setBits reg 4 (byteOf mask) (byteOf (0 : BitVec 32))) :=
  modifyReg_eq within _ mask 0 fun _ => BitVec.or_zero.symm

/-- The two address registers are replaced as a whole: the complement of the 32-bit mask is
zero. -/
theorem setDmac512SrcAddr_eq (reg val : BitVec 64) : setDmac512SrcAddr reg val = val := by
  have hmask : (~~~dmac512SrcAddrMask).setWidth 64 = 0#64 := by decide
  rw [setDmac512SrcAddr, hmask, BitVec.and_zero, BitVec.zero_or]
  exact BitVec.shiftLeft_zero _

theorem setDmac512DstAddr_eq (reg val : BitVec 64) : setDmac512DstAddr reg val = val :=
  setDmac512SrcAddr_eq reg val

theorem modifyReg64_eq (within : reg.Within Buffer.size 8) (f : BitVec 64 → BitVec 64)
    (value : BitVec 64) (replaced : ∀ word, f word = value) :
    modifyReg64 m reg f = some (m.put reg 8 (byteOf value)) :=
  Memory.modify64_eq within f value replaced

end Registers

/-- The memory with the registers of the engine at `regs` configured. -/
def configured (regs : Ptr Buffer) (init : Dmac512Init) (m : Mem) : Mem :=
  let m := m.setBits (regs.add dmacControl) 4 (byteOf dmac512CtrlDobBMask)
    (byteOf (init.dobBeat.code <<< dmac512CtrlDobBShift))
  let m := m.setBits (regs.add dmacControl) 4 (byteOf dmac512CtrlDfbBMask)
    (byteOf (init.dfbBeat.code <<< dmac512CtrlDfbBShift))
  let m := m.setBits (regs.add dmacControl) 4 (byteOf dmac512CtrlDmacModeMask)
    (byteOf (init.dmacMode.code <<< dmac512CtrlDmacModeShift))
  let m := m.put (regs.add dmacSrcAddr) 8 (byteOf init.srcAddr)
  let m := m.put (regs.add dmacDstAddr) 8 (byteOf init.dstAddr)
  m.setBits (regs.add dmacTotalXferCnt) 4 (byteOf dmac512TotalXferCntMask)
    (byteOf (init.xferCount <<< dmac512TotalXferCntShift))

/-- The memory with the busy bit of the engine raised. -/
def markedBusy (regs : Ptr Buffer) (m : Mem) : Mem :=
  m.setBits (regs.add dmacStatus) 4 (byteOf (0 : BitVec 32)) (byteOf dmac512StatusDmacBusyMask)

/-- The memory with transfers of the engine enabled. -/
def dmacEnabled (regs : Ptr Buffer) (m : Mem) : Mem :=
  m.setBits (regs.add dmacTotalXferCnt) 4 (byteOf dmac512TotalXferCntDmacEnMask)
    (byteOf (dmac512EnableTransfers <<< dmac512TotalXferCntDmacEnShift))

/-- The memory with the engine at `regs` programmed and started, before the copy. -/
def programmed (regs : Ptr Buffer) (init : Dmac512Init) (m : Mem) : Mem :=
  dmacEnabled regs (markedBusy regs (configured regs init m))

/-- The memory with a finished transfer reported: the busy bit lowered, the interrupt
raised. -/
def reported (regs : Ptr Buffer) (m : Mem) : Mem :=
  let m := m.setBits (regs.add dmacStatus) 4 (byteOf dmac512StatusDmacBusyMask)
    (byteOf (0 : BitVec 32))
  m.setBits (regs.add dmacIntr) 4 (byteOf (0 : BitVec 32)) (byteOf dmac512IntrDmacIntrMask)

section Transfer

variable {p : MeshPlatform} {handle : Dmac512Handle} {m : Mem}

theorem halDmac512ConfigureChannel_eq (handle : Dmac512Handle) (m : Mem)
    (within : handle.inst.Within Buffer.size dmac512RegSize) :
    halDmac512ConfigureChannel handle m = some (0, configured handle.inst handle.init m) := by
  have hcontrol : (handle.inst.add dmacControl).Within Buffer.size 4 := within.sub (by decide)
  have hsrc : (handle.inst.add dmacSrcAddr).Within Buffer.size 8 := within.sub (by decide)
  have hdst : (handle.inst.add dmacDstAddr).Within Buffer.size 8 := within.sub (by decide)
  have hcount : (handle.inst.add dmacTotalXferCnt).Within Buffer.size 4 :=
    within.sub (by decide)
  simp only [halDmac512ConfigureChannel, setDmac512CtrlDobB, setDmac512CtrlDfbB,
    setDmac512CtrlMode, setDmac512TotalXferCnt, modifyReg_setField hcontrol,
    modifyReg_setField hcount, modifyReg64_eq hsrc _ _ fun _ => setDmac512SrcAddr_eq _ _,
    modifyReg64_eq hdst _ _ fun _ => setDmac512DstAddr_eq _ _, Option.bind_eq_bind,
    Option.bind_some]
  rfl

/-- Starting a transfer whose ranges are valid and translated. -/
theorem halDmac512StartTransfers_eq (handle : Dmac512Handle) (m : Mem)
    (within : handle.inst.Within Buffer.size dmac512RegSize) {size : Addr}
    (size_eq : handle.init.xferCount.setWidth 64 = size)
    (src_ptr : addrToPtr p handle.init.srcAddr ≠ .null)
    (dst_ptr : addrToPtr p handle.init.dstAddr ≠ .null)
    (src_valid : validateAddress handle.init.srcAddr size = true)
    (dst_valid : validateAddress handle.init.dstAddr size = true) :
    halDmac512StartTransfers p handle m =
      ((dmacEnabled handle.inst m).memcpy Buffer.size (addrToPtr p handle.init.dstAddr)
        (addrToPtr p handle.init.srcAddr) size.toNat).map (reported handle.inst) := by
  have hstatus : (handle.inst.add dmacStatus).Within Buffer.size 4 := within.sub (by decide)
  have hintr : (handle.inst.add dmacIntr).Within Buffer.size 4 := within.sub (by decide)
  have hcount : (handle.inst.add dmacTotalXferCnt).Within Buffer.size 4 :=
    within.sub (by decide)
  simp only [halDmac512StartTransfers, setDmac512DmacEn, modifyReg_setField hcount,
    modifyReg_and_not hstatus, modifyReg_or hintr, size_eq, Option.bind_eq_bind,
    Option.bind_some]
  rw [if_pos ⟨src_ptr, dst_ptr, src_valid, dst_valid⟩]
  rw [Option.map_eq_bind]
  rfl

/-- An accepted transfer programs the engine, copies and reports; nothing else. -/
theorem halDmac512Transfer_eq (handle : Dmac512Handle) (m : Mem)
    (within : handle.inst.Within Buffer.size dmac512RegSize)
    {srcAddr dstAddr size : Addr} (nonempty : size ≠ 0) (small : size.toNat ≤ 0xFFFFFF)
    (src_ptr : addrToPtr p srcAddr ≠ .null) (dst_ptr : addrToPtr p dstAddr ≠ .null)
    (src_valid : validateAddress srcAddr size = true)
    (dst_valid : validateAddress dstAddr size = true) {init : Dmac512Init}
    (init_eq : transferInit handle.init srcAddr dstAddr size = init) :
    halDmac512Transfer p handle m srcAddr dstAddr size =
      ((programmed handle.inst init m).memcpy Buffer.size (addrToPtr p dstAddr)
        (addrToPtr p srcAddr) size.toNat).map fun m =>
          ((size.setWidth 32).toInt, { handle with init := init }, reported handle.inst m) := by
  have hstatus : (handle.inst.add dmacStatus).Within Buffer.size 4 := within.sub (by decide)
  have hsrc : init.srcAddr = srcAddr := by rw [← init_eq]; rfl
  have hdst : init.dstAddr = dstAddr := by rw [← init_eq]; rfl
  -- the size survives the 32 bits of the handle
  have hsize : init.xferCount.setWidth 64 = size := by
    rw [← init_eq]
    apply BitVec.eq_of_toNat_eq
    simp only [transferInit, BitVec.toNat_setWidth]
    omega
  have hbounds : ¬ (size = 0 ∨ 0xFFFFFF < size) := by
    rintro (hzero | hlarge)
    · exact nonempty hzero
    · exact absurd (show 0xFFFFFF < size.toNat from hlarge) (by omega)
  subst hsrc hdst
  have hconfigure := halDmac512ConfigureChannel_eq { handle with init := init } m within
  have hstart := halDmac512StartTransfers_eq { handle with init := init }
    (markedBusy handle.inst (configured handle.inst init m)) within hsize src_ptr dst_ptr
    src_valid dst_valid
  rw [halDmac512Transfer, if_neg hbounds, src_valid, dst_valid, if_neg (by decide)]
  simp only [init_eq, hconfigure, Option.bind_eq_bind, Option.bind_some, ne_eq,
    not_true_eq_false, if_false, modifyReg_or hstatus]
  change (halDmac512StartTransfers p _ (markedBusy _ _)).bind _ = _
  rw [hstart, Option.map_eq_bind, Option.map_eq_bind, Option.bind_assoc]
  rfl

end Transfer

/-! ### The registers, byte by byte -/

/-- What byte `k` of the registers, `b` before, holds when the engine is started. -/
def programmedByte (init : Dmac512Init) (k : ℕ) (b : Byte) : Byte :=
  if k < 0x04 then
    let b := maskByte (byteOf dmac512CtrlDobBMask k)
      (byteOf (init.dobBeat.code <<< dmac512CtrlDobBShift) k) b
    let b := maskByte (byteOf dmac512CtrlDfbBMask k)
      (byteOf (init.dfbBeat.code <<< dmac512CtrlDfbBShift) k) b
    maskByte (byteOf dmac512CtrlDmacModeMask k)
      (byteOf (init.dmacMode.code <<< dmac512CtrlDmacModeShift) k) b
  else if k < 0x08 then
    maskByte (byteOf (0 : BitVec 32) (k - 0x04)) (byteOf dmac512StatusDmacBusyMask (k - 0x04)) b
  else if 0x20 ≤ k ∧ k < 0x28 then byteOf init.srcAddr (k - 0x20)
  else if 0x30 ≤ k ∧ k < 0x38 then byteOf init.dstAddr (k - 0x30)
  else if 0x40 ≤ k ∧ k < 0x44 then
    let b := maskByte (byteOf dmac512TotalXferCntMask (k - 0x40))
      (byteOf (init.xferCount <<< dmac512TotalXferCntShift) (k - 0x40)) b
    maskByte (byteOf dmac512TotalXferCntDmacEnMask (k - 0x40))
      (byteOf (dmac512EnableTransfers <<< dmac512TotalXferCntDmacEnShift) (k - 0x40)) b
  else b

/-- What byte `k` of the registers, `b` behind the copy, holds when the transfer has been
reported. -/
def reportedByte (k : ℕ) (b : Byte) : Byte :=
  if 0x04 ≤ k ∧ k < 0x08 then
    maskByte (byteOf dmac512StatusDmacBusyMask (k - 0x04)) (byteOf (0 : BitVec 32) (k - 0x04)) b
  else if 0x10 ≤ k ∧ k < 0x14 then
    maskByte (byteOf (0 : BitVec 32) (k - 0x10)) (byteOf dmac512IntrDmacIntrMask (k - 0x10)) b
  else b

section Bytes

variable {regs : Ptr Buffer} {m : Mem} {init : Dmac512Init}

theorem get_reported (block : regs.block ≠ none) (k : ℕ) :
    (reported regs m).get (regs.add k) = reportedByte k (m.get (regs.add k)) := by
  simp only [reported, reportedByte, Memory.get_setBits block, dmacStatus, dmacIntr]
  split_ifs <;> first | rfl | omega

theorem get_programmed (block : regs.block ≠ none) (k : ℕ) :
    (programmed regs init m).get (regs.add k) =
      programmedByte init k (m.get (regs.add k)) := by
  simp only [programmed, dmacEnabled, markedBusy, configured, programmedByte,
    Memory.get_put_add block, Memory.get_setBits block, dmacControl, dmacStatus, dmacSrcAddr,
    dmacDstAddr, dmacTotalXferCnt]
  -- the registers are apart: each byte is reached by the updates of its own register only
  by_cases hcontrol : k < 0x04
  · simp (disch := omega) only [if_pos, if_neg]
    rfl
  by_cases hstatus : k < 0x08
  · simp (disch := omega) only [if_pos, if_neg]
  by_cases hsrc : 0x20 ≤ k ∧ k < 0x28
  · simp (disch := omega) only [if_pos, if_neg]
  by_cases hdst : 0x30 ≤ k ∧ k < 0x38
  · simp (disch := omega) only [if_pos, if_neg]
  by_cases hcount : 0x40 ≤ k ∧ k < 0x44
  · simp (disch := omega) only [if_pos, if_neg]
  · simp (disch := omega) only [if_neg]

/-- Nothing outside the registers changes before the copy. -/
theorem programmed_apply_of_not_mem {b : Buffer} {i : ℕ}
    (outside : ¬ (regs.block = some b ∧ regs.offset ≤ i ∧ i < regs.offset + dmac512RegSize)) :
    programmed regs init m b i = m b i := by
  have hreg : ∀ k n, k + n ≤ dmac512RegSize → ¬ ((regs.add k).block = some b ∧
      (regs.add k).offset ≤ i ∧ i < (regs.add k).offset + n) := by
    rintro k n hk ⟨hblock, hlow, hhigh⟩
    rw [Ptr.add_offset] at hlow hhigh
    exact outside ⟨hblock, by omega, by omega⟩
  simp only [programmed, dmacEnabled, markedBusy, configured]
  rw [Memory.setBits_apply_of_not_mem (hreg _ _ (by decide)),
    Memory.setBits_apply_of_not_mem (hreg _ _ (by decide)),
    Memory.setBits_apply_of_not_mem (hreg _ _ (by decide)),
    Memory.put_apply_of_not_mem (hreg _ _ (by decide)),
    Memory.put_apply_of_not_mem (hreg _ _ (by decide)),
    Memory.setBits_apply_of_not_mem (hreg _ _ (by decide)),
    Memory.setBits_apply_of_not_mem (hreg _ _ (by decide)),
    Memory.setBits_apply_of_not_mem (hreg _ _ (by decide))]

/-- Nor behind it. -/
theorem reported_apply_of_not_mem {b : Buffer} {i : ℕ}
    (outside : ¬ (regs.block = some b ∧ regs.offset ≤ i ∧ i < regs.offset + dmac512RegSize)) :
    reported regs m b i = m b i := by
  have hreg : ∀ k, k + 4 ≤ dmac512RegSize → ¬ ((regs.add k).block = some b ∧
      (regs.add k).offset ≤ i ∧ i < (regs.add k).offset + 4) := by
    rintro k hk ⟨hblock, hlow, hhigh⟩
    rw [Ptr.add_offset] at hlow hhigh
    exact outside ⟨hblock, by omega, by omega⟩
  simp only [reported]
  rw [Memory.setBits_apply_of_not_mem (hreg _ (by decide)),
    Memory.setBits_apply_of_not_mem (hreg _ (by decide))]

end Bytes

/-! ### The bits that reporting a transfer decides -/

section Bits

variable {init : Dmac512Init} {b : Byte} {k : ℕ}

theorem maskByte_zero_zero : maskByte 0 0 b = b := by
  have hall : ~~~(0 : Byte) = BitVec.allOnes 8 := rfl
  rw [maskByte, hall, BitVec.and_allOnes]
  exact BitVec.or_zero

/-- Outside the second byte the busy mask is zero. -/
theorem byteOf_busyMask_of_ne {i : ℕ} (hi : i < 4) (ne : i ≠ 1) :
    byteOf dmac512StatusDmacBusyMask i = 0 := by
  have htable : ∀ i : Fin 4, i.val ≠ 1 → byteOf dmac512StatusDmacBusyMask i = 0 := by decide
  exact htable ⟨i, hi⟩ ne

/-- Outside the first byte the interrupt mask is zero. -/
theorem byteOf_intrMask_of_ne {i : ℕ} (hi : i < 4) (ne : i ≠ 0) :
    byteOf dmac512IntrDmacIntrMask i = 0 := by
  have htable : ∀ i : Fin 4, i.val ≠ 0 → byteOf dmac512IntrDmacIntrMask i = 0 := by decide
  exact htable ⟨i, hi⟩ ne

theorem byteOf_zero (w i : ℕ) : byteOf (0 : BitVec w) i = 0 := by
  ext j hj
  simp [byteOf]

/-- The busy bit is bit 0 of the second byte of the status, the interrupt bit that of the
first byte of the interrupt register; reporting a transfer changes nothing else. -/
theorem reportedByte_of_ne (busy : k ≠ 0x05) (intr : k ≠ 0x10) : reportedByte k b = b := by
  unfold reportedByte
  split_ifs with hstatus hintr
  · rw [byteOf_busyMask_of_ne (by omega) (by omega), byteOf_zero, maskByte_zero_zero]
  · rw [byteOf_intrMask_of_ne (by omega) (by omega), byteOf_zero, maskByte_zero_zero]
  · rfl

theorem reportedByte_busy (b : Byte) : (reportedByte 0x05 b).getLsbD 0 = false := by
  revert b
  decide

theorem reportedByte_intr (b : Byte) : (reportedByte 0x10 b).getLsbD 0 = true := by
  revert b
  decide

theorem reportedByte_busy_eq : ∀ b : Byte, b.getLsbD 0 = false → reportedByte 0x05 b = b := by
  decide

theorem reportedByte_intr_eq : ∀ b : Byte, b.getLsbD 0 = true → reportedByte 0x10 b = b := by
  decide

/-- Programming raises the busy bit. -/
theorem programmedByte_busy (init : Dmac512Init) (b : Byte) :
    (programmedByte init 0x05 b).getLsbD 0 = true := by
  change (maskByte _ _ b).getLsbD 0 = true
  revert b
  decide

theorem reportedByte_programmedByte_busy (init : Dmac512Init) :
    ∀ b : Byte, b.getLsbD 0 = false → reportedByte 0x05 (programmedByte init 0x05 b) = b := by
  change ∀ b : Byte, b.getLsbD 0 = false → reportedByte 0x05 (maskByte _ _ b) = b
  decide

/-- The other bytes of the status are not touched. -/
theorem programmedByte_status (low : 0x04 ≤ k) (high : k < 0x08) (busy : k ≠ 0x05) :
    programmedByte init k b = b := by
  rw [programmedByte, if_neg (by omega), if_pos high, byteOf_busyMask_of_ne (by omega) (by omega),
    byteOf_zero, maskByte_zero_zero]

end Bits

/-- The busy mask reads bit 8 of the status, and leaves it where it is. -/
theorem getDmac512StatusDmacBusy_eq (status : BitVec 32) :
    getDmac512StatusDmacBusy status = if status.getLsbD 8 then BitVec.twoPow 32 8 else 0#32 := by
  have hmask : dmac512StatusDmacBusyMask = BitVec.twoPow 32 8 := by decide
  have hshift : getDmac512StatusDmacBusy status = status &&& dmac512StatusDmacBusyMask :=
    BitVec.ushiftRight_zero _
  rw [hshift, hmask, BitVec.and_twoPow]

/-- The busy bit of a status word is bit 0 of its second byte. -/
theorem getDmac512StatusDmacBusy_ne_zero (status : BitVec 32) :
    (getDmac512StatusDmacBusy status != 0) = (byteOf status 1).getLsbD 0 := by
  have hbit : (byteOf status 1).getLsbD 0 = status.getLsbD 8 := by
    simp [byteOf]
  rw [getDmac512StatusDmacBusy_eq, hbit]
  cases status.getLsbD 8 <;> decide

theorem halDmac512IsBusy_eq {handle : Dmac512Handle} {m : Mem}
    (within : handle.inst.Within Buffer.size dmac512RegSize) :
    halDmac512IsBusy handle m = some ((m.get (handle.inst.add 0x05)).getLsbD 0) := by
  have hstatus : (handle.inst.add dmacStatus).Within Buffer.size 4 := within.sub (by decide)
  obtain ⟨status, hload⟩ : ∃ status, m.load32 Buffer.size (handle.inst.add dmacStatus) =
    some status := ⟨_, if_pos hstatus⟩
  rw [halDmac512IsBusy, hload, Option.bind_eq_bind, Option.bind_some,
    getDmac512StatusDmacBusy_ne_zero, Memory.byteOf_load32 hload (by decide)]
  rfl

end MeshNoc
