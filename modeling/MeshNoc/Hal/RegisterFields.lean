import MeshNoc.Hal.Dmac512Transfer
import MeshNoc.Lib.BitField

/-!
# The fields of the DMAC512 registers

The getter macros of `hal/dma512/rvv_dmac512.h`, beside the setters they belong to. A macro
is an expression over a register that it may assign, so a getter is modelled with the value it
yields and the register it leaves behind.

## Main results

* `Dmac512Field.readsBack_iff` — when a field reads back what was set, and reading changes
  nothing
* `getDmac512TotalXferCnt_snd` — reading the transfer count keeps the count alone, so it
  clears the enable bit
-/

namespace MeshNoc

open Lib

/-! ### The getters -/

/-- A getter that does not assign its argument. -/
def readField {w : ℕ} (mask : BitVec w) (shift : ℕ) (reg : BitVec w) : BitVec w × BitVec w :=
  ((reg &&& mask) >>> shift, reg)

def getDmac512DobB : BitVec 32 → BitVec 32 × BitVec 32 :=
  readField dmac512CtrlDobBMask dmac512CtrlDobBShift

def getDmac512DfbB : BitVec 32 → BitVec 32 × BitVec 32 :=
  readField dmac512CtrlDfbBMask dmac512CtrlDfbBShift

def getDmac512Mode : BitVec 32 → BitVec 32 × BitVec 32 :=
  readField dmac512CtrlDmacModeMask dmac512CtrlDmacModeShift

def getDmac512Rst : BitVec 32 → BitVec 32 × BitVec 32 :=
  readField dmac512CtrlDmacRstMask dmac512CtrlDmacRstShift

def getDmac512DmacIntrStatus : BitVec 32 → BitVec 32 × BitVec 32 :=
  readField dmac512IntrDmacIntrMask dmac512IntrDmacIntrShift

/-- `GET_DMAC512_SRC_ADDR`: the 32-bit mask is widened to the 64 bits of the register. -/
def getDmac512SrcAddr : BitVec 64 → BitVec 64 × BitVec 64 :=
  readField (dmac512SrcAddrMask.setWidth 64) dmac512SrcAddrShift

/-- `GET_DMAC512_DST_ADDR`. -/
def getDmac512DstAddr : BitVec 64 → BitVec 64 × BitVec 64 :=
  readField (dmac512DstAddrMask.setWidth 64) dmac512DstAddrShift

/-- `GET_DMAC512_TOTAL_XFER_CNT`: the macro assigns the register what it reads. -/
def getDmac512TotalXferCnt (reg : BitVec 32) : BitVec 32 × BitVec 32 :=
  let reg := (reg &&& dmac512TotalXferCntMask) >>> dmac512TotalXferCntShift
  (reg, reg)

/-! ### The masks as fields -/

theorem dmac512CtrlDobBMask_eq : dmac512CtrlDobBMask = fieldMask 32 3 dmac512CtrlDobBShift := by
  decide

theorem dmac512CtrlDfbBMask_eq : dmac512CtrlDfbBMask = fieldMask 32 3 dmac512CtrlDfbBShift := by
  decide

theorem dmac512CtrlDmacModeMask_eq :
    dmac512CtrlDmacModeMask = fieldMask 32 2 dmac512CtrlDmacModeShift := by
  decide

theorem dmac512CtrlDmacRstMask_eq :
    dmac512CtrlDmacRstMask = fieldMask 32 1 dmac512CtrlDmacRstShift := by
  decide

theorem dmac512IntrDmacIntrMask_eq :
    dmac512IntrDmacIntrMask = fieldMask 32 1 dmac512IntrDmacIntrShift := by
  decide

theorem dmac512TotalXferCntMask_eq :
    dmac512TotalXferCntMask = fieldMask 32 24 dmac512TotalXferCntShift := by
  decide

/-- Half of the 64 bits that the header documents. -/
theorem dmac512SrcAddrMask_eq : dmac512SrcAddrMask.setWidth 64 = fieldMask 64 32 0 := by
  decide

/-- What reading the transfer count leaves: the count, and nothing above it. -/
theorem getDmac512TotalXferCnt_snd (reg : BitVec 32) :
    (getDmac512TotalXferCnt reg).2 = (reg.extractLsb' 0 24).setWidth 32 := by
  change getField dmac512TotalXferCntMask _ reg = _
  rw [dmac512TotalXferCntMask_eq]
  exact getField_eq (by decide) reg

/-! ### Setting and reading back -/

/-- The fields that the header documents with a getter. -/
inductive Dmac512Field
  | dobB
  | dfbB
  | mode
  | rst
  | busy
  | intr
  | srcAddr
  | dstAddr
  | totalXferCnt
  deriving DecidableEq, Repr

namespace Dmac512Field

/-- Bits of the register. -/
def regWidth : Dmac512Field → ℕ
  | srcAddr | dstAddr => 64
  | _ => 32

/-- Bits of the field, as the header's comments give them. -/
def width : Dmac512Field → ℕ
  | dobB | dfbB => 3
  | mode => 2
  | rst | busy | intr => 1
  | srcAddr | dstAddr => 64
  | totalXferCnt => 24

/-- The register with the field set. No macro sets the busy and the interrupt bit: they are
set at the position their shift documents. -/
def set : (f : Dmac512Field) → BitVec f.regWidth → BitVec f.width → BitVec f.regWidth
  | dobB, reg, v => setDmac512CtrlDobB reg (v.setWidth 32)
  | dfbB, reg, v => setDmac512CtrlDfbB reg (v.setWidth 32)
  | mode, reg, v => setDmac512CtrlMode reg (v.setWidth 32)
  | rst, reg, v => setDmac512CtrlRst reg (v.setWidth 32)
  | busy, reg, v =>
    setField (0x1 <<< dmac512StatusDmacBusyShift) dmac512StatusDmacBusyShift reg (v.setWidth 32)
  | intr, reg, v =>
    setField (0x1 <<< dmac512IntrDmacIntrShift) dmac512IntrDmacIntrShift reg (v.setWidth 32)
  | srcAddr, reg, v => setDmac512SrcAddr reg v
  | dstAddr, reg, v => setDmac512DstAddr reg v
  | totalXferCnt, reg, v => setDmac512TotalXferCnt reg (v.setWidth 32)

/-- The getter: the value, and the register behind it. -/
def get : (f : Dmac512Field) → BitVec f.regWidth → BitVec f.regWidth × BitVec f.regWidth
  | dobB => getDmac512DobB
  | dfbB => getDmac512DfbB
  | mode => getDmac512Mode
  | rst => getDmac512Rst
  | busy => fun reg => (getDmac512StatusDmacBusy reg, reg)
  | intr => getDmac512DmacIntrStatus
  | srcAddr => getDmac512SrcAddr
  | dstAddr => getDmac512DstAddr
  | totalXferCnt => getDmac512TotalXferCnt

/-- The field reads back as `v` once it is set to `v`, and reading the register as it stands
leaves it unchanged. -/
def ReadsBack (f : Dmac512Field) (reg : BitVec f.regWidth) (v : BitVec f.width) : Prop :=
  (f.get (f.set reg v)).1 = v.setWidth f.regWidth ∧ (f.get reg).2 = reg

/-- The values and registers for which the getters do their work: addresses of 32 bits, a
transfer count alone in its register, and an idle engine. -/
def Readable : (f : Dmac512Field) → BitVec f.regWidth → BitVec f.width → Prop
  | srcAddr, _, v => v.toNat < 2 ^ 32
  | dstAddr, _, v => v.toNat < 2 ^ 32
  | totalXferCnt, reg, _ => reg.toNat < 2 ^ 24
  | busy, reg, v => v = 0 ∧ reg.getLsbD 8 = false
  | _, _, _ => True

/-- A getter with the mask of its field, behind the setter with the same mask. -/
theorem readField_setField {mask : BitVec 32} {n s : ℕ} (mask_eq : mask = fieldMask 32 n s)
    (fits : s + n ≤ 32) (reg : BitVec 32) (v : BitVec n) :
    (readField mask s (setField mask s reg (v.setWidth 32))).1 = v.setWidth 32 := by
  subst mask_eq
  exact getField_putField fits reg v

/-- The setter replaces the whole address, the getter keeps its low half. -/
theorem getDmac512SrcAddr_setDmac512SrcAddr_iff (reg v : BitVec 64) :
    (getDmac512SrcAddr (setDmac512SrcAddr reg v)).1 = v.setWidth 64 ↔ v.toNat < 2 ^ 32 := by
  rw [setDmac512SrcAddr_eq, BitVec.setWidth_eq]
  change getField (dmac512SrcAddrMask.setWidth 64) 0 v = v ↔ _
  rw [dmac512SrcAddrMask_eq]
  exact getField_eq_self_iff (by decide)

theorem getDmac512TotalXferCnt_snd_eq_iff (reg : BitVec 32) :
    (getDmac512TotalXferCnt reg).2 = reg ↔ reg.toNat < 2 ^ 24 := by
  change getField dmac512TotalXferCntMask _ reg = reg ↔ _
  rw [dmac512TotalXferCntMask_eq]
  exact getField_eq_self_iff (by decide)

/-- Bit 8 is what the busy getter sees; bit 0, the documented one, it does not see. -/
theorem getDmac512StatusDmacBusy_setField_iff (reg : BitVec 32) (v : BitVec 1) :
    getDmac512StatusDmacBusy
        (setField (0x1 <<< dmac512StatusDmacBusyShift) dmac512StatusDmacBusyShift reg
          (v.setWidth 32)) = v.setWidth 32 ↔
      v = 0 ∧ reg.getLsbD 8 = false := by
  have hmask : (0x1 <<< dmac512StatusDmacBusyShift : BitVec 32) = fieldMask 32 1 0 := by decide
  have hsmall : (v.setWidth 32).toNat < 2 ^ 1 := by
    rw [BitVec.toNat_setWidth_of_le (by decide)]
    exact v.isLt
  have hvalue : ∀ v : BitVec 1, v = 0 ∨ v = 1 := by decide
  have hbit : (putField (fieldMask 32 1 0) 0 reg (v.setWidth 32)).getLsbD 8 = reg.getLsbD 8 :=
    getLsbD_putField_of_not_mem hsmall (by decide)
  rw [hmask]
  change getDmac512StatusDmacBusy (putField (fieldMask 32 1 0) 0 reg (v.setWidth 32)) = _ ↔ _
  rw [getDmac512StatusDmacBusy_eq, hbit]
  obtain rfl | rfl := hvalue v
  all_goals cases reg.getLsbD 8 <;> decide

theorem readsBack_iff (f : Dmac512Field) (reg : BitVec f.regWidth) (v : BitVec f.width) :
    f.ReadsBack reg v ↔ f.Readable reg v := by
  cases f with
  | dobB =>
    exact iff_of_true ⟨readField_setField dmac512CtrlDobBMask_eq (by decide) reg v, rfl⟩ trivial
  | dfbB =>
    exact iff_of_true ⟨readField_setField dmac512CtrlDfbBMask_eq (by decide) reg v, rfl⟩ trivial
  | mode =>
    exact iff_of_true ⟨readField_setField dmac512CtrlDmacModeMask_eq (by decide) reg v, rfl⟩
      trivial
  | rst =>
    exact iff_of_true ⟨readField_setField dmac512CtrlDmacRstMask_eq (by decide) reg v, rfl⟩
      trivial
  | intr =>
    exact iff_of_true ⟨readField_setField dmac512IntrDmacIntrMask_eq (by decide) reg v, rfl⟩
      trivial
  | busy => exact (and_iff_left rfl).trans (getDmac512StatusDmacBusy_setField_iff reg v)
  | srcAddr => exact (and_iff_left rfl).trans (getDmac512SrcAddr_setDmac512SrcAddr_iff reg v)
  | dstAddr => exact (and_iff_left rfl).trans (getDmac512SrcAddr_setDmac512SrcAddr_iff reg v)
  | totalXferCnt =>
    -- the value is right always; it is the register that the macro may change
    refine (and_iff_right ?_).trans (getDmac512TotalXferCnt_snd_eq_iff reg)
    exact readField_setField dmac512TotalXferCntMask_eq (by decide) reg v

/-- Reading the count of an engine that is enabled disables it. -/
theorem not_readsBack_enabled :
    ¬ ∀ (f : Dmac512Field) (reg : BitVec f.regWidth) (v : BitVec f.width),
      (f.regWidth = 64 → reg = 0) → f.ReadsBack reg v := by
  intro hall
  have hcount : (getDmac512TotalXferCnt 0x80000000).2 = 0x80000000 :=
    (hall totalXferCnt (0x80000000 : BitVec 32) (0 : BitVec 24) fun h => absurd h (by decide)).2
  exact absurd hcount (by decide)

end Dmac512Field

end MeshNoc
