import MeshNoc.PlatformInit.AddressManager

/-!
# The DMAC512 engines

The initialisation of the DMA handles, from `hal/dma512/hal_dmac512.c` and
`tile/tile_dma.c`. A handle points at the registers of its engine through
`addr_to_ptr`, so register accesses are accesses to the buffer that translation finds;
words are little-endian.
-/

namespace MeshNoc

open Lib

/-- `DMAC512_DB_B_t`. -/
inductive Dmac512DbB
  | axiTrans2
  | axiTrans4
  | axiTrans8
  | axiTrans16
  | axiTrans32
  | axiTrans64
  deriving DecidableEq, Repr

/-- `DMAC512_OP_MODE_t`. -/
inductive Dmac512OpMode | normalMode
  deriving DecidableEq, Repr

/-- `DMAC512_InitTypdef`. -/
structure Dmac512Init where
  dobBeat : Dmac512DbB := .axiTrans2
  dfbBeat : Dmac512DbB := .axiTrans2
  dmacMode : Dmac512OpMode := .normalMode
  srcAddr : Addr := 0
  dstAddr : Addr := 0
  xferCount : BitVec 32 := 0
  deriving DecidableEq

/-- `DMAC512_HandleTypeDef`. A default value is the zeroed handle. -/
structure Dmac512Handle where
  inst : Ptr Buffer := .null
  init : Dmac512Init := {}
  deriving DecidableEq

/-! ### Registers of `DMAC512_RegDef`, as byte offsets -/

def dmacControl : ℕ := 0x00
def dmacStatus : ℕ := 0x04
def dmacIntr : ℕ := 0x10

def dmac512CtrlDmacRstShift : ℕ := 0
def dmac512CtrlDmacRstMask : BitVec 32 := 0x1 <<< dmac512CtrlDmacRstShift

/-- `SET_DMAC512_CTRL_RST`, the value it gives the register. -/
def setDmac512CtrlRst (reg val : BitVec 32) : BitVec 32 :=
  (reg &&& ~~~dmac512CtrlDmacRstMask) ||| (val <<< dmac512CtrlDmacRstShift)

/-- Read a register, and write back what `f` makes of it. -/
def modifyReg (m : Mem) (reg : Ptr Buffer) (f : BitVec 32 → BitVec 32) : Option Mem := do
  let old ← m.load32 Buffer.size reg
  m.store32 Buffer.size reg (f old)

/-- `TILEk_DMA_REG_BASE` for `k = 0, …, 7`. -/
def dmaRegBases : List Addr := tileBases.map (· + dmaRegOffset)

/-- `HAL_DMAC512InitTile`. On success the handle is returned with the memory. -/
def halDmac512InitTile (p : MeshPlatform) (m : Mem) (tileId : ℤ) :
    Option (ℤ × Option Dmac512Handle × Mem) :=
  if tileId < 0 ∨ 8 ≤ tileId then some (-1, none, m)
  else
    let dmaBase := dmaRegBases.getD tileId.toNat 0
    let dmaRegs := addrToPtr p dmaBase
    if dmaRegs = .null then some (-1, none, m)
    else do
      let handle : Dmac512Handle :=
        { inst := dmaRegs, init := { dobBeat := .axiTrans8, dfbBeat := .axiTrans8 } }
      -- raise and lower the reset bit, then clear status and interrupt
      let m ← modifyReg m (dmaRegs.add dmacControl) fun reg => setDmac512CtrlRst reg 1
      let m ← modifyReg m (dmaRegs.add dmacControl) fun reg => setDmac512CtrlRst reg 0
      let m ← m.store32 Buffer.size (dmaRegs.add dmacStatus) 0
      let m ← m.store32 Buffer.size (dmaRegs.add dmacIntr) 0
      some (0, some handle, m)

/-- `g_dmac512_handles` and `g_dmac512_initialized`. -/
structure DmaDriver where
  handles : ℕ → Dmac512Handle := fun _ => {}
  initialized : ℕ → Bool := fun _ => false

/-- `dma_tile_init`. -/
def dmaTileInit (p : MeshPlatform) (driver : DmaDriver) (m : Mem) (tileId : ℤ) :
    Option (ℤ × DmaDriver × Mem) :=
  if tileId < 0 ∨ 8 ≤ tileId then some (-1, driver, m)
  else if driver.initialized tileId.toNat then some (0, driver, m)
  else do
    let (result, handle, m) ← halDmac512InitTile p m tileId
    match handle with
    | none => some (result, driver, m)
    | some handle =>
      some (result,
        { handles := Function.update driver.handles tileId.toNat handle
          initialized := Function.update driver.initialized tileId.toNat true }, m)

/-! ### Initialisation on zeroed memory -/

/-- The memory in which every byte is zero. -/
def zeroMem : Mem := fun _ _ => 0

theorem load32_zeroMem {reg : Ptr Buffer} (within : reg.Within Buffer.size 4) :
    zeroMem.load32 Buffer.size reg = some 0 := by
  have hget : ∀ q : Ptr Buffer, zeroMem.get q = 0 := by
    rintro ⟨_ | b, i⟩ <;> rfl
  rw [Memory.load32, if_pos within]
  simp only [hget]
  rfl

theorem store32_zeroMem {reg : Ptr Buffer} (within : reg.Within Buffer.size 4) :
    zeroMem.store32 Buffer.size reg 0 = some zeroMem := by
  rw [Memory.store32, if_pos within]
  congr 1
  funext b i
  simp [Memory.put, zeroMem]

/-- Two register updates in a row that end with zero leave zeroed memory zeroed. -/
theorem modifyReg_modifyReg_zeroMem {reg : Ptr Buffer} (within : reg.Within Buffer.size 4)
    {f g : BitVec 32 → BitVec 32} (back : g (f 0) = 0) :
    (modifyReg zeroMem reg f).bind (fun m => modifyReg m reg g) = some zeroMem := by
  have hstore : zeroMem.store32 Buffer.size reg (f 0) =
      some (zeroMem.put reg 4 fun i => (f 0).extractLsb' (8 * i) 8) := if_pos within
  have hfirst : modifyReg zeroMem reg f =
      some (zeroMem.put reg 4 fun i => (f 0).extractLsb' (8 * i) 8) := by
    rw [modifyReg, load32_zeroMem within]
    exact hstore
  have hsecond := store32_zeroMem within
  rw [Memory.store32, if_pos within] at hsecond
  -- the second update reads what the first one stored
  rw [hfirst, Option.bind_some, modifyReg, Memory.load32_store32 hstore]
  simp only [Option.bind_eq_bind, Option.bind_some, back]
  rw [Memory.store32, if_pos within, Memory.put_put]
  exact hsecond

/-- The handle `HAL_DMAC512InitTile` sets up. -/
def initialHandle (dmaRegs : Ptr Buffer) : Dmac512Handle :=
  { inst := dmaRegs, init := { dobBeat := .axiTrans8, dfbBeat := .axiTrans8 } }

/-- On zeroed memory the initialisation of an engine leaves every register zero. -/
theorem halDmac512InitTile_zeroMem {p : MeshPlatform} {tile : ℕ} {dmaRegs : Ptr Buffer}
    (valid : tile < 8) (mapped : addrToPtr p (dmaRegBases.getD tile 0) = dmaRegs)
    (within : dmaRegs.Within Buffer.size 0x14) :
    halDmac512InitTile p zeroMem tile = some (0, some (initialHandle dmaRegs), zeroMem) := by
  have hreg : ∀ k, k + 4 ≤ 0x14 → (dmaRegs.add k).Within Buffer.size 4 := by
    intro k hk
    unfold Ptr.Within at within ⊢
    rw [Ptr.add_block, Ptr.add_offset]
    cases hb : dmaRegs.block with
    | none => simp [hb] at within
    | some b => simp only [hb] at within ⊢; omega
  have hnull : dmaRegs ≠ .null := by
    rintro rfl
    exact within
  -- reset is raised and lowered again, so the control register ends as it was
  have hcontrol := modifyReg_modifyReg_zeroMem (hreg dmacControl (by decide))
    (f := fun reg => setDmac512CtrlRst reg 1) (g := fun reg => setDmac512CtrlRst reg 0)
    (by decide)
  obtain ⟨m, hm, hm'⟩ := Option.bind_eq_some_iff.mp hcontrol
  rw [halDmac512InitTile, if_neg (by omega), Int.toNat_natCast]
  simp only [mapped, if_neg hnull, Option.bind_eq_bind, hm, Option.bind_some, hm',
    store32_zeroMem (hreg dmacStatus (by decide)), store32_zeroMem (hreg dmacIntr (by decide))]
  rfl

theorem dmaTileInit_zeroMem {p : MeshPlatform} {driver : DmaDriver} {tile : ℕ}
    {dmaRegs : Ptr Buffer} (fresh : driver.initialized tile = false) (valid : tile < 8)
    (mapped : addrToPtr p (dmaRegBases.getD tile 0) = dmaRegs)
    (within : dmaRegs.Within Buffer.size 0x14) :
    dmaTileInit p driver zeroMem tile = some (0,
      { handles := Function.update driver.handles tile (initialHandle dmaRegs)
        initialized := Function.update driver.initialized tile true }, zeroMem) := by
  rw [dmaTileInit, if_neg (by omega), Int.toNat_natCast, fresh, if_neg (by simp),
    halDmac512InitTile_zeroMem valid mapped within]
  rfl

end MeshNoc
