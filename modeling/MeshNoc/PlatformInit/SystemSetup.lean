import MeshNoc.Hal.Dmac512
import MeshNoc.Interrupt.Plic
import Mathlib.Tactic.FinCases

/-!
# Platform set-up

`platform_setup` of `platform_init/system_setup.c`, started from a zeroed
`mesh_platform_t`. Every `calloc` is taken to succeed. The register blocks of the first
PLIC are the typed blocks of `PlicState`; all other allocations are byte buffers.

## Main result

* `platformSetup_eq` — set-up succeeds, the tables it leaves, and memory still zero
-/

namespace MeshNoc

open Lib

/-- The platform tables with the memory, the DMA driver and the interrupt controllers. -/
structure PlatformState where
  platform : MeshPlatform
  mem : Mem
  dma : DmaDriver
  plic : PlicState

/-- `address_manager_init`. -/
def addressManagerInit (p : MeshPlatform) : MeshPlatform :=
  { p with memoryPool := Buffer.memoryPool.ptr, totalMemorySize := 0x30000000 }

/-- The entry of tile `i` before its DMA engine is initialised. -/
def tileEntry (i : ℕ) : TileCore :=
  { id := i
    x := i % 4
    y := i / 4 * 2
    dlm64BaseAddr := tileBase i + dlm64Offset
    dlm64Ptr := (Buffer.dlm64 i).ptr
    dlm1_512BaseAddr := tileBase i + dlm1_512Offset
    dlm1_512Ptr := (Buffer.dlm1_512 i).ptr
    dmaRegBaseAddr := tileBase i + dmaRegOffset
    dmaRegsPtr := (Buffer.dmaRegs i).ptr }

/-- The body of the loop over the tiles. The engine is initialised while later tiles are
still zeroed entries of the table. -/
def setupTile (st : PlatformState) (i : ℕ) : Option PlatformState := do
  let p := { st.platform with nodes := st.platform.nodes.set i (tileEntry i) }
  -- `dma_tile_init` already translates through the entry of this tile
  let (dmacInitResult, dma, mem) ← dmaTileInit p st.dma st.mem i
  let entry := { tileEntry i with dmac512Initialized := decide (dmacInitResult = 0) }
  some { st with platform := { p with nodes := p.nodes.set i entry }, mem := mem, dma := dma }

/-- The entry of DMEM module `i`. -/
def dmemEntry (i : ℕ) : DmemModule :=
  { id := i
    dmemBaseAddr := dmemBases.getD i 0
    dmemSize := dmem512Size
    dmemPtr := (Buffer.dmem i).ptr }

/-- The body of the loop over the DMEM modules. -/
def setupDmem (p : MeshPlatform) (i : ℕ) : MeshPlatform :=
  { p with dmems := p.dmems.set i (dmemEntry i) }

/-- The entry of the first PLIC. -/
def plicEntry : PlicInstance :=
  { c0c1Ptr := (Buffer.plic .c0c1).ptr
    nxyPtr := (Buffer.plic .nxy).ptr
    c0c1Base := plic0C0c1Base
    nxyBase := plic0NxyBase }

/-- `platform_setup`. -/
def platformSetup : Option PlatformState := do
  let p := addressManagerInit
    { nodes := List.replicate numTiles {}, dmems := List.replicate numDmems {} }
  let st ← (List.range numTiles).foldlM setupTile
    { platform := p, mem := zeroMem, dma := {}, plic := {} }
  let p := (List.range numDmems).foldl setupDmem st.platform
  let p := { p with plicInstances := Function.update p.plicInstances 0 plicEntry }
  -- every hart initialises, and so writes the table entry of its own instance
  let plic := (List.range numTiles).foldl (PlicState.plicInitForThisHart p) st.plic
  some { st with platform := p, plic := plic.plicSetupBidirectionalInterrupts }

/-! ### The state it leaves -/

/-- The tile table when the first `k` tiles are set up. -/
def nodesAfter (k : ℕ) : List TileCore :=
  (List.range numTiles).map fun i =>
    if i < k then { tileEntry i with dmac512Initialized := true } else {}

/-- The engine of a tile is reached through the tile's DLM1_512 buffer: the window of
that buffer contains the window of the registers, and is searched first. -/
def dmaRegsPtr (tile : ℕ) : Ptr Buffer := ⟨some (.dlm1_512 tile), 0x7000⟩

/-- The DMA driver when the first `k` tiles are set up. -/
def dmaAfter (k : ℕ) : DmaDriver :=
  { handles := fun i => if i < k then initialHandle (dmaRegsPtr i) else {}
    initialized := fun i => decide (i < k) }

/-- The platform tables when the first `k` tiles are set up. -/
def tilesAfter (k : ℕ) : MeshPlatform :=
  { nodes := nodesAfter k
    dmems := List.replicate numDmems {}
    memoryPool := Buffer.memoryPool.ptr
    totalMemorySize := 0x30000000 }

/-- The platform tables after set-up. -/
def platformAfterSetup : MeshPlatform :=
  { nodes := nodesAfter numTiles
    dmems := (List.range numDmems).map dmemEntry
    memoryPool := Buffer.memoryPool.ptr
    totalMemorySize := 0x30000000
    plicInstances := Function.update (fun _ => {}) 0 plicEntry }

/-- `PLIC_INST` after set-up. -/
def plicInstAfterSetup : Fin 3 → Option PlicBlock := ![some .c0c1, some .nxy, none]

/-- The interrupt controllers after set-up. -/
def plicAfterSetup : PlicState :=
  PlicState.plicSetupBidirectionalInterrupts { plicInst := plicInstAfterSetup }

theorem nodesAfter_set : ∀ k : Fin 8, ∀ entry ∈ [tileEntry k],
    ((nodesAfter k).set k entry).set k { entry with dmac512Initialized := true } =
      nodesAfter (k + 1) := by
  decide +kernel

theorem addrToPtr_dmaRegBase : ∀ k : Fin 8,
    addrToPtr { tilesAfter k with nodes := (nodesAfter k).set k (tileEntry k) }
      (dmaRegBases.getD k 0) = dmaRegsPtr k := by
  decide +kernel

theorem dmaAfter_succ (k : ℕ) :
    { handles := Function.update (dmaAfter k).handles k (initialHandle (dmaRegsPtr k))
      initialized := Function.update (dmaAfter k).initialized k true } = dmaAfter (k + 1) := by
  simp only [dmaAfter, DmaDriver.mk.injEq]
  constructor <;> funext i <;> by_cases h : i = k
  · simp [h]
  · rw [Function.update_of_ne h]
    exact if_congr (by omega) rfl rfl
  · simp [h]
  · rw [Function.update_of_ne h]
    exact decide_eq_decide.mpr (by omega)

/-- Setting up one more tile. -/
theorem setupTile_eq {k : ℕ} (valid : k < 8) (plic : PlicState) :
    setupTile ⟨tilesAfter k, zeroMem, dmaAfter k, plic⟩ k =
      some ⟨tilesAfter (k + 1), zeroMem, dmaAfter (k + 1), plic⟩ := by
  -- the `0x14` bytes of registers lie inside the DLM1_512 buffer
  have hwithin : (dmaRegsPtr k).Within Buffer.size 0x14 :=
    show 0x7000 + 0x14 ≤ dlm1_512Size.toNat by decide
  have hfresh : (dmaAfter k).initialized k = false := by simp [dmaAfter]
  have hinit := dmaTileInit_zeroMem hfresh valid
    (addrToPtr_dmaRegBase ⟨k, valid⟩) hwithin
  have hnodes := nodesAfter_set ⟨k, valid⟩ (tileEntry k) (by simp)
  simp only [dmaAfter_succ] at hinit
  simp only [setupTile, Option.bind_eq_bind]
  rw [show (tilesAfter k).nodes = nodesAfter k from rfl, hinit]
  simp only [Option.bind_some, decide_true, hnodes]
  rfl

theorem foldlM_setupTile {k : ℕ} (le : k ≤ 8) (plic : PlicState) :
    (List.range k).foldlM setupTile ⟨tilesAfter 0, zeroMem, dmaAfter 0, plic⟩ =
      some ⟨tilesAfter k, zeroMem, dmaAfter k, plic⟩ := by
  -- on the number of tiles: after `k` of them the state is that of `tilesAfter k`
  induction k with
  | zero => rfl
  | succ k ih =>
    rw [List.range_succ, List.foldlM_append, ih (by omega), Option.bind_eq_bind,
      Option.bind_some, List.foldlM_cons, setupTile_eq le plic]
    rfl

/-- The table entry every hart initialises is that of its own instance. -/
theorem plicInitForThisHart_eq (st : PlicState) (hart : ℕ) :
    st.plicInitForThisHart platformAfterSetup hart =
      { st with plicInst :=
          if hart < 2 then Function.update st.plicInst 0 (some .c0c1)
          else Function.update st.plicInst 1 (some .nxy) } := by
  have hmapped : ∀ col : Fin 2,
      PlicState.blockAt (addrToPtr platformAfterSetup (PlicState.plicBaseTbl0 col)) =
        ![some .c0c1, some .nxy] col := by
    decide +kernel
  by_cases h : hart < 2
  · simp only [PlicState.plicInitForThisHart, if_pos h, hmapped]
    rfl
  · simp only [PlicState.plicInitForThisHart, if_neg h, hmapped]
    rfl

theorem foldl_plicInitForThisHart :
    (List.range numTiles).foldl (PlicState.plicInitForThisHart platformAfterSetup) {} =
      { plicInst := plicInstAfterSetup } := by
  have hstep : PlicState.plicInitForThisHart platformAfterSetup = fun st hart =>
      { st with plicInst :=
          if hart < 2 then Function.update st.plicInst 0 (some .c0c1)
          else Function.update st.plicInst 1 (some .nxy) } :=
    funext₂ plicInitForThisHart_eq
  rw [hstep]
  -- harts 0 and 1 write entry 0, the others entry 1; nobody writes entry 2
  refine congrArg (PlicState.mk fun _ => {}) (funext fun i => ?_)
  fin_cases i <;> rfl

/-- Set-up succeeds and leaves every allocated byte zero. -/
theorem platformSetup_eq : platformSetup =
    some ⟨platformAfterSetup, zeroMem, dmaAfter numTiles, plicAfterSetup⟩ := by
  have hstart : addressManagerInit
      { nodes := List.replicate numTiles {}, dmems := List.replicate numDmems {} } =
        tilesAfter 0 := rfl
  have hdriver : ({} : DmaDriver) = dmaAfter 0 := rfl
  have hdmems : { (List.range numDmems).foldl setupDmem (tilesAfter numTiles) with
      plicInstances := Function.update (tilesAfter numTiles).plicInstances 0 plicEntry } =
        platformAfterSetup := rfl
  simp only [platformSetup, hstart, hdriver, Option.bind_eq_bind]
  rw [foldlM_setupTile (k := numTiles) (by decide), Option.bind_some]
  change some (PlatformState.mk _ _ _
    ((List.range numTiles).foldl (PlicState.plicInitForThisHart platformAfterSetup)
      {}).plicSetupBidirectionalInterrupts) = _
  rw [foldl_plicInitForThisHart]
  rfl

end MeshNoc
