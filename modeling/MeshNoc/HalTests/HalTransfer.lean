import MeshNoc.HalTests.HalReference
import MeshNoc.Noc.MeshRouter
import MeshNoc.Tile.TileDma

/-!
# The transfers of the HAL

The two DMA functions of `g_hal`, from `hal_tests/hal_reference.c`, which work on the DMA
engines and on the arbitration of the mesh, and the calls of `g_hal` as one machine.
-/

namespace MeshNoc

open Lib

/-- What all functions of the HAL work on. -/
structure HalSystem extends HalState where
  noc : NocArbitration := {}

/-- The state in which `platform_setup` leaves it. No packet has been sent. -/
def HalSystem.afterSetup (st : PlatformState) : HalSystem :=
  { toHalState := HalState.afterSetup st }

/-- A function that leaves the arbitration alone. -/
def HalSystem.onHal (f : HalState → Option (HalAnswer × HalState)) (st : HalSystem) :
    Option (HalAnswer × HalSystem) := do
  let (answer, hal) ← f st.toHalState
  some (answer, { st with toHalState := hal })

/-- `ref_dma_local_transfer`. -/
def refDmaLocalTransfer (tileId : ℤ) (srcAddr dstAddr size : Addr) (st : HalState) :
    Option (HalAnswer × HalState) := do
  let st ← st.lock
  let (result, dma, mem) ←
    dmaLocalTransfer st.platform st.dma st.mem tileId srcAddr dstAddr size
  some ({ result := result }, { st with dma := dma, mem := mem }.unlock)

/-- The packet of a remote transfer: its length is the size cast to 16 bits. -/
def remotePacket (srcAddr dstAddr size : Addr) : PktHeader :=
  let srcTile := getTileIdFromAddress srcAddr
  let dstTile := getTileIdFromAddress dstAddr
  { destX := if 0 ≤ dstTile then BitVec.ofInt 8 (dstTile % 4) else 0
    destY := if 0 ≤ dstTile then BitVec.ofInt 8 (dstTile / 4) else 0
    srcX := if 0 ≤ srcTile then BitVec.ofInt 8 (srcTile % 4) else 0
    srcY := if 0 ≤ srcTile then BitVec.ofInt 8 (srcTile / 4) else 0
    type := .dmaTransfer
    length := size.setWidth 16
    srcAddr := srcAddr
    dstAddr := dstAddr }

/-- `ref_dma_remote_transfer`. -/
def refDmaRemoteTransfer (srcAddr dstAddr size : Addr) (st : HalSystem) :
    Option (HalAnswer × HalSystem) := do
  let hal ← st.lock
  if !hal.platformSet then some ({ result := -1 }, { st with toHalState := hal.unlock })
  else if !validateAddress srcAddr size || !validateAddress dstAddr size then
    some ({ result := -1 }, { st with toHalState := hal.unlock })
  else
    let srcRegion := getAddressRegion srcAddr
    let dstRegion := getAddressRegion dstAddr
    if ¬ (srcRegion = .tileDlm1_512 ∧ dstRegion = .dmem512 ∨
        srcRegion = .dmem512 ∧ dstRegion = .tileDlm1_512) then
      some ({ result := -1 }, { st with toHalState := hal.unlock })
    else
      -- what the router returns is ignored
      let (_, mem, noc) ←
        nocSendPacket hal.platform hal.mem st.noc (remotePacket srcAddr dstAddr size)
      some ({ result := intOfSize size },
        { toHalState := { hal with mem := mem }.unlock, noc := noc })

/-- The data functions of `g_hal`, with their arguments; a `NULL` buffer is `none`. -/
inductive HalCall
  | cpuLocalMove (srcAddr dstAddr size : Addr)
  | dmaLocalTransfer (tileId : ℤ) (srcAddr dstAddr size : Addr)
  | dmaRemoteTransfer (srcAddr dstAddr size : Addr)
  | dmemToDmemTransfer (srcAddr dstAddr size : Addr)
  | memoryRead (addr : Addr) (buffer : Option (List Byte)) (size : Addr)
  | memoryWrite (addr : Addr) (buffer : Option (List Byte)) (size : Addr)
  | memoryFill (addr : Addr) (value : Byte) (size : Addr)
  | memorySet (addr : Addr) (value : Byte) (size : Addr)

namespace HalCall

/-- The call, as the reference implementation makes it. -/
def exec (st : HalSystem) : HalCall → Option (HalAnswer × HalSystem)
  | cpuLocalMove srcAddr dstAddr size => st.onHal (refCpuLocalMove srcAddr dstAddr size)
  | dmaLocalTransfer tileId srcAddr dstAddr size =>
    st.onHal (refDmaLocalTransfer tileId srcAddr dstAddr size)
  | dmaRemoteTransfer srcAddr dstAddr size => refDmaRemoteTransfer srcAddr dstAddr size st
  | dmemToDmemTransfer srcAddr dstAddr size =>
    st.onHal (refDmemToDmemTransfer srcAddr dstAddr size)
  | memoryRead addr buffer size => st.onHal (refMemoryRead addr buffer size)
  | memoryWrite addr buffer size => st.onHal (refMemoryWrite addr buffer size)
  | memoryFill addr value size => st.onHal (refMemoryFill addr value size)
  | memorySet addr value size => st.onHal (refMemorySet addr value size)

/-- The `size` argument. -/
def size : HalCall → Addr
  | cpuLocalMove _ _ size | dmaLocalTransfer _ _ _ size | dmaRemoteTransfer _ _ size
  | dmemToDmemTransfer _ _ size | memoryRead _ _ size | memoryWrite _ _ size
  | memoryFill _ _ size | memorySet _ _ size => size

/-- The caller's buffer that the call may write to. -/
def buffer : HalCall → Option (List Byte)
  | memoryRead _ buffer _ => buffer
  | _ => none

end HalCall

/-- The platform is as set up, every engine is initialised with the default configuration,
and no lock is held. Memory is arbitrary, and so are the parameters of the last transfer of
each engine and the counters. -/
structure HalReady (st : HalSystem) : Prop where
  platform : st.platform = platformAfterSetup
  platform_set : st.platformSet = true
  unlocked : st.halMutex.held = false
  initialized : ∀ tile < 8, st.dma.initialized tile = true
  inst : ∀ tile < 8, (st.dma.handles tile).inst = dmaRegsPtr tile
  configuration : ∀ tile < 8, (st.dma.handles tile).init.dobBeat = .axiTrans8 ∧
    (st.dma.handles tile).init.dfbBeat = .axiTrans8 ∧
      (st.dma.handles tile).init.dmacMode = .normalMode
  arbitration_free : ∀ l, st.noc.locks l = false

/-- So it is after set-up. -/
theorem halReady_afterSetup {st : PlatformState} (setup : platformSetup = some st) :
    HalReady (HalSystem.afterSetup st) := by
  obtain rfl := Option.some.inj (platformSetup_eq.symm.trans setup)
  have hhandle : ∀ tile < 8, (dmaAfter numTiles).handles tile =
      initialHandle (dmaRegsPtr tile) := fun tile valid => if_pos valid
  refine ⟨rfl, rfl, rfl, fun tile valid => decide_eq_true valid, fun tile valid => ?_,
    fun tile valid => ?_, fun _ => rfl⟩
  · exact congrArg Dmac512Handle.inst (hhandle tile valid)
  · have hinit := congrArg Dmac512Handle.init (hhandle tile valid)
    change ((dmaAfter numTiles).handles tile).init.dobBeat = _ ∧
      ((dmaAfter numTiles).handles tile).init.dfbBeat = _ ∧
        ((dmaAfter numTiles).handles tile).init.dmacMode = _
    rw [hinit]
    exact ⟨rfl, rfl, rfl⟩

end MeshNoc
