import MeshNoc.Hal.Dmac512Transfer

/-!
# The tile DMA driver

Transfers within a tile through the tile's DMAC512 engine, and the copy by address, from
`tile/tile_dma.c`.
-/

namespace MeshNoc

open Lib

/-- `dma_tile_get_handle`. When it returns `0`, the handle is that of the tile in the
table. -/
def dmaTileGetHandle (p : MeshPlatform) (driver : DmaDriver) (m : Mem) (tileId : ℤ) :
    Option (ℤ × DmaDriver × Mem) :=
  if tileId < 0 ∨ 8 ≤ tileId then some (-1, driver, m)
  else if !driver.initialized tileId.toNat then do
    let (initResult, driver, m) ← dmaTileInit p driver m tileId
    if initResult ≠ 0 then some (-1, driver, m) else some (0, driver, m)
  else some (0, driver, m)

/-- `dma_local_transfer`. -/
def dmaLocalTransfer (p : MeshPlatform) (driver : DmaDriver) (m : Mem) (tileId : ℤ)
    (srcAddr dstAddr size : Addr) : Option (ℤ × DmaDriver × Mem) :=
  if getTileIdFromAddress srcAddr ≠ tileId ∨ getTileIdFromAddress dstAddr ≠ tileId then
    some (-1, driver, m)
  else if !validateAddress srcAddr size || !validateAddress dstAddr size then
    some (-1, driver, m)
  else do
    let (result, driver, m) ← dmaTileGetHandle p driver m tileId
    if result ≠ 0 then some (-1, driver, m)
    else do
      let (result, handle, m) ←
        halDmac512Transfer p (driver.handles tileId.toNat) m srcAddr dstAddr size
      -- the driver keeps its handles in the table
      some (result,
        { driver with handles := Function.update driver.handles tileId.toNat handle }, m)

/-- `dma_memcpy_addr`. It reports nothing to its caller. -/
def dmaMemcpyAddr (p : MeshPlatform) (m : Mem) (dstAddr srcAddr size : Addr) : Option Mem :=
  let dstPtr := addrToPtr p dstAddr
  let srcPtr := addrToPtr p srcAddr
  if dstPtr ≠ .null ∧ srcPtr ≠ .null ∧
      validateAddress srcAddr size = true ∧ validateAddress dstAddr size = true then
    m.memcpy Buffer.size dstPtr srcPtr size.toNat
  else some m

/-- An initialised engine is found in the table. -/
theorem dmaTileGetHandle_eq {p : MeshPlatform} {driver : DmaDriver} {m : Mem} {tile : ℕ}
    (valid : tile < 8) (ready : driver.initialized tile = true) :
    dmaTileGetHandle p driver m tile = some (0, driver, m) := by
  have htile : ¬ ((tile : ℤ) < 0 ∨ 8 ≤ (tile : ℤ)) := by omega
  rw [dmaTileGetHandle, if_neg htile, Int.toNat_natCast, ready]
  rfl

end MeshNoc
