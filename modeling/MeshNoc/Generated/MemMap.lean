import Mathlib.Data.BitVec

/-!
# The memory map

The constants of `generated/mem_map.h`. Addresses and sizes are `unsigned long`, so
64-bit words.
-/

namespace MeshNoc

/-- A 64-bit address, or a `size_t`. -/
abbrev Addr := BitVec 64

def numTiles : ℕ := 8
def numDmems : ℕ := 8

/-! ### Region strides and sizes -/

def tileStride : Addr := 0x00100000
def dlm64Size : Addr := 0x00008000
def dlm1_512Size : Addr := 0x00020000
def dmem512Size : Addr := 0x00040000

/-! ### Offsets within a tile -/

def dlm64Offset : Addr := 0x0000
def dlm1_512Offset : Addr := 0x8000
def dmaRegOffset : Addr := 0xF000

/-- The length of the DMA register window, a literal in every function that uses it. -/
def dmaRegSize : Addr := 0x1000

/-! ### Base addresses -/

def tile0Base : Addr := 0x00000000

/-- `TILE0_BASE + tile * TILE_STRIDE`, as every loop over the tiles computes it. -/
def tileBase (tile : ℕ) : Addr := tile0Base + BitVec.ofNat 64 tile * tileStride

/-- `TILEk_BASE` for `k = 0, …, 7`. -/
def tileBases : List Addr :=
  [0x00000000, 0x00100000, 0x00200000, 0x00300000,
   0x00400000, 0x00500000, 0x00600000, 0x00700000]

/-- `DMEMk_512_BASE` for `k = 0, …, 7`. -/
def dmemBases : List Addr :=
  [0x10000000, 0x10400000, 0x10800000, 0x10C00000,
   0x20000000, 0x20400000, 0x20800000, 0x20C00000]

def c0MasterBase : Addr := 0x80000000
def c0MasterSize : Addr := 0x00010000

def plic0C0c1Base : Addr := 0x90000000
def plic0NxyBase : Addr := 0x90400000
def plicSize : Addr := 0x00400000

/-- `PLIC_k_C0C1_BASE` for `k = 0, 1, 2`. -/
def plicC0c1Bases : List Addr := [0x90000000, 0x90800000, 0x91000000]

/-- `PLIC_k_NXY_BASE` for `k = 0, 1, 2`. -/
def plicNxyBases : List Addr := [0x90400000, 0x90C00000, 0x91400000]

end MeshNoc
