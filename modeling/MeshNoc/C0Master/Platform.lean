import MeshNoc.Generated.MemMap
import MeshNoc.Lib.BlockMemory

/-!
# The platform structure

The part of `mesh_platform_t` that address translation reads, and the allocations its
pointers point into. Every `calloc` of `platform_setup` and `address_manager_init` is
a block of its own.
-/

namespace MeshNoc

open Lib

/-- The two register blocks allocated for the first PLIC. -/
inductive PlicBlock | c0c1 | nxy
  deriving DecidableEq, Repr

/-- The allocations made while the platform is set up. -/
inductive Buffer
  | memoryPool
  | dlm64 (tile : ℕ)
  | dlm1_512 (tile : ℕ)
  | dmaRegs (tile : ℕ)
  | dmem (id : ℕ)
  | plic (block : PlicBlock)
  deriving DecidableEq, Repr

/-- The number of bytes each allocation asks for. -/
def Buffer.size : Buffer → ℕ
  | .memoryPool => 0x30000000
  | .dlm64 _ => dlm64Size.toNat
  | .dlm1_512 _ => dlm1_512Size.toNat
  | .dmaRegs _ => dmaRegSize.toNat
  | .dmem _ => dmem512Size.toNat
  | .plic _ => plicSize.toNat

/-- What a successful `calloc` returns. -/
def Buffer.ptr (b : Buffer) : Ptr Buffer := ⟨some b, 0⟩

/-- `tile_core_t`, its addresses and buffers. -/
structure TileCore where
  id : ℕ := 0
  x : ℕ := 0
  y : ℕ := 0
  dlm64BaseAddr : Addr := 0
  dlm1_512BaseAddr : Addr := 0
  dmaRegBaseAddr : Addr := 0
  dlm64Ptr : Ptr Buffer := .null
  dlm1_512Ptr : Ptr Buffer := .null
  dmaRegsPtr : Ptr Buffer := .null
  dmac512Initialized : Bool := false
  deriving DecidableEq

/-- `dmem_module_t`. -/
structure DmemModule where
  id : ℕ := 0
  dmemBaseAddr : Addr := 0
  dmemPtr : Ptr Buffer := .null
  dmemSize : Addr := 0
  deriving DecidableEq

/-- `plic_instance_t`. -/
structure PlicInstance where
  c0c1Ptr : Ptr Buffer := .null
  nxyPtr : Ptr Buffer := .null
  c0c1Base : Addr := 0
  nxyBase : Addr := 0
  deriving DecidableEq

/-- `mesh_platform_t`, its memory tables. `node_count` and `dmem_count` are the lengths
of the tables; a default value is the zeroed structure. -/
structure MeshPlatform where
  nodes : List TileCore := []
  dmems : List DmemModule := []
  memoryPool : Ptr Buffer := .null
  totalMemorySize : ℕ := 0
  plicInstances : Fin 3 → PlicInstance := fun _ => {}

/-- The bytes of every allocation. -/
abbrev Mem := Memory Buffer

end MeshNoc
