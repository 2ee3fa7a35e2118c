import MeshNoc.Dmem.DmemController
import MeshNoc.PlatformInit.SystemSetup

/-!
# The reference implementation of the HAL

The memory functions of `g_hal`, from `hal_tests/hal_reference.c`. A call is undefined
(`none`) where the C call is, and where it would wait for a lock that its own thread
holds. The buffers of `memory_read` and `memory_write` are the caller's own objects, a
list of bytes, or the null pointer.
-/

namespace MeshNoc

open Lib

/-- `hal_mutex`: whether it is held, and how often it has been released. -/
structure HalMutex where
  held : Bool := false
  released : ℕ := 0

/-- What the HAL works on. -/
structure HalState extends PlatformState where
  /-- `hal_set_platform` has been called. -/
  platformSet : Bool := false
  halMutex : HalMutex := {}

/-- The state in which `platform_setup` leaves the HAL: it calls
`hal_use_reference_impl` and `hal_set_platform` itself. -/
def HalState.afterSetup (st : PlatformState) : HalState := { st with platformSet := true }

/-- `pthread_mutex_lock(&hal_mutex)`. -/
def HalState.lock (st : HalState) : Option HalState :=
  if st.halMutex.held then none else some { st with halMutex.held := true }

theorem HalState.lock_of_unlocked {st : HalState} (unlocked : st.halMutex.held = false) :
    st.lock = some { st with halMutex.held := true } := by
  rw [HalState.lock, if_neg (by simp [unlocked])]

/-- `pthread_mutex_unlock(&hal_mutex)`. -/
def HalState.unlock (st : HalState) : HalState :=
  { st with halMutex := { held := false, released := st.halMutex.released + 1 } }

/-- What a call returns, and for `memory_read` what the caller's buffer then holds. -/
structure HalAnswer where
  result : ℤ
  buffer : Option (List Byte) := none
  deriving DecidableEq, Repr

/-- `ref_cpu_local_move`. -/
def refCpuLocalMove (srcAddr dstAddr size : Addr) (st : HalState) :
    Option (HalAnswer × HalState) := do
  let st ← st.lock
  let srcPtr := addrToPtr st.platform srcAddr
  let dstPtr := addrToPtr st.platform dstAddr
  -- translated first, validated second
  if srcPtr = .null ∨ dstPtr = .null then some ({ result := -1 }, st.unlock)
  else if !validateAddress srcAddr size || !validateAddress dstAddr size then
    some ({ result := -1 }, st.unlock)
  else
    let mem ← st.mem.memmove Buffer.size dstPtr srcPtr size.toNat
    some ({ result := 0 }, { st with mem := mem }.unlock)

/-- `ref_dmem_to_dmem_transfer`. -/
def refDmemToDmemTransfer (srcAddr dstAddr size : Addr) (st : HalState) :
    Option (HalAnswer × HalState) := do
  let st ← st.lock
  if !st.platformSet then some ({ result := -1 }, st.unlock)
  else if !validateAddress srcAddr size || !validateAddress dstAddr size then
    some ({ result := -1 }, st.unlock)
  else if getAddressRegion srcAddr ≠ .dmem512 ∨ getAddressRegion dstAddr ≠ .dmem512 then
    some ({ result := -1 }, st.unlock)
  else
    -- the driver checks and translates both addresses once more
    let (result, mem) ← dmemCopy st.platform st.mem srcAddr dstAddr size
    some ({ result := result }, { st with mem := mem }.unlock)

/-- The memory access functions: the arguments and the range are checked, the address is
translated, and memory is accessed through the pointer. `access` gives the caller's
buffer and the memory after the access. -/
def memoryAccess (argumentsOk : Bool) (addr size : Addr) (buffer : Option (List Byte))
    (access : Ptr Buffer → Mem → Option (Option (List Byte) × Mem)) (st : HalState) :
    Option (HalAnswer × HalState) := do
  let st ← st.lock
  if !argumentsOk then some (⟨-1, buffer⟩, st.unlock)
  else if !validateAddress addr size then some (⟨-1, buffer⟩, st.unlock)
  else
    let ptr := addrToPtr st.platform addr
    if ptr = .null then some (⟨-1, buffer⟩, st.unlock)
    else
      let (buffer, mem) ← access ptr st.mem
      some (⟨intOfSize size, buffer⟩, { st with mem := mem }.unlock)

/-- `ref_memory_read`. -/
def refMemoryRead (addr : Addr) (buffer : Option (List Byte)) (size : Addr) :
    HalState → Option (HalAnswer × HalState) :=
  memoryAccess (buffer.isSome && size != 0) addr size buffer fun srcPtr m => do
    let target ← buffer
    let bytes ← m.load Buffer.size srcPtr size.toNat
    if size.toNat ≤ target.length then some (some (bytes ++ target.drop size.toNat), m) else none

/-- `ref_memory_write`. -/
def refMemoryWrite (addr : Addr) (buffer : Option (List Byte)) (size : Addr) :
    HalState → Option (HalAnswer × HalState) :=
  memoryAccess (buffer.isSome && size != 0) addr size none fun dstPtr m => do
    let source ← buffer
    if size.toNat ≤ source.length then
      let m ← m.store Buffer.size dstPtr (source.take size.toNat)
      some (none, m)
    else none

/-- The loop of `ref_memory_fill`: byte `i` becomes `(uint8_t)(value + i)`. -/
def fillPattern (value : Byte) (n : ℕ) (dstPtr : Ptr Buffer) (m : Mem) : Option Mem :=
  (List.range n).foldlM (fun m i => m.storeByte Buffer.size (dstPtr.add i)
    ((value.setWidth 64 + BitVec.ofNat 64 i).setWidth 8)) m

/-- `ref_memory_fill`. -/
def refMemoryFill (addr : Addr) (value : Byte) (size : Addr) :
    HalState → Option (HalAnswer × HalState) :=
  memoryAccess (size != 0) addr size none fun dstPtr m => do
    let m ← fillPattern value size.toNat dstPtr m
    some (none, m)

/-- `ref_memory_set`. -/
def refMemorySet (addr : Addr) (value : Byte) (size : Addr) :
    HalState → Option (HalAnswer × HalState) :=
  memoryAccess (size != 0) addr size none fun dstPtr m => do
    let m ← m.memset Buffer.size dstPtr value size.toNat
    some (none, m)

end MeshNoc
