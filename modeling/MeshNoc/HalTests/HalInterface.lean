import MeshNoc.HalTests.MeshRoute

/-!
# The whole interface of the HAL

All eleven functions of `g_hal`, as `hal_use_reference_impl` installs them, and the direct
accesses through the pointers of the platform's tables that a test makes beside them.

## Main results

* `refGetDmemStatus_eq` — the status query at every address
* `dmemInit_eq` — which modules the driver initialises
-/

namespace MeshNoc

open Lib

/-- `ref_node_sync`, which does nothing. -/
def refNodeSync (_mask : ℤ) (st : HalState) : Option (HalAnswer × HalState) := do
  let st ← st.lock
  some ({ result := 0 }, st.unlock)

/-- `ref_get_dmem_status`. -/
def refGetDmemStatus (dmemBaseAddr : Addr) (st : HalState) : Option (HalAnswer × HalState) := do
  let st ← st.lock
  if getAddressRegion dmemBaseAddr ≠ .dmem512 then some ({ result := -1 }, st.unlock)
  else
    let dmemId := getDmemIdFromAddress dmemBaseAddr
    if dmemId < 0 then some ({ result := -1 }, st.unlock)
    else some ({ result := dmemGetStatus dmemId }, st.unlock)

/-- What a user of the platform may ask for. -/
inductive HalRequest
  | data (call : HalCall)
  | nodeSync (mask : ℤ)
  | getDmemStatus (dmemBaseAddr : Addr)
  | meshRouteOptimal (srcAddr dstAddr : Addr)
  /-- Bytes stored through a pointer, without the HAL. -/
  | store (dstPtr : Ptr Buffer) (bytes : List Byte)
  /-- Bytes loaded through a pointer. -/
  | load (srcPtr : Ptr Buffer) (size : ℕ)

/-- The request, as the reference implementation carries it out. -/
def HalRequest.exec (st : HalSystem) : HalRequest → Option (HalAnswer × HalSystem)
  | data call => call.exec st
  | nodeSync mask => st.onHal (refNodeSync mask)
  | getDmemStatus dmemBaseAddr => st.onHal (refGetDmemStatus dmemBaseAddr)
  | meshRouteOptimal srcAddr dstAddr => st.onHal (refMeshRouteOptimal srcAddr dstAddr)
  | store dstPtr bytes => do
    let mem ← st.mem.store Buffer.size dstPtr bytes
    some ({ result := 0 }, { st with mem := mem })
  | load srcPtr size => do
    let bytes ← st.mem.load Buffer.size srcPtr size
    some ({ result := 0, buffer := some bytes }, st)

/-! ### The queries -/

/-- The status of an address: ready in every DMEM module, refused elsewhere. -/
def statusOf (a : Addr) : ℤ := if getAddressRegion a = .dmem512 then 0 else -1

theorem dmemGetStatus_eq (id : Fin 8) : dmemGetStatus id = 0 := by
  have hlt := id.isLt
  have hmodules : (numDmems : ℤ) = 8 := rfl
  exact if_neg (by omega)

/-- The query agrees with the classification of addresses. -/
theorem refGetDmemStatus_eq {st : HalState} (unlocked : st.halMutex.held = false) (a : Addr) :
    refGetDmemStatus a st = some ({ result := statusOf a }, st.returned st.mem) := by
  simp only [refGetDmemStatus, HalState.lock_of_unlocked unlocked, Option.bind_eq_bind,
    Option.bind_some, statusOf]
  by_cases hregion : getAddressRegion a = .dmem512
  · obtain ⟨id, hcovers⟩ := exists_dmem_covers hregion
    have hid : getDmemIdFromAddress a = id := getDmemIdFromAddress_of_covers hcovers
    rw [if_neg (not_not.mpr hregion), if_pos hregion, hid, if_neg (by omega),
      dmemGetStatus_eq id]
    rfl
  · rw [if_pos hregion, if_neg hregion]
    rfl

/-- The driver initialises exactly the modules there are. -/
theorem dmemInit_eq (dmemId : ℤ) : dmemInit dmemId =
    if 0 ≤ dmemId ∧ dmemId < numDmems then 0 else -1 := by
  have hbases : ∀ id : Fin 8, validateAddress (dmemBases.getD id 0) 1 = true := by
    decide +kernel
  by_cases hrange : 0 ≤ dmemId ∧ dmemId < numDmems
  · obtain ⟨id, rfl⟩ := Int.eq_ofNat_of_zero_le hrange.1
    have hlt : id < 8 := Int.ofNat_lt.mp hrange.2
    rw [dmemInit, if_neg (by omega), if_pos hrange]
    exact if_pos (hbases ⟨id, hlt⟩)
  · rw [dmemInit, if_pos (by omega), if_neg hrange]

end MeshNoc
