import MeshNoc.PlatformInit.AddressManager

/-!
# The DMEM driver

Access to the registers, access to one DMEM module and the copy between modules, from
`dmem/dmem_controller.c`. The buffers of `dmem_read` and `dmem_write` are the caller's own
objects, a list of bytes, or the null pointer.
-/

namespace MeshNoc

open Lib

/-- `dmem_write_reg`. Only the region of the first byte is asked for. -/
def dmemWriteReg (p : MeshPlatform) (m : Mem) (regAddr : Addr) (value : BitVec 32) :
    Option Mem :=
  if getAddressRegion regAddr = .dmem512 then
    let regPtr := addrToPtr p regAddr
    if regPtr ≠ .null then m.store32 Buffer.size regPtr value else some m
  else some m

/-- `dmem_read_reg`. -/
def dmemReadReg (p : MeshPlatform) (m : Mem) (regAddr : Addr) : Option (BitVec 32) :=
  if getAddressRegion regAddr = .dmem512 then
    let regPtr := addrToPtr p regAddr
    if regPtr ≠ .null then m.load32 Buffer.size regPtr else some 0
  else some 0

/-- `(int)size`. -/
def intOfSize (size : Addr) : ℤ := (size.setWidth 32).toInt

theorem intOfSize_of_lt {size : Addr} (small : size.toNat < 2 ^ 31) :
    intOfSize size = size.toNat := by
  have hwidth : (size.setWidth 32).toNat = size.toNat := by
    rw [BitVec.toNat_setWidth, Nat.mod_eq_of_lt (by omega)]
  rw [intOfSize, BitVec.toInt_eq_toNat_of_lt (by omega), hwidth]

/-- The address `dmem_read` and `dmem_write` access: the sum is taken modulo `2 ^ 64`. -/
def dmemAddr (dmemId : ℤ) (offset : Addr) : Addr := dmemBases.getD dmemId.toNat 0 + offset

/-- `dmem_read`: what it returns, and what the buffer then holds. -/
def dmemRead (p : MeshPlatform) (m : Mem) (dmemId : ℤ) (offset : Addr)
    (buffer : Option (List Byte)) (size : Addr) : Option (ℤ × Option (List Byte)) :=
  if dmemId < 0 ∨ numDmems ≤ dmemId ∨ buffer = none then some (-1, buffer)
  else
    let srcAddr := dmemAddr dmemId offset
    -- the range is validated without regard to the module
    if !validateAddress srcAddr size then some (-1, buffer)
    else
      let srcPtr := addrToPtr p srcAddr
      if srcPtr = .null then some (-1, buffer)
      else do
        let target ← buffer
        let bytes ← m.load Buffer.size srcPtr size.toNat
        if size.toNat ≤ target.length then
          some (intOfSize size, some (bytes ++ target.drop size.toNat))
        else none

/-- `dmem_write`. -/
def dmemWrite (p : MeshPlatform) (m : Mem) (dmemId : ℤ) (offset : Addr)
    (buffer : Option (List Byte)) (size : Addr) : Option (ℤ × Mem) :=
  if dmemId < 0 ∨ numDmems ≤ dmemId ∨ buffer = none then some (-1, m)
  else
    let dstAddr := dmemAddr dmemId offset
    if !validateAddress dstAddr size then some (-1, m)
    else
      let dstPtr := addrToPtr p dstAddr
      if dstPtr = .null then some (-1, m)
      else do
        let source ← buffer
        if size.toNat ≤ source.length then
          let m ← m.store Buffer.size dstPtr (source.take size.toNat)
          some (intOfSize size, m)
        else none

/-- `dmem_copy`. Its `memcpy` is undefined on overlapping ranges. -/
def dmemCopy (p : MeshPlatform) (m : Mem) (srcAddr dstAddr size : Addr) : Option (ℤ × Mem) :=
  if getAddressRegion srcAddr ≠ .dmem512 ∨ getAddressRegion dstAddr ≠ .dmem512 then some (-1, m)
  else if !validateAddress srcAddr size || !validateAddress dstAddr size then some (-1, m)
  else
    let srcPtr := addrToPtr p srcAddr
    let dstPtr := addrToPtr p dstAddr
    if srcPtr = .null ∨ dstPtr = .null then some (-1, m)
    else do
      let m ← m.memcpy Buffer.size dstPtr srcPtr size.toNat
      some (0, m)

/-- `dmem_get_status`: every module is always ready. -/
def dmemGetStatus (dmemId : ℤ) : ℤ := if dmemId < 0 ∨ numDmems ≤ dmemId then -1 else 0

/-- `dmem_init`. -/
def dmemInit (dmemId : ℤ) : ℤ :=
  if dmemId < 0 ∨ numDmems ≤ dmemId then -1
  else if validateAddress (dmemBases.getD dmemId.toNat 0) 1 then 0 else -1

end MeshNoc
