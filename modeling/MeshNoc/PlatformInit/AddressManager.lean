import MeshNoc.C0Master.Platform

/-!
# The address manager

Translation and classification of simulated addresses, from
`platform_init/address_manager.c`. `addr_to_ptr` searches the runtime tables of the
platform, `get_address_region` and the two id functions search the compile-time map.
All arithmetic on addresses is modulo `2 ^ 64`.
-/

namespace MeshNoc

open Lib

/-- `address >= base && address < base + size`. -/
def inRange (address base size : Addr) : Bool := base ≤ address && address < base + size

/-- `ptr + (address - base)` when the address is in the window, for one table entry of
`addr_to_ptr`. -/
def translate (address base size : Addr) (ptr : Ptr Buffer) : Option (Ptr Buffer) :=
  if inRange address base size then some (ptr.add (address - base).toNat) else none

/-- The loop of `addr_to_ptr` over the PLIC windows: at each index the C0C1 window is
tried before the NXY window. -/
def plicWindow (p : MeshPlatform) (address : Addr) (plic : Fin 3) : Option (Ptr Buffer) :=
  let c0c1Base := plic0C0c1Base + BitVec.ofNat 64 plic * plicSize
  let nxyBase := plic0NxyBase + BitVec.ofNat 64 plic * plicSize
  (translate address c0c1Base plicSize (p.plicInstances plic).c0c1Ptr).or
    (translate address nxyBase plicSize (p.plicInstances plic).nxyPtr)

/-- `addr_to_ptr`, for an initialised address manager. -/
def addrToPtr (p : MeshPlatform) (address : Addr) : Ptr Buffer :=
  let dlm64 := p.nodes.findSome? fun node =>
    translate address node.dlm64BaseAddr dlm64Size node.dlm64Ptr
  let dlm1_512 := p.nodes.findSome? fun node =>
    translate address node.dlm1_512BaseAddr dlm1_512Size node.dlm1_512Ptr
  let dmaRegs := p.nodes.findSome? fun node =>
    translate address node.dmaRegBaseAddr dmaRegSize node.dmaRegsPtr
  let dmem := p.dmems.findSome? fun dmem =>
    translate address dmem.dmemBaseAddr dmem.dmemSize dmem.dmemPtr
  let plic := (List.finRange 3).findSome? (plicWindow p address)
  let pool :=
    -- the C0 memory is a part of the pool
    if p.memoryPool ≠ .null then
      translate address c0MasterBase c0MasterSize (p.memoryPool.add 0x25000000)
    else none
  (dlm64.or (dlm1_512.or (dmaRegs.or (dmem.or (plic.or pool))))).getD .null

/-- `addr_region_t`. -/
inductive AddrRegion
  | tileDlm64
  | tileDlm1_512
  | tileDmaReg
  | dmem512
  | c0Master
  | plicC0c1
  | plicNxy
  | invalid
  deriving DecidableEq, Repr

/-- The region of an offset within a tile. -/
def tileRegion (offset : Addr) : AddrRegion :=
  if dlm64Offset ≤ offset ∧ offset < dlm64Offset + dlm64Size then .tileDlm64
  else if dlm1_512Offset ≤ offset ∧ offset < dlm1_512Offset + dlm1_512Size then .tileDlm1_512
  else if dmaRegOffset ≤ offset ∧ offset < dmaRegOffset + dmaRegSize then .tileDmaReg
  else .invalid

/-- The tile whose address space contains the address. -/
def findTile (address : Addr) : Option ℕ :=
  (List.range numTiles).find? fun tile => inRange address (tileBase tile) tileStride

/-- `get_address_region`. -/
def getAddressRegion (address : Addr) : AddrRegion :=
  match findTile address with
  | some tile => tileRegion (address - tileBase tile)
  | none =>
    -- the PLIC windows are not among the tests
    if dmemBases.any fun base => inRange address base dmem512Size then .dmem512
    else if inRange address c0MasterBase c0MasterSize then .c0Master
    else .invalid

/-- `get_tile_id_from_address`. -/
def getTileIdFromAddress (address : Addr) : ℤ :=
  match findTile address with
  | some tile => tile
  | none => -1

/-- `get_dmem_id_from_address`. -/
def getDmemIdFromAddress (address : Addr) : ℤ :=
  match dmemBases.findIdx? fun base => inRange address base dmem512Size with
  | some dmem => dmem
  | none => -1

/-- `validate_address`, its result as a truth value. -/
def validateAddress (address size : Addr) : Bool :=
  if size = 0 then false
  else
    let region := getAddressRegion address
    if region = .invalid then false
    else
      let endAddr := address + size - 1
      region = getAddressRegion endAddr

end MeshNoc
