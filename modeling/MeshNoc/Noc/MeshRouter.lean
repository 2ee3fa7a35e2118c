import MeshNoc.PlatformInit.AddressManager

/-!
# The mesh router

Packets and the arbitration for their destinations, from `mesh_noc/noc_packet.h` and
`mesh_noc/mesh_router.c`. The route of a packet and its timing have no effect on what the
router does; they are left out.

## Main results

* `nocSendPacket_of_free` — what a packet does when no other thread holds a lock
-/

namespace MeshNoc

open Lib

/-- `pkt_type_t`. -/
inductive PktType
  | readReq
  | readResp
  | writeReq
  | writeAck
  | dmaTransfer
  deriving DecidableEq, Repr

/-- `pkt_header_t`. The length has 16 bits. -/
structure PktHeader where
  destX : BitVec 8 := 0
  destY : BitVec 8 := 0
  srcX : BitVec 8 := 0
  srcY : BitVec 8 := 0
  type : PktType := .readReq
  length : BitVec 16 := 0
  srcAddr : Addr := 0
  dstAddr : Addr := 0
  deriving DecidableEq

/-- `destination_arbitration_locks`, whether each is held, and `arbitration_counters`. -/
structure NocArbitration where
  initialized : Bool := false
  locks : ℕ → Bool := fun _ => false
  counters : ℕ → BitVec 32 := fun _ => 0

/-- `MAX_DESTINATIONS`. -/
def maxDestinations : ℕ := 16

namespace NocArbitration

/-- `noc_init_arbitration`. -/
def nocInitArbitration (noc : NocArbitration) : NocArbitration :=
  if noc.initialized then noc
  else
    { initialized := true
      locks := fun i => if i < maxDestinations then false else noc.locks i
      counters := fun i => if i < maxDestinations then 0 else noc.counters i }

/-- `pthread_mutex_lock` on a lock that is free, and the `++arbitration_counters` of the
thread that has got it. -/
def acquire (noc : NocArbitration) (lockIndex : ℕ) : Option NocArbitration :=
  if noc.locks lockIndex then none
  else
    some { noc with
      locks := Function.update noc.locks lockIndex true
      counters := Function.update noc.counters lockIndex (noc.counters lockIndex + 1) }

/-- `pthread_mutex_unlock`. -/
def release (noc : NocArbitration) (lockIndex : ℕ) : NocArbitration :=
  { noc with locks := Function.update noc.locks lockIndex false }

end NocArbitration

/-- `get_destination_lock_index`: tiles use the locks from `0` on, DMEM modules those
from `8` on. -/
def getDestinationLockIndex (dstAddr : Addr) : ℤ :=
  let dstTile := getTileIdFromAddress dstAddr
  if 0 ≤ dstTile ∧ dstTile < 8 then dstTile
  else
    let dmemId := getDmemIdFromAddress dstAddr
    if 0 ≤ dmemId ∧ dmemId < 8 then 8 + dmemId
    else -1

/-- The source and the destination of the copy that a packet makes, if it makes one. -/
def packetPointers (p : MeshPlatform) (hdr : PktHeader) : Option (Ptr Buffer × Ptr Buffer) :=
  if hdr.type = .dmaTransfer ∧ hdr.srcAddr ≠ 0 ∧ hdr.dstAddr ≠ 0 then
    let srcPtr := addrToPtr p hdr.srcAddr
    let dstPtr := addrToPtr p hdr.dstAddr
    if srcPtr ≠ .null ∧ dstPtr ≠ .null ∧ 0 < hdr.length then some (srcPtr, dstPtr) else none
  else none

/-- `noc_send_packet`, called by one thread. -/
def nocSendPacket (p : MeshPlatform) (m : Mem) (noc : NocArbitration) (hdr : PktHeader) :
    Option (ℤ × Mem × NocArbitration) :=
  let noc := if noc.initialized then noc else noc.nocInitArbitration
  let lockIndex := getDestinationLockIndex hdr.dstAddr
  match packetPointers p hdr with
  | none => some (0, m, noc)
  | some (srcPtr, dstPtr) =>
    if 0 ≤ lockIndex then do
      let noc ← noc.acquire lockIndex.toNat
      let m ← m.memcpy Buffer.size dstPtr srcPtr hdr.length.toNat
      some (0, m, noc.release lockIndex.toNat)
    else do
      -- no contention, direct transfer
      let m ← m.memcpy Buffer.size dstPtr srcPtr hdr.length.toNat
      some (0, m, noc)

/-! ### A packet with free locks -/

theorem NocArbitration.acquire_eq {noc : NocArbitration} {l : ℕ} (free : noc.locks l = false) :
    noc.acquire l = some { noc with
      locks := Function.update noc.locks l true
      counters := Function.update noc.counters l (noc.counters l + 1) } := by
  rw [acquire, if_neg (by simp [free])]

/-- Taken and given back, the lock is free again. -/
theorem NocArbitration.release_free {noc taken : NocArbitration} {l : ℕ}
    (free : ∀ i, noc.locks i = false) (got : noc.acquire l = some taken) (i : ℕ) :
    (taken.release l).locks i = false := by
  rw [acquire_eq (free l)] at got
  obtain rfl := Option.some.inj got
  simp only [release, Function.update_idem]
  by_cases h : i = l
  · rw [h, Function.update_self]
  · rw [Function.update_of_ne h]
    exact free i

/-- The copy of a packet, if it makes one. -/
def packetCopy (p : MeshPlatform) (m : Mem) (hdr : PktHeader) : Option Mem :=
  match packetPointers p hdr with
  | none => some m
  | some (srcPtr, dstPtr) => m.memcpy Buffer.size dstPtr srcPtr hdr.length.toNat

/-- While the locks are free a packet makes its copy, if it makes one, and is answered
with `0`; the locks are free again. -/
theorem nocSendPacket_of_free (p : MeshPlatform) (m : Mem) {noc : NocArbitration}
    (free : ∀ l, noc.locks l = false) (hdr : PktHeader) :
    ∃ noc' : NocArbitration, (∀ l, noc'.locks l = false) ∧
      nocSendPacket p m noc hdr = (packetCopy p m hdr).map fun m' => (0, m', noc') := by
  -- whether or not it has to be initialised, every lock is free
  obtain ⟨ready, hready, hfree⟩ : ∃ ready : NocArbitration,
      (if noc.initialized then noc else noc.nocInitArbitration) = ready ∧
        ∀ l, ready.locks l = false := by
    by_cases h : noc.initialized
    · exact ⟨noc, if_pos h, free⟩
    · refine ⟨noc.nocInitArbitration, if_neg h, fun l => ?_⟩
      rw [NocArbitration.nocInitArbitration, if_neg h]
      exact (ite_eq_left_iff.mpr fun _ => free l)
  cases hpointers : packetPointers p hdr with
  | none =>
    refine ⟨ready, hfree, ?_⟩
    simp only [nocSendPacket, packetCopy, hready, hpointers, Option.map_some]
  | some ptrs =>
    obtain ⟨srcPtr, dstPtr⟩ := ptrs
    by_cases hlock : 0 ≤ getDestinationLockIndex hdr.dstAddr
    · have hacquire := NocArbitration.acquire_eq (hfree (getDestinationLockIndex hdr.dstAddr).toNat)
      refine ⟨_, NocArbitration.release_free hfree hacquire, ?_⟩
      simp only [nocSendPacket, packetCopy, hready, hpointers, if_pos hlock, hacquire,
        Option.bind_eq_bind, Option.bind_some]
      cases m.memcpy Buffer.size dstPtr srcPtr hdr.length.toNat <;> rfl
    · refine ⟨ready, hfree, ?_⟩
      simp only [nocSendPacket, packetCopy, hready, hpointers, if_neg hlock, Option.bind_eq_bind]
      cases m.memcpy Buffer.size dstPtr srcPtr hdr.length.toNat <;> rfl

end MeshNoc
