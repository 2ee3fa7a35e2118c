import MeshNoc.Lib.Locks
import MeshNoc.Noc.MeshRouter
import MeshNoc.PlatformInit.Region

/-!
# Arbitration for the destination

Any number of threads send packets. A packet takes the lock of its destination for the
time of its copy, where the lock is chosen by the start of the destination range: one lock
for each tile and one for each DMEM module. A packet whose range stays inside one of these
therefore copies alone.

## Main results

* `MeshSystem.run_alone` — a thread that no other disturbs makes `noc_send_packet`
* `destination_arbitration` — mutual exclusion, the lock indices and the counters
-/

namespace MeshNoc

open Lib

/-! ### Destinations -/

/-- The tiles and modules that packets contend for. -/
inductive Destination
  | tile (id : Fin 8)
  | dmem (id : Fin 8)
  deriving DecidableEq

namespace Destination

/-- The address lies in the address space of the tile, or in the module. -/
def Has : Destination → Addr → Prop
  | tile id, a => inRange a (tileBase id) tileStride = true
  | dmem id, a => inRange a (dmemBase id) dmem512Size = true

instance decidableHas (d : Destination) (a : Addr) : Decidable (d.Has a) := by
  unfold Has
  cases d <;> infer_instance

/-- The lock of the destination. -/
def lock : Destination → ℤ
  | tile id => id
  | dmem id => 8 + id

variable {d e : Destination} {a b : Addr}

theorem lock_nonneg (d : Destination) : 0 ≤ d.lock := by
  cases d <;> simp only [lock] <;> omega

theorem lock_le (d : Destination) : d.lock ≤ 15 := by
  cases d <;> simp only [lock] <;> omega

theorem lock_injective : Function.Injective lock := by
  intro d e same
  cases d <;> cases e <;> simp only [lock] at same
  · exact congrArg tile (Fin.ext (by omega))
  · omega
  · omega
  · exact congrArg dmem (Fin.ext (by omega))

/-- Both searches lead to the lock of the destination. -/
theorem Has.lockIndex_eq (has : d.Has a) : getDestinationLockIndex a = d.lock := by
  cases d with
  | tile id =>
    have hzero : tileBase id + 0 = tileBase id := BitVec.add_zero _
    have hoffset : (0 : Addr).toNat = 0 := rfl
    have hstride : tileStride.toNat = 0x100000 := rfl
    rw [Has, ← hzero, inRange_tile id.isLt (by decide), hoffset, hstride] at has
    have htile : getTileIdFromAddress a = id := by
      rw [getTileIdFromAddress, findTile_eq, if_pos (by omega)]
      exact congrArg Nat.cast (show a.toNat / 0x100000 = id by omega)
    rw [getDestinationLockIndex, htile, if_pos (by omega)]
    rfl
  | dmem id =>
    have covers : (Region.dmem id).Covers a := (inRange_dmem id.isLt).mp has
    rw [getDestinationLockIndex, getTileIdFromAddress_of_covers covers,
      getDmemIdFromAddress_of_covers covers, if_neg (by simp [Region.tileId]),
      if_pos (by simp only [Region.dmemId]; omega)]
    rfl

end Destination

/-- Addresses of destinations have one lock index exactly if the destination is one. -/
theorem getDestinationLockIndex_eq_iff {d e : Destination} {a b : Addr} (ha : d.Has a)
    (hb : e.Has b) : getDestinationLockIndex a = getDestinationLockIndex b ↔ d = e := by
  rw [ha.lockIndex_eq, hb.lockIndex_eq]
  exact Destination.lock_injective.eq_iff

namespace PktHeader

/-- The packet writes to the address. -/
def Reaches (hdr : PktHeader) (a : Addr) : Prop :=
  ∃ i < hdr.length.toNat, hdr.dstAddr + BitVec.ofNat 64 i = a

/-- The destination ranges of two packets share a byte. -/
def SharesByte (hdr hdr' : PktHeader) : Prop := ∃ a, hdr.Reaches a ∧ hdr'.Reaches a

/-- The destination range lies inside one tile or one module. -/
def ToOneDestination (hdr : PktHeader) : Prop :=
  ∃ d : Destination, ∀ a, hdr.Reaches a → d.Has a

end PktHeader

/-! ### Threads -/

/-- The local variables of `noc_send_packet` when it copies: the packet, its lock index and
the translated addresses. -/
structure PacketCopy where
  hdr : PktHeader
  lockIndex : ℤ
  srcPtr : Ptr Buffer
  dstPtr : Ptr Buffer

/-- Where a thread is in `noc_send_packet`. -/
inductive SendPoint
  /-- Not in the function. -/
  | outside
  /-- About to arbitrate, or to copy if there is nothing to arbitrate. -/
  | requesting (c : PacketCopy)
  /-- Holding the lock, before the copy. -/
  | acquired (c : PacketCopy)
  /-- Holding the lock, after the copy. -/
  | copied (c : PacketCopy)

namespace SendPoint

/-- The copy of the thread, from the computation of the lock index on. -/
def copy? : SendPoint → Option PacketCopy
  | outside => none
  | requesting c | acquired c | copied c => some c

/-- The copy of the thread, between acquire and release. -/
def inside? : SendPoint → Option PacketCopy
  | outside | requesting _ => none
  | acquired c | copied c => some c

/-- The lock that the thread holds. -/
def holds (point : SendPoint) : Option ℕ := point.inside?.map fun c => c.lockIndex.toNat

theorem copy?_of_inside? {point : SendPoint} {c : PacketCopy}
    (inside : point.inside? = some c) : point.copy? = some c := by
  cases point with
  | outside => simp [inside?] at inside
  | requesting c => simp [inside?] at inside
  | acquired c => exact inside
  | copied c => exact inside

end SendPoint

/-- Memory, the arbitration and the threads that send packets. -/
structure MeshSystem (ι : Type*) where
  mem : Mem
  noc : NocArbitration
  points : ι → SendPoint

/-- The steps of a thread. -/
inductive MeshAction (ι : Type*)
  /-- The call, up to the lock: the lock index and the pointers are computed. -/
  | send (i : ι) (hdr : PktHeader)
  /-- The lock is taken and the access counted. -/
  | acquire (i : ι)
  | copy (i : ι)
  | release (i : ι)

namespace MeshSystem

variable {ι : Type*} [DecidableEq ι]

/-- The thread goes on to another point. -/
def goto (st : MeshSystem ι) (i : ι) (point : SendPoint) : MeshSystem ι :=
  { st with points := Function.update st.points i point }

/-- The arbitration when a packet is sent. -/
def arbitration (st : MeshSystem ι) : NocArbitration :=
  if st.noc.initialized then st.noc else st.noc.nocInitArbitration

/-- One step of one thread of `noc_send_packet`. A thread waits for a lock that is taken. -/
def step (p : MeshPlatform) (st : MeshSystem ι) : MeshAction ι → Option (MeshSystem ι)
  | .send i hdr =>
    match st.points i with
    | .outside =>
      match packetPointers p hdr with
      | none => some { st with noc := st.arbitration }
      | some (srcPtr, dstPtr) => some <| { st with noc := st.arbitration }.goto i <|
        .requesting ⟨hdr, getDestinationLockIndex hdr.dstAddr, srcPtr, dstPtr⟩
    | _ => none
  | .acquire i =>
    match st.points i with
    | .requesting c =>
      if 0 ≤ c.lockIndex then
        (st.noc.acquire c.lockIndex.toNat).map fun noc =>
          { st with noc := noc }.goto i (.acquired c)
      else none
    | _ => none
  | .copy i =>
    match st.points i with
    | .requesting c =>
      if 0 ≤ c.lockIndex then none
      else
        -- no contention, direct transfer
        (st.mem.memcpy Buffer.size c.dstPtr c.srcPtr c.hdr.length.toNat).map fun mem =>
          { st with mem := mem }.goto i .outside
    | .acquired c =>
      (st.mem.memcpy Buffer.size c.dstPtr c.srcPtr c.hdr.length.toNat).map fun mem =>
        { st with mem := mem }.goto i (.copied c)
    | _ => none
  | .release i =>
    match st.points i with
    | .copied c =>
      some ({ st with noc := st.noc.release c.lockIndex.toNat }.goto i .outside)
    | _ => none

/-- The steps of an interleaving. -/
def run (p : MeshPlatform) (st : MeshSystem ι) : List (MeshAction ι) → Option (MeshSystem ι)
  | [] => some st
  | a :: rest => do
    let st' ← st.step p a
    st'.run p rest

/-- The locks are initialised and free, and no packet has been sent. -/
def start (m : Mem) : MeshSystem ι where
  mem := m
  noc := NocArbitration.nocInitArbitration {}
  points := fun _ => .outside

/-- The step takes lock `l`. -/
def takes (st : MeshSystem ι) (l : ℕ) : MeshAction ι → Bool
  | .acquire i =>
    match st.points i with
    | .requesting c => c.lockIndex.toNat = l
    | _ => false
  | _ => false

/-- How often lock `l` is acquired in an interleaving. -/
def acquisitions (p : MeshPlatform) (l : ℕ) (st : MeshSystem ι) : List (MeshAction ι) → ℕ
  | [] => 0
  | a :: rest =>
    match st.step p a with
    | none => 0
    | some st' => (st.takes l a).toNat + st'.acquisitions p l rest

end MeshSystem

/-- The packet that the step sends. -/
def MeshAction.packet? {ι : Type*} : MeshAction ι → Option PktHeader
  | send _ hdr => some hdr
  | _ => none

/-- The thread that makes the step. -/
def MeshAction.thread {ι : Type*} : MeshAction ι → ι
  | send i _ | acquire i | copy i | release i => i

/-! ### What a step does -/

theorem packetPointers_length {p : MeshPlatform} {hdr : PktHeader} {ptrs : Ptr Buffer × Ptr Buffer}
    (copies : packetPointers p hdr = some ptrs) : 0 < hdr.length.toNat := by
  simp only [packetPointers] at copies
  split_ifs at copies with htype hptrs
  exact hptrs.2.2

namespace MeshSystem

variable {ι : Type*} [DecidableEq ι] {p : MeshPlatform} {st st' : MeshSystem ι} {i j : ι}
  {a : MeshAction ι} {actions : List (MeshAction ι)} {l : ℕ}

@[simp] theorem goto_points (point : SendPoint) :
    (st.goto i point).points = Function.update st.points i point := rfl

@[simp] theorem goto_noc (point : SendPoint) : (st.goto i point).noc = st.noc := rfl

/-- What a step does to the system. -/
inductive Effect (p : MeshPlatform) (st : MeshSystem ι) : MeshAction ι → MeshSystem ι → Prop
  | sendNothing {i hdr} (outside : st.points i = .outside)
      (nothing : packetPointers p hdr = none) :
      Effect p st (.send i hdr) { st with noc := st.arbitration }
  | send {i hdr srcPtr dstPtr} (outside : st.points i = .outside)
      (ptrs : packetPointers p hdr = some (srcPtr, dstPtr)) :
      Effect p st (.send i hdr) ({ st with noc := st.arbitration }.goto i
        (.requesting ⟨hdr, getDestinationLockIndex hdr.dstAddr, srcPtr, dstPtr⟩))
  | acquire {i c} (requesting : st.points i = .requesting c) (arbitrated : 0 ≤ c.lockIndex)
      (free : st.noc.locks c.lockIndex.toNat = false) :
      Effect p st (.acquire i)
        ({ st with noc := { st.noc with
            locks := Function.update st.noc.locks c.lockIndex.toNat true
            counters := Function.update st.noc.counters c.lockIndex.toNat
              (st.noc.counters c.lockIndex.toNat + 1) } }.goto i (.acquired c))
  | direct {i c mem} (requesting : st.points i = .requesting c) (free : c.lockIndex < 0) :
      Effect p st (.copy i) ({ st with mem := mem }.goto i .outside)
  | copy {i c mem} (acquired : st.points i = .acquired c) :
      Effect p st (.copy i) ({ st with mem := mem }.goto i (.copied c))
  | release {i c} (copied : st.points i = .copied c) :
      Effect p st (.release i)
        ({ st with noc := st.noc.release c.lockIndex.toNat }.goto i .outside)

theorem effect_of_step (stepped : st.step p a = some st') : Effect p st a st' := by
  cases a with
  | send i hdr =>
    simp only [step] at stepped
    split at stepped
    next outside =>
      split at stepped
      next nothing =>
        obtain rfl := Option.some.inj stepped
        exact .sendNothing outside nothing
      next srcPtr dstPtr ptrs =>
        obtain rfl := Option.some.inj stepped
        exact .send outside ptrs
    next => simp at stepped
  | acquire i =>
    simp only [step] at stepped
    split at stepped
    next c requesting =>
      split_ifs at stepped with arbitrated
      obtain ⟨noc, hacquire, rfl⟩ := Option.map_eq_some_iff.mp stepped
      simp only [NocArbitration.acquire] at hacquire
      split_ifs at hacquire with taken
      obtain rfl := Option.some.inj hacquire
      exact .acquire requesting arbitrated (Bool.eq_false_iff.mpr taken)
    next => simp at stepped
  | copy i =>
    simp only [step] at stepped
    split at stepped
    next c requesting =>
      split_ifs at stepped with arbitrated
      obtain ⟨mem, -, rfl⟩ := Option.map_eq_some_iff.mp stepped
      exact .direct requesting (not_le.mp arbitrated)
    next c acquired =>
      obtain ⟨mem, -, rfl⟩ := Option.map_eq_some_iff.mp stepped
      exact .copy acquired
    next => simp at stepped
  | release i =>
    simp only [step] at stepped
    split at stepped
    next c copied =>
      obtain rfl := Option.some.inj stepped
      exact .release copied
    next => simp at stepped

/-- A thread that no other disturbs makes `noc_send_packet`. -/
theorem run_alone {hdr : PktHeader} {result : ℤ} {mem : Mem} {noc : NocArbitration}
    (outside : st.points i = .outside)
    (sent : nocSendPacket p st.mem st.noc hdr = some (result, mem, noc)) :
    ∃ actions, (∀ a ∈ actions, a.thread = i) ∧
      st.run p actions = some { st with mem := mem, noc := noc } := by
  have hback : ∀ points : ι → SendPoint, (∀ j ≠ i, points j = st.points j) →
      Function.update points i .outside = st.points := by
    intro points others
    funext j
    by_cases hj : j = i
    · rw [hj, Function.update_self, outside]
    · rw [Function.update_of_ne hj, others j hj]
  cases hptrs : packetPointers p hdr with
  | none =>
    simp only [nocSendPacket, hptrs, Option.some.injEq, Prod.mk.injEq] at sent
    obtain ⟨-, rfl, rfl⟩ := sent
    refine ⟨[.send i hdr], by simp [MeshAction.thread], ?_⟩
    simp only [run, step, outside, hptrs]
    rfl
  | some ptrs =>
    obtain ⟨srcPtr, dstPtr⟩ := ptrs
    have hsend : nocSendPacket p st.mem st.noc hdr =
        if 0 ≤ getDestinationLockIndex hdr.dstAddr then do
          let noc ← st.arbitration.acquire (getDestinationLockIndex hdr.dstAddr).toNat
          let m ← st.mem.memcpy Buffer.size dstPtr srcPtr hdr.length.toNat
          some (0, m, noc.release (getDestinationLockIndex hdr.dstAddr).toNat)
        else (do
          let m ← st.mem.memcpy Buffer.size dstPtr srcPtr hdr.length.toNat
          some (0, m, st.arbitration)) := by
      simp only [nocSendPacket, hptrs]
      rfl
    by_cases arbitrated : 0 ≤ getDestinationLockIndex hdr.dstAddr
    · rw [hsend, if_pos arbitrated] at sent
      obtain ⟨held, hacquire, hrest⟩ := Option.bind_eq_some_iff.mp sent
      obtain ⟨copied, hcopy, hresult⟩ := Option.bind_eq_some_iff.mp hrest
      obtain ⟨-, rfl, rfl⟩ := by simpa using hresult
      refine ⟨[.send i hdr, .acquire i, .copy i, .release i], by simp [MeshAction.thread], ?_⟩
      simp [run, step, outside, hptrs, arbitrated, goto, hacquire, hcopy, hback]
    · rw [hsend, if_neg arbitrated] at sent
      obtain ⟨copied, hcopy, hresult⟩ := Option.bind_eq_some_iff.mp sent
      obtain ⟨-, rfl, rfl⟩ := by simpa using hresult
      refine ⟨[.send i hdr, .copy i], by simp [MeshAction.thread], ?_⟩
      simp [run, step, outside, hptrs, arbitrated, goto, hcopy, hback]

/-! ### The invariant -/

/-- Every copy goes to one destination and uses its lock, and the locks are owned by the
threads inside. -/
structure ArbitrationInv (st : MeshSystem ι) : Prop where
  initialized : st.noc.initialized = true
  lockIndex : ∀ i c, (st.points i).copy? = some c → c.hdr.ToOneDestination ∧
    0 < c.hdr.length.toNat ∧ c.lockIndex = getDestinationLockIndex c.hdr.dstAddr
  owned : LocksOwned (fun i => (st.points i).holds) st.noc.locks

omit [DecidableEq ι] in
theorem arbitrationInv_start (m : Mem) : ArbitrationInv (start m : MeshSystem ι) where
  initialized := rfl
  lockIndex i c h := by simp [start, SendPoint.copy?] at h
  owned := .of_none fun _ => rfl

/-- A copy in progress after a step was in progress before, or is the one just sent. -/
theorem ArbitrationInv.goto_lockIndex (inv : ArbitrationInv st) {point : SendPoint}
    (known : ∀ c, point.copy? = some c → (st.points i).copy? = some c ∨
      c.hdr.ToOneDestination ∧ 0 < c.hdr.length.toNat ∧
        c.lockIndex = getDestinationLockIndex c.hdr.dstAddr) (j : ι) (c : PacketCopy)
    (h : (Function.update st.points i point j).copy? = some c) :
    c.hdr.ToOneDestination ∧ 0 < c.hdr.length.toNat ∧
      c.lockIndex = getDestinationLockIndex c.hdr.dstAddr := by
  by_cases hj : j = i
  · rw [hj, Function.update_self] at h
    exact (known c h).elim (inv.lockIndex i c) id
  · rw [Function.update_of_ne hj] at h
    exact inv.lockIndex j c h

omit [DecidableEq ι] in
theorem ArbitrationInv.arbitration_eq (inv : ArbitrationInv st) : st.arbitration = st.noc :=
  if_pos inv.initialized

/-- A step that changes the point of a thread, but not the lock that it holds. -/
theorem ArbitrationInv.goto_owned (inv : ArbitrationInv st) {point : SendPoint}
    (same : point.holds = (st.points i).holds) :
    LocksOwned (fun j => (Function.update st.points i point j).holds) st.noc.locks := by
  refine inv.owned.congr fun j => ?_
  by_cases hj : j = i
  · rw [hj, Function.update_self, same]
  · rw [Function.update_of_ne hj]

/-- Each step keeps the invariant, if the packet it sends goes to one destination. -/
theorem ArbitrationInv.step (inv : ArbitrationInv st) (stepped : st.step p a = some st')
    (packets : ∀ hdr, a.packet? = some hdr → hdr.ToOneDestination) : ArbitrationInv st' := by
  have hothers : ∀ (i : ι) (point : SendPoint), ∀ j ≠ i,
      (Function.update st.points i point j).holds = (st.points j).holds :=
    fun i point j hj => by rw [Function.update_of_ne hj]
  cases effect_of_step stepped with
  | sendNothing outside nothing =>
    rw [inv.arbitration_eq]
    exact inv
  | send outside ptrs =>
    rw [inv.arbitration_eq]
    refine ⟨inv.initialized, inv.goto_lockIndex fun c hc => ?_, inv.goto_owned ?_⟩
    · obtain rfl := Option.some.inj hc
      exact .inr ⟨packets _ rfl, packetPointers_length ptrs, rfl⟩
    · rw [outside]
      rfl
  | @acquire i c requesting arbitrated free =>
    refine ⟨inv.initialized, inv.goto_lockIndex fun c hc => .inl ?_, ?_⟩
    · rw [requesting]
      exact hc
    · refine inv.owned.take free (i := i) ?_ (hothers i _)
      simp [SendPoint.holds, SendPoint.inside?]
  | direct requesting free =>
    refine ⟨inv.initialized, inv.goto_lockIndex fun c hc => ?_, inv.goto_owned ?_⟩
    · simp [SendPoint.copy?] at hc
    · rw [requesting]
      rfl
  | copy acquired =>
    refine ⟨inv.initialized, inv.goto_lockIndex fun c hc => .inl ?_, inv.goto_owned ?_⟩
    · rw [acquired]
      exact hc
    · rw [acquired]
      rfl
  | @release i c copied =>
    refine ⟨inv.initialized, inv.goto_lockIndex fun c hc => ?_, ?_⟩
    · simp [SendPoint.copy?] at hc
    · refine inv.owned.drop (i := i) (k := c.lockIndex.toNat) ?_ ?_ (hothers i _)
      · rw [copied]
        rfl
      · simp [SendPoint.holds, SendPoint.inside?]

omit [DecidableEq ι] in
/-- The lock of a copy that is in progress. -/
theorem ArbitrationInv.lockIndex_mem (inv : ArbitrationInv st) {c : PacketCopy}
    (h : (st.points i).copy? = some c) : c.lockIndex = getDestinationLockIndex c.hdr.dstAddr ∧
      0 ≤ c.lockIndex ∧ c.lockIndex ≤ 15 := by
  obtain ⟨⟨d, inside⟩, hlength, hindex⟩ := inv.lockIndex i c h
  have hstart : d.Has c.hdr.dstAddr := inside _ ⟨0, hlength, BitVec.add_zero _⟩
  rw [hindex, hstart.lockIndex_eq]
  exact ⟨rfl, d.lock_nonneg, d.lock_le⟩

omit [DecidableEq ι] in
/-- Two packets that write to one byte have one destination, hence one lock, which one
thread holds. -/
theorem ArbitrationInv.exclusive (inv : ArbitrationInv st) {c c' : PacketCopy}
    (hi : (st.points i).inside? = some c) (hj : (st.points j).inside? = some c')
    (share : c.hdr.SharesByte c'.hdr) : i = j := by
  obtain ⟨⟨d, inside⟩, hlength, hindex⟩ := inv.lockIndex i c (SendPoint.copy?_of_inside? hi)
  obtain ⟨⟨e, inside'⟩, hlength', hindex'⟩ := inv.lockIndex j c' (SendPoint.copy?_of_inside? hj)
  obtain ⟨a, hreach, hreach'⟩ := share
  have hsame : getDestinationLockIndex a = getDestinationLockIndex a := rfl
  obtain rfl : d = e :=
    (getDestinationLockIndex_eq_iff (inside a hreach) (inside' a hreach')).mp hsame
  have hstart : d.Has c.hdr.dstAddr := inside _ ⟨0, hlength, BitVec.add_zero _⟩
  have hstart' : d.Has c'.hdr.dstAddr := inside' _ ⟨0, hlength', BitVec.add_zero _⟩
  have hlock : c.lockIndex = c'.lockIndex := by
    rw [hindex, hindex', hstart.lockIndex_eq, hstart'.lockIndex_eq]
  refine inv.owned.holder_unique i j c.lockIndex.toNat ?_ ?_
  · exact congrArg (Option.map _) hi
  · rw [hlock]
    exact congrArg (Option.map _) hj

/-! ### Counting -/

/-- A step counts the acquisition it makes. -/
theorem ArbitrationInv.counters_step (inv : ArbitrationInv st)
    (stepped : st.step p a = some st') (l : ℕ) :
    st'.noc.counters l = st.noc.counters l + BitVec.ofNat 32 (st.takes l a).toNat := by
  cases effect_of_step stepped with
  | sendNothing outside nothing => simp [inv.arbitration_eq, takes]
  | send outside ptrs => simp [inv.arbitration_eq, takes]
  | @acquire i c requesting arbitrated free =>
    simp only [goto_noc, takes, requesting]
    by_cases hl : c.lockIndex.toNat = l
    · simp [hl]
    · simp [hl, Function.update_of_ne (Ne.symm hl)]
  | direct requesting free => simp [takes]
  | copy acquired => simp [takes]
  | release copied => simp [takes, NocArbitration.release]

/-- What a run of steps preserves: the invariant, and that the counters count. -/
theorem ArbitrationInv.run (inv : ArbitrationInv st) (ran : st.run p actions = some st')
    (packets : ∀ a ∈ actions, ∀ hdr, a.packet? = some hdr → hdr.ToOneDestination) :
    ArbitrationInv st' ∧ ∀ l, st'.noc.counters l =
      st.noc.counters l + BitVec.ofNat 32 (st.acquisitions p l actions) := by
  induction actions generalizing st with
  | nil =>
    obtain rfl := Option.some.inj ran
    exact ⟨inv, fun l => by simp [acquisitions]⟩
  | cons a rest ih =>
    obtain ⟨next, hstep, hrest⟩ := Option.bind_eq_some_iff.mp ran
    have hnext := inv.step hstep (packets a List.mem_cons_self)
    obtain ⟨hinv, hcount⟩ := ih hnext hrest fun b hb => packets b (List.mem_cons_of_mem a hb)
    refine ⟨hinv, fun l => ?_⟩
    rw [hcount l, inv.counters_step hstep l, acquisitions, hstep, BitVec.ofNat_add, add_assoc]

/-- The number of packets that an interleaving sends. -/
def packetsSent (actions : List (MeshAction ι)) : ℕ := (actions.filterMap (·.packet?)).length

/-- A thread that goes to a point where it waits for no lock. -/
theorem waiting_goto {waiting : Finset ι} {point : SendPoint}
    (hwaiting : ∀ j c, st.points j = .requesting c → j ∈ waiting)
    (settled : ∀ c, point ≠ .requesting c) (j : ι) (c : PacketCopy)
    (h : Function.update st.points i point j = .requesting c) : j ≠ i ∧ j ∈ waiting := by
  have hj : j ≠ i := by
    rintro rfl
    rw [Function.update_self] at h
    exact settled c h
  rw [Function.update_of_ne hj] at h
  exact ⟨hj, hwaiting j c h⟩

/-- A step that takes a lock ends a wait, and only a packet sent begins one. -/
theorem waiting_step {waiting : Finset ι}
    (hwaiting : ∀ i c, st.points i = .requesting c → i ∈ waiting)
    (stepped : st.step p a = some st') (l : ℕ) :
    ∃ waiting' : Finset ι, (∀ i c, st'.points i = .requesting c → i ∈ waiting') ∧
      (st.takes l a).toNat + waiting'.card ≤ waiting.card + a.packet?.isSome.toNat := by
  cases effect_of_step stepped with
  | sendNothing outside nothing => exact ⟨waiting, hwaiting, by simp [takes]⟩
  | @send i hdr srcPtr dstPtr outside ptrs =>
    refine ⟨insert i waiting, fun j c h => ?_, ?_⟩
    · by_cases hj : j = i
      · exact hj ▸ Finset.mem_insert_self i waiting
      · rw [goto_points, Function.update_of_ne hj] at h
        exact Finset.mem_insert_of_mem (hwaiting j c h)
    · simpa [takes, MeshAction.packet?] using Finset.card_insert_le i waiting
  | @acquire i c requesting arbitrated free =>
    refine ⟨waiting.erase i, fun j c' h => ?_, ?_⟩
    · obtain ⟨hj, hmem⟩ := waiting_goto hwaiting (by simp) j c' h
      exact Finset.mem_erase.mpr ⟨hj, hmem⟩
    · have hcard := Finset.card_erase_add_one (hwaiting i c requesting)
      have htakes := Bool.toNat_le (st.takes l (.acquire i))
      omega
  | direct requesting free =>
    refine ⟨waiting, fun j c' h => ?_, by simp [takes]⟩
    exact (waiting_goto hwaiting (by simp) j c' h).2
  | copy acquired =>
    refine ⟨waiting, fun j c' h => ?_, by simp [takes]⟩
    exact (waiting_goto hwaiting (by simp) j c' h).2
  | release copied =>
    refine ⟨waiting, fun j c' h => ?_, by simp [takes]⟩
    exact (waiting_goto hwaiting (by simp) j c' h).2

omit [DecidableEq ι] in
theorem packetsSent_cons (a : MeshAction ι) (rest : List (MeshAction ι)) :
    packetsSent (a :: rest) = a.packet?.isSome.toNat + packetsSent rest := by
  rw [packetsSent, List.filterMap_cons]
  cases a.packet? with
  | none => simp [packetsSent]
  | some hdr => simp [packetsSent, Nat.add_comm]

/-- An acquisition is made for a packet that was waiting, or is sent in the interleaving. -/
theorem acquisitions_le {waiting : Finset ι}
    (hwaiting : ∀ i c, st.points i = .requesting c → i ∈ waiting) :
    st.acquisitions p l actions ≤ waiting.card + packetsSent actions := by
  induction actions generalizing st waiting with
  | nil => exact Nat.zero_le _
  | cons a rest ih =>
    cases hstep : st.step p a with
    | none => simp [acquisitions, hstep]
    | some next =>
      obtain ⟨waiting', hwaiting', hle⟩ := waiting_step hwaiting hstep l
      have hrest := ih hwaiting'
      simp only [acquisitions, hstep, packetsSent_cons]
      omega

/-! ### Main result -/

/-- Packets with one destination each, sent by any number of threads from initialised
locks, in any interleaving. Two packets whose destination ranges share a byte are never
both between acquire and release. The lock of a packet is that of its start address, one
of sixteen; the addresses of one tile or module share it with no other. While fewer than
`2 ^ 31` packets have been sent, each counter is the number of acquisitions of its lock. -/
theorem destination_arbitration {m : Mem}
    (packets : ∀ a ∈ actions, ∀ hdr, a.packet? = some hdr →
      hdr.type = .dmaTransfer ∧ hdr.ToOneDestination)
    (ran : (start m).run p actions = some st) :
    (∀ i j c c', (st.points i).inside? = some c → (st.points j).inside? = some c' →
      c.hdr.SharesByte c'.hdr → i = j) ∧
    (∀ i c, (st.points i).copy? = some c →
      c.lockIndex = getDestinationLockIndex c.hdr.dstAddr ∧
        0 ≤ c.lockIndex ∧ c.lockIndex ≤ 15) ∧
    (∀ (d e : Destination) (a b : Addr), d.Has a → e.Has b →
      (getDestinationLockIndex a = getDestinationLockIndex b ↔ d = e)) ∧
    (packetsSent actions < 2 ^ 31 → ∀ l,
      (st.noc.counters l).toInt = (start m).acquisitions p l actions) := by
  obtain ⟨inv, hcount⟩ := (arbitrationInv_start m).run ran
    fun a ha hdr hsent => (packets a ha hdr hsent).2
  refine ⟨fun i j c c' => inv.exclusive, fun i c => inv.lockIndex_mem,
    fun d e a b => getDestinationLockIndex_eq_iff, fun few l => ?_⟩
  have hle : (start m).acquisitions p l actions ≤ packetsSent actions := by
    have hbound : (start m).acquisitions p l actions ≤
        (∅ : Finset ι).card + packetsSent actions :=
      acquisitions_le fun i c h => by simp [start] at h
    simpa using hbound
  have hzero : (start m : MeshSystem ι).noc.counters l = 0#32 := by
    simp [start, NocArbitration.nocInitArbitration]
  rw [hcount l, hzero, BitVec.zero_add, BitVec.toInt_eq_toNat_cond, BitVec.toNat_ofNat,
    Nat.mod_eq_of_lt (by omega), if_pos (by omega)]

/-- A packet for tile 1, of 64 bytes. -/
def samplePacket : PktHeader where
  type := .dmaTransfer
  length := 64
  srcAddr := 0x10000
  dstAddr := 0x110000

/-- Of two threads that send it, one has got the lock. -/
theorem destination_arbitration_pair : ∃ st : MeshSystem (Fin 2),
    (start zeroMem).run platformAfterSetup
      [.send 0 samplePacket, .send 1 samplePacket, .acquire 0] = some st ∧
    ∀ i j c c', (st.points i).inside? = some c → (st.points j).inside? = some c' →
      c.hdr.SharesByte c'.hdr → i = j := by
  have hdestination : samplePacket.ToOneDestination := by
    refine ⟨.tile 1, ?_⟩
    rintro a ⟨i, hi, rfl⟩
    have htile : ∀ i : Fin 64, (Destination.tile 1).Has
        (samplePacket.dstAddr + BitVec.ofNat 64 i) := by decide
    exact htile ⟨i, hi⟩
  obtain ⟨st, ran⟩ := Option.isSome_iff_exists.mp (show ((start zeroMem).run platformAfterSetup
    [.send (0 : Fin 2) samplePacket, .send 1 samplePacket, .acquire 0]).isSome by decide +kernel)
  refine ⟨st, ran, (destination_arbitration ?_ ran).1⟩
  intro a ha hdr hsent
  obtain rfl : hdr = samplePacket := by
    simp only [List.mem_cons, List.not_mem_nil, or_false] at ha
    obtain rfl | rfl | rfl := ha
    · exact (Option.some.inj hsent).symm
    · exact (Option.some.inj hsent).symm
    · simp [MeshAction.packet?] at hsent
  exact ⟨rfl, hdestination⟩

end MeshSystem

end MeshNoc
