import MeshNoc.HalTests.FlatInterface
import MeshNoc.HalTests.TestPrograms

/-!
# Programs on the flat memory

Rules for programs that use the HAL, verified on the flat memory: what a call leaves in the
ranges of memory it writes and in those it does not meet, and the precondition of each of
the small programs that the tests are made of. What is shown on the flat memory holds from
every ready state of the platform.

## Main results

* `HalReady.wp` — from the flat memory to the platform
* `Transfer.Whole.copies`, `copies_dmaLocalTransfer` — the transfers that copy
-/

namespace MeshNoc

open Lib

/-- The flat memory as a machine. A request outside the contract is undefined. -/
noncomputable def HalRequest.flatStep (mem : FlatMemory) (request : HalRequest) :
    Option (HalAnswer × FlatMemory) :=
  open Classical in if request.InContract then some (request.flat mem) else none

open HalRequest (flatStep)

variable {mem : FlatMemory} {addr src dst size : Addr}

theorem flatStep_of_inContract {request : HalRequest} (contract : request.InContract) :
    flatStep mem request = some (request.answer mem, request.effect mem) := if_pos contract

/-- A program that is right on the flat memory is right on the platform. -/
theorem HalReady.wp {α : Type} {st : HalSystem} (ready : HalReady st) {c : HalClient α}
    {Q : α → FlatMemory → Prop} (h : c.wp flatStep Q (regionByte st.mem)) :
    c.wp HalRequest.exec (fun value st' => ∃ mem, HalHolds st' mem ∧ Q value mem) st := by
  refine Client.wp_of_refines (fun st mem request output mem' holds hstep => ?_) ready.holds h
  by_cases hcontract : request.InContract
  · rw [flatStep_of_inContract hcontract, Option.some.injEq, Prod.mk.injEq] at hstep
    obtain ⟨rfl, rfl⟩ := hstep
    exact holds.exec hcontract
  · rw [HalRequest.flatStep, if_neg hcontract] at hstep
    exact absurd hstep.symm (Option.some_ne_none _)

/-! ### The bytes of a range -/

theorem InRegion.toNat_add (inside : InRegion addr size) {i : ℕ} (hi : i < size.toNat) :
    (addr + BitVec.ofNat 64 i).toNat = addr.toNat + i := by
  obtain ⟨r, hr⟩ := inside.contains fun hzero => by
    rw [hzero] at hi
    exact absurd hi (Nat.not_lt_zero i)
  exact hr.toNat_add hi

namespace FlatMemory

@[simp] theorem length_bytes (n : ℕ) : (mem.bytes addr n).length = n := by
  rw [bytes, List.length_map, List.length_range]

theorem bytes_congr {mem' : FlatMemory} {n : ℕ}
    (same : ∀ i < n, mem' (addr + BitVec.ofNat 64 i) = mem (addr + BitVec.ofNat 64 i)) :
    mem'.bytes addr n = mem.bytes addr n :=
  List.map_congr_left fun i hi => same i (List.mem_range.mp hi)

/-- What has been written to a range. -/
theorem bytes_flatPut_self (inside : InRegion addr size) (f : ℕ → Byte) :
    bytes (Placement.flatPut BitVec.toNat mem addr.toNat size.toNat f) addr size.toNat =
      (List.range size.toNat).map f := by
  refine List.map_congr_left fun i hi => ?_
  have hvalue := inside.toNat_add (List.mem_range.mp hi)
  have hlt := List.mem_range.mp hi
  rw [Placement.flatPut_of_mem _ (by omega) (by omega), hvalue, Nat.add_sub_cancel_left]

/-- A range that a write does not meet. -/
theorem bytes_flatPut_of_apart (inside : InRegion addr size) {n : Addr} {count : ℕ}
    (le : count ≤ n.toNat) (apart : ¬ RangesMeet addr size dst n) (f : ℕ → Byte) :
    bytes (Placement.flatPut BitVec.toNat mem dst.toNat count f) addr size.toNat =
      mem.bytes addr size.toNat := by
  refine bytes_congr fun i hi => Placement.flatPut_of_not_mem _ ?_
  rw [inside.toNat_add hi]
  unfold RangesMeet at apart
  omega

/-- A range that meets no register of the engine. -/
theorem bytes_onRegisters_of_apart (inside : InRegion addr size) {tile : ℕ}
    (apart : size.toNat + addr.toNat ≤ engineBase tile ∨
      engineBase tile + dmac512RegSize ≤ addr.toNat) (f : ℕ → Byte → Byte) :
    (mem.onRegisters tile f).bytes addr size.toNat = mem.bytes addr size.toNat := by
  refine bytes_congr fun i hi => if_neg ?_
  rw [IsRegister, inside.toNat_add hi]
  omega

end FlatMemory

/-! ### Calls -/

namespace HalCall

/-- A call leaves the ranges that its target does not meet. -/
theorem bytes_effect_of_apart {call : HalCall} (other : call.isLocal = false)
    (inside : InRegion addr size) (apart : ¬ RangesMeet addr size call.target call.size) :
    (call.effect mem).bytes addr size.toNat = mem.bytes addr size.toNat := by
  have heffect : call.effect mem = Placement.flatPut BitVec.toNat mem call.target.toNat
      call.count (call.flatByte mem) := by
    cases call <;> first | rfl | exact absurd other Bool.true_eq_false.mp
  rw [heffect]
  exact FlatMemory.bytes_flatPut_of_apart inside call.count_le apart _

/-- What has been written can be read. -/
theorem bytes_memoryWrite (inside : InRegion addr size) {buffer : List Byte}
    (long : size.toNat ≤ buffer.length) :
    (effect mem (.memoryWrite addr (some buffer) size)).bytes addr size.toNat =
      buffer.take size.toNat := by
  refine (FlatMemory.bytes_flatPut_self inside _).trans (List.ext_getElem ?_ fun i hi hi' => ?_)
  · simp [long]
  · have hlt : i < buffer.length := by
      rw [List.length_take] at hi'
      omega
    simp [flatByte, hlt]

end HalCall

/-- The call copies a range to another one, and leaves the first as it was. -/
structure Copies (src dst size : Addr) (call : HalCall) : Prop where
  contract : call.InContract
  bytes_src : ∀ mem : FlatMemory,
    (call.effect mem).bytes src size.toNat = mem.bytes src size.toNat
  bytes_dst : ∀ mem : FlatMemory,
    (call.effect mem).bytes dst size.toNat = mem.bytes src size.toNat

/-- The transfer is accepted and copies all of its bytes between ranges that are apart. -/
structure Transfer.Whole (t : Transfer) : Prop where
  src : InRegion t.srcAddr t.size
  dst : InRegion t.dstAddr t.size
  accepted : t.Accepted
  length_eq : t.length = t.size.toNat
  apart : ¬ RangesMeet t.srcAddr t.size t.dstAddr t.size

namespace Transfer.Whole

variable {t : Transfer}

theorem contract (whole : t.Whole) : t.call.InContract := by
  obtain ⟨kind, srcAddr, dstAddr, size⟩ := t
  cases kind with
  | cpuLocalMove => exact ⟨⟨whole.src, whole.dst⟩, trivial⟩
  | dmaRemoteTransfer => exact ⟨⟨whole.src, whole.dst⟩, trivial⟩
  | dmemToDmemTransfer => exact ⟨⟨whole.src, whole.dst⟩, fun onto => whole.apart onto.2.2⟩

theorem effect_eq (whole : t.Whole) (mem : FlatMemory) :
    t.call.effect mem = mem.copied t.srcAddr t.dstAddr t.size.toNat := by
  have hlength := whole.length_eq
  obtain ⟨kind, srcAddr, dstAddr, size⟩ := t
  cases kind <;>
    exact congrArg (fun n => Placement.flatPut BitVec.toNat mem dstAddr.toNat n _) hlength

theorem copies (whole : t.Whole) : Copies t.srcAddr t.dstAddr t.size t.call where
  contract := whole.contract
  bytes_src mem := by
    rw [whole.effect_eq, FlatMemory.copied]
    exact FlatMemory.bytes_flatPut_of_apart whole.src le_rfl whole.apart _
  bytes_dst mem := by
    rw [whole.effect_eq, FlatMemory.copied]
    exact FlatMemory.bytes_flatPut_self whole.dst _

end Transfer.Whole

/-- A local transfer copies when its ranges meet no register. -/
theorem copies_dmaLocalTransfer (tile : Fin 8) (hsrc : InRegion src size)
    (hdst : InRegion dst size) (apart : ¬ RangesMeet src size dst size)
    (accepted : HalCall.LocalAccepted tile src dst size)
    (src_apart : size.toNat + src.toNat ≤ FlatMemory.engineBase tile ∨
      FlatMemory.engineBase tile + dmac512RegSize ≤ src.toNat)
    (dst_apart : size.toNat + dst.toNat ≤ FlatMemory.engineBase tile ∨
      FlatMemory.engineBase tile + dmac512RegSize ≤ dst.toNat) :
    Copies src dst size (.dmaLocalTransfer tile src dst size) := by
  have heffect (mem : FlatMemory) : HalCall.effect mem (.dmaLocalTransfer tile src dst size) =
      mem.transferred tile src dst size := if_pos accepted
  -- the engine's reports and its program change registers only
  have hbefore (mem : FlatMemory) (f : ℕ → Byte → Byte) :
      (mem.onRegisters tile f).bytes src size.toNat = mem.bytes src size.toNat :=
    FlatMemory.bytes_onRegisters_of_apart hsrc src_apart f
  refine ⟨⟨⟨hsrc, hdst⟩, apart⟩, fun mem => ?_, fun mem => ?_⟩
  · rw [heffect, FlatMemory.transferred, hbefore, FlatMemory.copied,
      FlatMemory.bytes_flatPut_of_apart hsrc le_rfl apart, hbefore]
  · rw [heffect, FlatMemory.transferred, FlatMemory.bytes_onRegisters_of_apart hdst dst_apart,
      FlatMemory.copied, FlatMemory.bytes_flatPut_self hdst]
    exact hbefore mem _

/-! ### Preconditions -/

section Preconditions

variable {call : HalCall}

theorem effect_memoryRead {buffer : Option (List Byte)} :
    HalCall.effect mem (.memoryRead addr buffer size) = mem :=
  Placement.flatPut_zero BitVec.toNat mem _ _

theorem wp_request (request : HalRequest) {Q : HalAnswer → FlatMemory → Prop}
    (contract : request.InContract) (h : Q (request.answer mem) (request.effect mem)) :
    (Client.ask request).wp flatStep Q mem :=
  Client.wp_ask.mpr ⟨_, _, flatStep_of_inContract contract, h⟩

theorem wp_invoke {Q : ℤ → FlatMemory → Prop} (contract : call.InContract)
    (h : Q (call.answer mem).result (call.effect mem)) : (invoke call).wp flatStep Q mem :=
  Client.wp_bind.mpr (wp_request (.data call) contract h)

/-- A store through the pointer of a range. -/
theorem wp_store {Q : HalAnswer → FlatMemory → Prop} {r : Region} (inside : r.Contains addr size)
    {dstPtr : Ptr Buffer} (ptr : dstPtr = addrToPtr platformAfterSetup addr) {bytes : List Byte}
    (length_eq : bytes.length = size.toNat)
    (h : Q { result := 0 } (Placement.flatPut BitVec.toNat mem addr.toNat size.toNat
      fun i => bytes.getD i 0)) :
    (Client.ask (.store dstPtr bytes)).wp flatStep Q mem := by
  subst ptr
  refine wp_request _ ⟨r, addr, size, inside, length_eq.symm, rfl⟩ ?_
  rw [HalRequest.effect, addrOf_addrToPtr inside.covers, length_eq]
  exact h

/-- A load through the pointer of a range. -/
theorem wp_load {Q : HalAnswer → FlatMemory → Prop} {r : Region} (inside : r.Contains addr size)
    {srcPtr : Ptr Buffer} (ptr : srcPtr = addrToPtr platformAfterSetup addr) {n : ℕ}
    (hn : n = size.toNat) (h : Q { result := 0, buffer := some (mem.bytes addr size.toNat) } mem) :
    (Client.ask (.load srcPtr n)).wp flatStep Q mem := by
  subst ptr hn
  refine wp_request _ ⟨r, addr, size, inside, rfl, rfl⟩ ?_
  rw [HalRequest.answer, addrOf_addrToPtr inside.covers]
  exact h

/-- A read into a buffer that is long enough: the bytes stand at its start, and it keeps
its length. -/
theorem wp_readInto {Q : ℤ × Option (List Byte) → FlatMemory → Prop} {target : List Byte}
    (inside : InRegion addr size) (nonempty : size ≠ 0) (long : size.toNat ≤ target.length)
    (h : ∀ rest : List Byte, (mem.bytes addr size.toNat ++ rest).length = target.length →
      Q (size.toNat, some (mem.bytes addr size.toNat ++ rest)) mem) :
    (readInto addr (some target) size).wp flatStep Q mem := by
  have hcontract : (HalCall.memoryRead addr (some target) size).InContract :=
    ⟨inside, fun bytes hbytes => Option.some.inj hbytes ▸ long⟩
  have hanswer : HalCall.answer mem (.memoryRead addr (some target) size) =
      ⟨size.toNat, some (mem.bytes addr size.toNat ++ target.drop size.toNat)⟩ :=
    if_neg nonempty
  refine Client.wp_bind.mpr (wp_request (.data _) hcontract ?_)
  simp only [HalRequest.answer, HalRequest.effect, effect_memoryRead, hanswer, Client.wp_pure]
  refine h _ ?_
  rw [List.length_append, FlatMemory.length_bytes, List.length_drop]
  omega

/-- A read whose bytes are not compared. -/
theorem wp_readBack {Q : ℤ × Option (List Byte) → FlatMemory → Prop} {target : List Byte}
    (inside : InRegion addr size) (long : size.toNat ≤ target.length)
    (h : ∀ (result : ℤ) (read : List Byte), read.length = target.length →
      Q (result, some read) mem) : (readInto addr (some target) size).wp flatStep Q mem := by
  by_cases hsize : size = 0
  · subst hsize
    have hcontract : (HalCall.memoryRead addr (some target) 0).InContract :=
      ⟨inside, fun bytes hbytes => Option.some.inj hbytes ▸ long⟩
    refine Client.wp_bind.mpr (wp_request (.data _) hcontract ?_)
    simp only [HalRequest.answer, HalRequest.effect, effect_memoryRead, Client.wp_pure]
    exact h (-1) target rfl
  · exact wp_readInto inside hsize long fun rest hrest => h _ _ hrest

theorem wp_memcmpEq {Q : Bool → FlatMemory → Prop} {a b : List Byte} {n : ℕ}
    (ha : n ≤ a.length) (hb : n ≤ b.length) (h : Q (decide (a.take n = b.take n)) mem) :
    (memcmpEq (some a) (some b) n).wp flatStep Q mem := by
  rw [memcmpEq, if_pos ⟨ha, hb⟩]
  exact h

theorem wp_andThen {Q : Bool → FlatMemory → Prop} {a : Bool} {b : HalClient Bool}
    (second : a = true → b.wp flatStep Q mem) (first : a = false → Q false mem) :
    (andThen a b).wp flatStep Q mem := by
  cases a with
  | false => exact first rfl
  | true => exact second rfl

theorem FlatMemory.take_bytes_append (n : ℕ) (rest : List Byte) :
    (mem.bytes addr n ++ rest).take n = mem.bytes addr n := by
  rw [List.take_append_of_le_length (by simp), List.take_of_length_le (by simp)]

/-- Two ranges that have been read compare as their bytes do. -/
theorem wp_memcmpEq_read {Q : Bool → FlatMemory → Prop} {a b : List Byte} {n : ℕ}
    (hn : n = size.toNat)
    (h : Q (decide (mem.bytes src size.toNat = mem.bytes dst size.toNat)) mem) :
    (memcmpEq (some (mem.bytes src size.toNat ++ a))
      (some (mem.bytes dst size.toNat ++ b)) n).wp flatStep Q mem := by
  subst hn
  refine wp_memcmpEq (by simp) (by simp) ?_
  rw [FlatMemory.take_bytes_append, FlatMemory.take_bytes_append]
  exact h

/-- Two ranges are compared. -/
theorem wp_readsEqual {Q : Bool → FlatMemory → Prop} {a b : List Byte}
    (hsrc : InRegion src size) (hdst : InRegion dst size) (nonempty : size ≠ 0)
    (ha : size.toNat ≤ a.length) (hb : size.toNat ≤ b.length)
    (h : Q (decide (mem.bytes src size.toNat = mem.bytes dst size.toNat)) mem) :
    (readsEqual src dst (some a) (some b) size).wp flatStep Q mem := by
  refine Client.wp_bind.mpr (wp_readInto hsrc nonempty ha fun _ _ => ?_)
  refine Client.wp_bind.mpr (wp_readInto hdst nonempty hb fun _ _ => ?_)
  exact wp_memcmpEq_read rfl h

end Preconditions

end MeshNoc
