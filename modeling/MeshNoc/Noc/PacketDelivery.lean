import MeshNoc.Noc.MeshRouter
import MeshNoc.PlatformInit.Translation

/-!
# What the router's answer says

`noc_send_packet` answers every packet with `0`. The copy is behind tests of the two
addresses, of the two pointers they translate to and of the length, and a packet that fails
one of them is skipped without a word: one to or from address `0`, the first address of
tile 0, and one whose address no buffer stores.

The addresses a buffer stores are those of the region instances and of the two windows of
the first PLIC, together the `MappedRegion`s.

## Main results

* `addrToPtr_of_mapped`, `addrToPtr_of_unmapped` — translation, by the mapped regions
* `answeredFaithfully_iff` — the packets whose answer says what happened
-/

namespace MeshNoc

open Lib

/-- The windows of addresses that are stored in a buffer. -/
inductive MappedRegion
  | region (r : Region)
  | plic (b : PlicBlock)
  deriving DecidableEq

/-- The first address of a window of the first PLIC. -/
def PlicBlock.base : PlicBlock → ℕ
  | c0c1 => 0x90000000
  | nxy => 0x90400000

namespace MappedRegion

/-- The first address. -/
def base : MappedRegion → ℕ
  | region r => r.base
  | plic b => b.base

/-- The number of addresses. -/
def length : MappedRegion → ℕ
  | region r => r.length
  | plic _ => 0x400000

/-- The buffer that stores them. -/
def buffer : MappedRegion → Buffer
  | region r => r.buffer
  | plic b => .plic b

/-- Where in the buffer they start. -/
def start : MappedRegion → ℕ
  | region r => r.start
  | plic _ => 0

end MappedRegion

/-- The placement of the mapped regions in the buffers. -/
def mappedPlacement : Placement MappedRegion Buffer where
  base := MappedRegion.base
  length := MappedRegion.length
  block := MappedRegion.buffer
  start := MappedRegion.start
  windows_disjoint := by
    -- the controllers lie above every region instance
    have hbelow : ∀ r : Region, r.base + r.length ≤ 0x90000000 := by
      intro r
      cases r <;> simp only [Region.base, Region.length] <;> omega
    rintro (r | b) (r' | b') a hi₁ hi₂ hj₁ hj₂ <;>
      simp only [MappedRegion.base, MappedRegion.length] at hi₁ hi₂ hj₁ hj₂
    · rw [regionPlacement.windows_disjoint r r' a hi₁ hi₂ hj₁ hj₂]
    · have := hbelow r
      cases b' <;> simp only [PlicBlock.base] at hj₁ <;> omega
    · have := hbelow r'
      cases b <;> simp only [PlicBlock.base] at hi₁ <;> omega
    · cases b <;> cases b' <;> simp only [PlicBlock.base] at hi₁ hi₂ hj₁ hj₂ <;>
        first | rfl | omega
  storage_disjoint := by
    rintro (r | b) (r' | b') k hblock hi₁ hi₂ hj₁ hj₂
    · rw [regionPlacement.storage_disjoint r r' k hblock hi₁ hi₂ hj₁ hj₂]
    · cases r <;> simp [MappedRegion.buffer, Region.buffer] at hblock
    · cases r' <;> simp [MappedRegion.buffer, Region.buffer] at hblock
    · simp only [MappedRegion.buffer, Buffer.plic.injEq] at hblock
      rw [hblock]

/-- Every mapped region fits into its buffer. -/
theorem mappedPlacement_fits (w : MappedRegion) :
    mappedPlacement.start w + mappedPlacement.length w ≤ (mappedPlacement.block w).size := by
  cases w with
  | region r => exact regionPlacement_fits r
  | plic b => exact (by decide : 0 + 0x400000 ≤ plicSize.toNat)

/-- Address `a` lies in the mapped region `w`. -/
abbrev MappedRegion.Covers (w : MappedRegion) (a : Addr) : Prop :=
  mappedPlacement.Covers w a.toNat

/-- A buffer stores address `a`. -/
def Mapped (a : Addr) : Prop := ∃ w : MappedRegion, w.Covers a

variable {a : Addr} {w v : MappedRegion}

/-- A mapped address is translated to the place where its region stores it. -/
theorem addrToPtr_of_mapped (covers : w.Covers a) :
    addrToPtr platformAfterSetup a = mappedPlacement.ptrAt w a.toNat := by
  obtain ⟨hlow, hhigh⟩ := covers
  cases w with
  | region r => exact addrToPtr_of_covers ⟨hlow, hhigh⟩
  | plic b =>
    cases b with
    | c0c1 =>
      have hlow : 0x90000000 ≤ a.toNat := hlow
      have hhigh : a.toNat < 0x90000000 + 0x400000 := hhigh
      rw [addrToPtr_of_ge hlow, if_pos (by omega)]
      rfl
    | nxy =>
      have hlow : 0x90400000 ≤ a.toNat := hlow
      have hhigh : a.toNat < 0x90400000 + 0x400000 := hhigh
      rw [addrToPtr_of_ge (by omega), if_neg (by omega), if_pos (by omega)]
      rfl

/-- The translation of any other address points into no buffer. -/
theorem addrToPtr_of_unmapped (unmapped : ¬ Mapped a) :
    (addrToPtr platformAfterSetup a).block = none := by
  have huncovered : ∀ r : Region, ¬ r.Covers a := fun r covers => unmapped ⟨.region r, covers⟩
  have hplic : ∀ b : PlicBlock, ¬ (b.base ≤ a.toNat ∧ a.toNat < b.base + 0x400000) :=
    fun b covers => unmapped ⟨.plic b, covers⟩
  by_cases low : a.toNat < 0x90000000
  · rw [addrToPtr_of_lt low huncovered]
    rfl
  · have hc0c1 := hplic .c0c1
    have hnxy := hplic .nxy
    simp only [PlicBlock.base] at hc0c1 hnxy
    exact addrToPtr_block_eq_none (by omega)

/-! ### Packets -/

namespace PktHeader

variable (hdr : PktHeader)

/-- The source range lies in `w`, the destination range in `v`, and they share no address. -/
structure Placed (w v : MappedRegion) : Prop where
  src : mappedPlacement.CoversRange w hdr.srcAddr.toNat hdr.length.toNat
  dst : mappedPlacement.CoversRange v hdr.dstAddr.toNat hdr.length.toNat
  apart : hdr.srcAddr.toNat + hdr.length.toNat ≤ hdr.dstAddr.toNat ∨
    hdr.dstAddr.toNat + hdr.length.toNat ≤ hdr.srcAddr.toNat

/-- Memory `m'` holds at the destination of the packet what `m` holds at its source. -/
def Holds (w v : MappedRegion) (m m' : Mem) : Prop :=
  ∀ k < hdr.length.toNat, m'.get (mappedPlacement.ptrAt v (hdr.dstAddr.toNat + k)) =
    m.get (mappedPlacement.ptrAt w (hdr.srcAddr.toNat + k))

/-- Outside the destination of the packet `m'` is `m`. -/
def KeepsRest (v : MappedRegion) (m m' : Mem) : Prop :=
  ∀ b i, ¬ (v.buffer = b ∧ (mappedPlacement.ptrAt v hdr.dstAddr.toNat).offset ≤ i ∧
    i < (mappedPlacement.ptrAt v hdr.dstAddr.toNat).offset + hdr.length.toNat) → m' b i = m b i

/-- The router's answer to the packet says what happened: a packet between two ranges of
mapped regions is delivered and answered with `0`, one with an endpoint that is not mapped is
answered otherwise and changes nothing. -/
structure AnsweredFaithfully (p : MeshPlatform) (m : Mem) : Prop where
  delivers : ∀ w v, hdr.Placed w v → ∀ noc : NocArbitration, (∀ l, noc.locks l = false) →
    ∃ m' noc', nocSendPacket p m noc hdr = some (0, m', noc') ∧ hdr.Holds w v m m' ∧
      hdr.KeepsRest v m m'
  refuses : ¬ (Mapped hdr.srcAddr ∧ Mapped hdr.dstAddr) →
    ∀ noc : NocArbitration, (∀ l, noc.locks l = false) →
      ∃ result noc', nocSendPacket p m noc hdr = some (result, m, noc') ∧ result ≠ 0

/-- Both endpoints are mapped, and where the ranges are as a transfer needs them neither
address is `0`, or the destination holds the bytes of the source already. -/
structure Routable (m : Mem) : Prop where
  mapped : Mapped hdr.srcAddr ∧ Mapped hdr.dstAddr
  nonzero : ∀ w v, hdr.Placed w v → (hdr.srcAddr ≠ 0 ∧ hdr.dstAddr ≠ 0) ∨ hdr.Holds w v m m

variable {hdr} {m : Mem} {w v : MappedRegion}

theorem Placed.covers_src (placed : hdr.Placed w v) (hlength : 0 < hdr.length) :
    w.Covers hdr.srcAddr := placed.src.covers (k := 0) (BitVec.lt_def.mp hlength)

theorem Placed.covers_dst (placed : hdr.Placed w v) (hlength : 0 < hdr.length) :
    v.Covers hdr.dstAddr := placed.dst.covers (k := 0) (BitVec.lt_def.mp hlength)

/-- A packet with an address `0` is skipped. -/
theorem packetCopy_of_zero (p : MeshPlatform) (m : Mem)
    (zero : ¬ (hdr.srcAddr ≠ 0 ∧ hdr.dstAddr ≠ 0)) : packetCopy p m hdr = some m := by
  rw [packetCopy, packetPointers, if_neg fun h => zero h.2]

/-- A packet between two ranges of mapped regions is one copy. -/
theorem Placed.packetCopy_eq (placed : hdr.Placed w v) (htype : hdr.type = .dmaTransfer)
    (hlength : 0 < hdr.length) (nonzero : hdr.srcAddr ≠ 0 ∧ hdr.dstAddr ≠ 0) (m : Mem) :
    packetCopy platformAfterSetup m hdr =
      some (m.put (mappedPlacement.ptrAt v hdr.dstAddr.toNat) hdr.length.toNat fun k =>
        m.get ((mappedPlacement.ptrAt w hdr.srcAddr.toNat).add k)) := by
  have hsrc := addrToPtr_of_mapped (placed.covers_src hlength)
  have hdst := addrToPtr_of_mapped (placed.covers_dst hlength)
  have hpointers : packetPointers platformAfterSetup hdr =
      some (mappedPlacement.ptrAt w hdr.srcAddr.toNat,
        mappedPlacement.ptrAt v hdr.dstAddr.toNat) := by
    rw [packetPointers, if_pos ⟨htype, nonzero⟩, hsrc, hdst]
    exact if_pos ⟨mappedPlacement.ptrAt_ne_null _ _, mappedPlacement.ptrAt_ne_null _ _, hlength⟩
  have happart := placed.dst.not_overlaps placed.src placed.apart.symm
  rw [packetCopy, hpointers]
  simp only [Memory.memcpy, if_neg happart, Memory.memmove,
    placed.dst.within (mappedPlacement_fits v), placed.src.within (mappedPlacement_fits w),
    and_self, if_true]

theorem Placed.holds_put (placed : hdr.Placed w v) (m : Mem) : hdr.Holds w v m
    (m.put (mappedPlacement.ptrAt v hdr.dstAddr.toNat) hdr.length.toNat fun k =>
      m.get ((mappedPlacement.ptrAt w hdr.srcAddr.toNat).add k)) := by
  intro k hk
  rw [placed.dst.ptrAt_add, placed.src.ptrAt_add, Memory.get_put, if_pos]
  · simp only [Ptr.add_offset, Nat.add_sub_cancel_left]
  · exact ⟨by simp [Placement.ptrAt], rfl, Nat.le_add_right _ _, Nat.add_lt_add_left hk _⟩

theorem keepsRest_put (f : ℕ → Byte) : hdr.KeepsRest v m
    (m.put (mappedPlacement.ptrAt v hdr.dstAddr.toNat) hdr.length.toNat f) := by
  intro b i outside
  refine Memory.put_apply_of_not_mem fun inside => outside ?_
  exact ⟨Option.some.inj inside.1, inside.2⟩

/-- Whatever is asked of it, the router answers with `0` or not at all. -/
theorem nocSendPacket_ne_zero {p : MeshPlatform} {noc noc' : NocArbitration} {result : ℤ} {m' : Mem}
    (free : ∀ l, noc.locks l = false) (sent : nocSendPacket p m noc hdr = some (result, m', noc')) :
    result = 0 := by
  obtain ⟨noc'', -, hsend⟩ := nocSendPacket_of_free p m free hdr
  rw [hsend, Option.map_eq_some_iff] at sent
  obtain ⟨m'', -, heq⟩ := sent
  exact (Prod.mk.inj heq).1.symm

end PktHeader

open PktHeader

/-- The answer to a DMA packet of at least one byte says what happened exactly when both its
endpoints are mapped and, if its ranges are as a transfer needs them, neither address is `0`
or there is nothing to copy. -/
theorem answeredFaithfully_iff {st : PlatformState} (setup : platformSetup = some st)
    {hdr : PktHeader} (htype : hdr.type = .dmaTransfer) (hlength : 0 < hdr.length) (m : Mem) :
    hdr.AnsweredFaithfully st.platform m ↔ hdr.Routable m := by
  obtain rfl := Option.some.inj (platformSetup_eq.symm.trans setup)
  have hidle : ∀ l, ({} : NocArbitration).locks l = false := fun _ => rfl
  constructor
  · intro faithful
    refine ⟨?_, fun w v placed => ?_⟩
    · by_contra unmapped
      obtain ⟨result, noc', hsent, hresult⟩ := faithful.refuses unmapped {} hidle
      exact hresult (nocSendPacket_ne_zero hidle hsent)
    · by_contra hnot
      obtain ⟨hzero, hdiffers⟩ := not_or.mp hnot
      obtain ⟨m', noc', hsent, hholds, -⟩ := faithful.delivers w v placed {} hidle
      obtain ⟨noc'', -, hsend⟩ := nocSendPacket_of_free platformAfterSetup m hidle hdr
      -- the packet is skipped, so the destination held the bytes before
      rw [hsend, packetCopy_of_zero _ _ hzero, Option.map_some, Option.some.injEq] at hsent
      obtain ⟨-, rfl, -⟩ := Prod.mk.inj hsent |>.imp_right Prod.mk.inj
      exact hdiffers hholds
  · intro routable
    refine ⟨fun w v placed noc free => ?_, fun unmapped => absurd routable.mapped unmapped⟩
    obtain ⟨noc', -, hsend⟩ := nocSendPacket_of_free platformAfterSetup m free hdr
    by_cases hzero : hdr.srcAddr ≠ 0 ∧ hdr.dstAddr ≠ 0
    · rw [placed.packetCopy_eq htype hlength hzero] at hsend
      exact ⟨_, noc', hsend, placed.holds_put m, keepsRest_put _⟩
    · rw [packetCopy_of_zero _ _ hzero] at hsend
      exact ⟨m, noc', hsend, (routable.nonzero w v placed).resolve_left hzero,
        fun _ _ _ => rfl⟩

/-- One byte from the DLM1_512 of tile 0 to the first module. -/
theorem answeredFaithfully_iff_dmem0 : ∃ st, platformSetup = some st ∧
    (AnsweredFaithfully
        { type := .dmaTransfer, length := 1, srcAddr := 0x8000, dstAddr := 0x10000000 }
        st.platform zeroMem ↔
      Routable { type := .dmaTransfer, length := 1, srcAddr := 0x8000, dstAddr := 0x10000000 }
        zeroMem) :=
  ⟨_, platformSetup_eq, answeredFaithfully_iff platformSetup_eq rfl (by decide) zeroMem⟩

/-- A byte sent to the first address of tile 0 does not arrive, and the answer is `0`. -/
theorem not_answeredFaithfully_zero : ¬ ∀ st, platformSetup = some st → ∀ hdr : PktHeader,
    hdr.type = .dmaTransfer → 0 < hdr.length → ∀ m, hdr.AnsweredFaithfully st.platform m := by
  intro faithful
  let hdr : PktHeader := { type := .dmaTransfer, length := 1, srcAddr := 0x8000, dstAddr := 0 }
  -- the byte is `1`, and everything else zero
  let m : Mem := fun b i => if b = .dlm1_512 0 ∧ i = 0 then 1 else 0
  have placed : hdr.Placed (.region (.dlm1_512 0)) (.region (.dlm64 0)) :=
    ⟨by decide, by decide, by decide⟩
  have hidle : ∀ l, ({} : NocArbitration).locks l = false := fun _ => rfl
  obtain ⟨m', noc', hsent, hholds, -⟩ :=
    (faithful _ platformSetup_eq hdr rfl (by decide) m).delivers _ _ placed {} hidle
  obtain ⟨noc'', -, hsend⟩ := nocSendPacket_of_free platformAfterSetup m hidle hdr
  rw [hsend, packetCopy_of_zero _ _ (by decide), Option.map_some, Option.some.injEq] at hsent
  obtain ⟨-, rfl, -⟩ := Prod.mk.inj hsent |>.imp_right Prod.mk.inj
  exact absurd (hholds 0 (by decide)) (by decide)

end MeshNoc
