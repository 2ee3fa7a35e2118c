import MeshNoc.HalTests.TestsPass

/-!
# Gathering and distributing

`test_c0_gather` and `test_c0_distribute`, with what they do to memory: the gather copies
the first chunk of every module to a slice of node 0 of its own, the distribution copies
the first slice of node 0 to every module. Nothing else changes.

## Main results

* `wp_seedChunks`, `wp_chunkRounds` — the loops of the two tests
* `wp_testC0Gather`, `wp_testC0Distribute` — what the tests do to the flat memory
-/

namespace MeshNoc

open Lib
open HalRequest (flatStep)

variable {mem : FlatMemory} {u : Uninitialised}

/-- Bytes in a chunk, as the `size` of a call. -/
abbrev chunkSize : Addr := BitVec.ofNat 64 chunk

/-- The chunk at an address. -/
def FlatMemory.chunkAt (mem : FlatMemory) (a : Addr) : List Byte := mem.bytes a chunk

/-- The pattern `memory_fill` writes to a chunk. -/
def filledChunk (value : Byte) : List Byte :=
  (List.range chunk).map fun i => BitVec.ofNat 8 ((value.toNat + i) % 256)

/-- Eight chunks at different places of memory. -/
structure Chunks (addr : ℕ → Addr) : Prop where
  inside : ∀ d < 8, InRegion (addr d) chunkSize
  apart : ∀ d < 8, ∀ k < 8, d ≠ k → ¬ RangesMeet (addr d) chunkSize (addr k) chunkSize

/-- No byte has changed but in the first `n` chunks. -/
def SameBut (addr : ℕ → Addr) (n : ℕ) (mem mem' : FlatMemory) : Prop :=
  ∀ a : Addr, (∀ d < n, ¬ ((addr d).toNat ≤ a.toNat ∧ a.toNat < (addr d).toNat + chunk)) →
    mem' a = mem a

theorem toNat_chunkSize : chunkSize.toNat = chunk := rfl

namespace SameBut

variable {addr : ℕ → Addr} {n : ℕ} {mem' mem'' : FlatMemory} {a : Addr}

theorem refl : SameBut addr n mem mem := fun _ _ => rfl

/-- One more chunk is written. -/
theorem flatPut (same : SameBut addr n mem mem') (f : ℕ → Byte) :
    SameBut addr (n + 1) mem
      (Placement.flatPut BitVec.toNat mem' (addr n).toNat chunk f) := by
  intro a outside
  rw [Placement.flatPut_of_not_mem _ (outside n (Nat.lt_succ_self n))]
  exact same a fun d hd => outside d (Nat.lt_succ_of_lt hd)

/-- A chunk that meets none of those written. -/
theorem chunkAt_eq (same : SameBut addr n mem mem') (inside : InRegion a chunkSize)
    (apart : ∀ d < n, ¬ RangesMeet a chunkSize (addr d) chunkSize) :
    mem'.chunkAt a = mem.chunkAt a := by
  refine FlatMemory.bytes_congr fun i hi => same _ fun d hd => ?_
  have hapart := apart d hd
  rw [inside.toNat_add hi]
  simp only [RangesMeet, toNat_chunkSize] at hapart
  omega

end SameBut

/-! ### The loops -/

/-- The eight chunks are filled. -/
theorem wp_seedChunks {addr : ℕ → Addr} (chunks : Chunks addr) (base : Byte) :
    (seedChunks base addr).wp flatStep (fun _ mem' => SameBut addr 8 mem mem' ∧
      ∀ d < 8, mem'.chunkAt (addr d) = filledChunk (base ||| BitVec.ofNat 8 d)) mem := by
  refine Client.wp_foldlM_range (I := fun k _ mem' => SameBut addr k mem mem' ∧
    ∀ d < k, mem'.chunkAt (addr d) = filledChunk (base ||| BitVec.ofNat 8 d))
    ⟨.refl, fun d hd => absurd hd (Nat.not_lt_zero d)⟩ fun k hk _ mem' hinv => ?_
  obtain ⟨hsame, hfilled⟩ := hinv
  have hinside := chunks.inside k hk
  refine Client.wp_bind.mpr (wp_invoke ⟨hinside, trivial⟩ ⟨hsame.flatPut _, fun d hd => ?_⟩)
  rcases Nat.lt_succ_iff_lt_or_eq.mp hd with hlt | rfl
  · rw [← hfilled d hlt]
    exact HalCall.bytes_effect_of_apart rfl (chunks.inside d (by omega))
      (chunks.apart d (by omega) k hk (by omega))
  · exact FlatMemory.bytes_flatPut_self hinside _

/-- Whether the destination is shown or not, memory and the length of the buffer stay. -/
theorem wp_showDst {array : List Byte} {dst : Addr} {showsDst : Bool} (inside : InRegion dst 32)
    (hlength : array.length = 32) : (showDst array showsDst dst).wp flatStep (fun dstBuffer mem' =>
      (∃ shown : List Byte, dstBuffer = some shown ∧ shown.length = 32) ∧ mem' = mem) mem := by
  cases showsDst with
  | true =>
    exact Client.wp_bind.mpr (wp_readBack inside hlength.ge fun _ shown hshown =>
      ⟨⟨shown, rfl, hshown.trans hlength⟩, rfl⟩)
  | false => exact ⟨⟨_, rfl, hlength⟩, rfl⟩

/-- A round copies a chunk and finds it copied. -/
theorem wp_chunkRound {d : ℕ} {src dst : Addr} {showsDst : Bool}
    (whole : (Transfer.mk .dmaRemoteTransfer src dst chunkSize).Whole) :
    (chunkRound u d showsDst src dst).wp flatStep
      (fun equal mem' => equal = true ∧ mem' = mem.copied src dst chunk) mem := by
  have hcopies := whole.copies
  have hsize : (32 : Addr).toNat ≤ chunkSize.toNat := by decide
  have hsrc : InRegion src 32 := whole.src.shorten hsize
  have hdst : InRegion dst 32 := whole.dst.shorten hsize
  have harray (k n : ℕ) : n ≤ (u.array k n).length := (u.length_array k n).ge
  refine Client.wp_bind.mpr (wp_readBack hsrc (harray _ 32) fun _ _ _ => ?_)
  refine Client.wp_bind.mpr (Client.wp_mono (wp_showDst hdst (u.length_array _ 32))
    fun dstBuffer _ hshown => ?_)
  obtain ⟨⟨shown, rfl, hlength⟩, rfl⟩ := hshown
  refine Client.wp_bind.mpr (wp_invoke hcopies.contract ?_)
  refine Client.wp_bind.mpr (wp_readBack hdst hlength.ge fun _ _ _ => ?_)
  refine wp_readsEqual whole.src whole.dst (by decide) (harray _ chunk) (harray _ chunk) ?_
  exact ⟨decide_eq_true hcopies.bytes_eq, whole.effect_eq _⟩

/-- Every round passes, and copies its chunk. -/
theorem wp_chunkRounds {src dst : ℕ → Addr} {showsDst : Bool} (chunks : Chunks dst)
    (inside : ∀ d < 8, InRegion (src d) chunkSize)
    (apart : ∀ d < 8, ∀ k < 8, ¬ RangesMeet (src d) chunkSize (dst k) chunkSize)
    (accepted : ∀ d < 8,
      (Transfer.mk .dmaRemoteTransfer (src d) (dst d) chunkSize).Accepted) :
    (chunkRounds u showsDst src dst).wp flatStep (fun pass mem' => pass = 8 ∧
      SameBut dst 8 mem mem' ∧ ∀ d < 8, mem'.chunkAt (dst d) = mem.chunkAt (src d)) mem := by
  have hstart : (0 : ℤ) = (0 : ℕ) ∧ SameBut dst 0 mem mem ∧
      ∀ d < 0, mem.chunkAt (dst d) = mem.chunkAt (src d) :=
    ⟨rfl, .refl, fun d hd => absurd hd (Nat.not_lt_zero d)⟩
  refine Client.wp_foldlM_range (n := 8) (I := fun k pass mem' => pass = (k : ℤ) ∧
    SameBut dst k mem mem' ∧ ∀ d < k, mem'.chunkAt (dst d) = mem.chunkAt (src d)) hstart
    fun k hk pass mem' hinv => ?_
  obtain ⟨rfl, hsame, hcopied⟩ := hinv
  have hwhole : (Transfer.mk .dmaRemoteTransfer (src k) (dst k) chunkSize).Whole :=
    ⟨inside k hk, chunks.inside k hk, accepted k hk, if_pos (accepted k hk), apart k hk k hk⟩
  refine Client.wp_bind.mpr (Client.wp_mono (wp_chunkRound hwhole) fun equal mem'' hround => ?_)
  obtain ⟨rfl, rfl⟩ := hround
  refine ⟨rfl, hsame.flatPut _, fun d hd => ?_⟩
  rcases Nat.lt_succ_iff_lt_or_eq.mp hd with hlt | rfl
  · rw [← hcopied d hlt]
    exact FlatMemory.bytes_flatPut_of_apart (chunks.inside d (by omega)) le_rfl
      (chunks.apart d (by omega) k hk (by omega)) _
  · -- no earlier round has written to the source
    rw [← hsame.chunkAt_eq (inside d hk) fun j hj => apart d hk j (by omega)]
    exact FlatMemory.bytes_flatPut_self (chunks.inside d hk) _

/-! ### The two tests -/

/-- The slices of node 0. -/
abbrev slices : ℕ → Addr := sliceAddr platformAfterSetup

/-- The first chunks of the modules. -/
abbrev modules : ℕ → Addr := moduleAddr platformAfterSetup

theorem inRegion_slices : ∀ d < 8, InRegion (slices d) chunkSize := fun d hd =>
  have hcontains : ∀ d : Fin 8, (Region.dlm1_512 0).Contains (slices d) chunkSize := by
    decide +kernel
  (hcontains ⟨d, hd⟩).inRegion

theorem inRegion_modules : ∀ d < 8, InRegion (modules d) chunkSize := fun d hd =>
  have hcontains : ∀ d : Fin 8, (Region.dmem d).Contains (modules d) chunkSize := by
    decide +kernel
  (hcontains ⟨d, hd⟩).inRegion

theorem chunks_slices : Chunks slices := by
  have hapart : ∀ d k : Fin 8, d ≠ k → ¬ RangesMeet (slices d) chunkSize (slices k) chunkSize := by
    decide +kernel
  exact ⟨inRegion_slices, fun d hd k hk hne =>
    hapart ⟨d, hd⟩ ⟨k, hk⟩ fun same => hne (congrArg Fin.val same)⟩

theorem chunks_modules : Chunks modules := by
  have hapart : ∀ d k : Fin 8, d ≠ k →
      ¬ RangesMeet (modules d) chunkSize (modules k) chunkSize := by decide +kernel
  exact ⟨inRegion_modules, fun d hd k hk hne =>
    hapart ⟨d, hd⟩ ⟨k, hk⟩ fun same => hne (congrArg Fin.val same)⟩

/-- No slice meets a module, and the network carries transfers both ways. -/
theorem slices_modules : ∀ d k : Fin 8,
    ¬ RangesMeet (slices d) chunkSize (modules k) chunkSize ∧
      (Transfer.mk .dmaRemoteTransfer (slices d) (modules k) chunkSize).Accepted ∧
        (Transfer.mk .dmaRemoteTransfer (modules k) (slices d) chunkSize).Accepted := by
  decide +kernel

theorem slices_apart {d k : ℕ} (hd : d < 8) (hk : k < 8) :
    ¬ RangesMeet (slices d) chunkSize (modules k) chunkSize :=
  (slices_modules ⟨d, hd⟩ ⟨k, hk⟩).1

theorem modules_apart {d k : ℕ} (hd : d < 8) (hk : k < 8) :
    ¬ RangesMeet (modules k) chunkSize (slices d) chunkSize :=
  fun meet => slices_apart hd hk meet.symm

/-- No byte has changed but in the slices and in the first chunks of the modules. -/
def OnlyChunks (mem mem' : FlatMemory) : Prop :=
  ∀ a : Addr,
    (∀ d < 8, ¬ ((slices d).toNat ≤ a.toNat ∧ a.toNat < (slices d).toNat + chunk) ∧
      ¬ ((modules d).toNat ≤ a.toNat ∧ a.toNat < (modules d).toNat + chunk)) →
    mem' a = mem a

theorem SameBut.onlyChunks {mem' mem'' : FlatMemory} (first : SameBut modules 8 mem mem')
    (second : SameBut slices 8 mem' mem'') : OnlyChunks mem mem'' := fun a outside =>
  (second a fun d hd => (outside d hd).1).trans (first a fun d hd => (outside d hd).2)

theorem SameBut.onlyChunks' {mem' mem'' : FlatMemory} (first : SameBut slices 8 mem mem')
    (second : SameBut modules 8 mem' mem'') : OnlyChunks mem mem'' := fun a outside =>
  (second a fun d hd => (outside d hd).2).trans (first a fun d hd => (outside d hd).1)

/-- Every module keeps its pattern, and its slice gets it. -/
theorem wp_testC0Gather : (testC0Gather u platformAfterSetup).wp flatStep
    (fun value mem' => value = 1 ∧ OnlyChunks mem mem' ∧ ∀ d < 8,
      mem'.chunkAt (slices d) = filledChunk (0x10 ||| BitVec.ofNat 8 d) ∧
        mem'.chunkAt (modules d) = filledChunk (0x10 ||| BitVec.ofNat 8 d)) mem := by
  refine Client.wp_bind.mpr (Client.wp_mono (wp_seedChunks chunks_modules 0x10)
    fun _ mem₁ hseeded => ?_)
  obtain ⟨hsame₁, hfilled⟩ := hseeded
  refine Client.wp_bind.mpr (Client.wp_mono (wp_chunkRounds chunks_slices inRegion_modules
    (fun d hd k hk => modules_apart hk hd)
    fun d hd => (slices_modules ⟨d, hd⟩ ⟨d, hd⟩).2.2) fun pass mem₂ hgathered => ?_)
  obtain ⟨rfl, hsame₂, hcopied⟩ := hgathered
  refine ⟨rfl, hsame₁.onlyChunks hsame₂, fun d hd => ⟨?_, ?_⟩⟩
  · rw [hcopied d hd, hfilled d hd]
  · rw [hsame₂.chunkAt_eq (inRegion_modules d hd) fun k hk => modules_apart hk hd, hfilled d hd]

/-- Every slice keeps its pattern, and every module gets that of the first. -/
theorem wp_testC0Distribute : (testC0Distribute u platformAfterSetup).wp flatStep
    (fun value mem' => value = 1 ∧ OnlyChunks mem mem' ∧ ∀ d < 8,
      mem'.chunkAt (slices d) = filledChunk (0xE0 ||| BitVec.ofNat 8 d) ∧
        mem'.chunkAt (modules d) = filledChunk 0xE0) mem := by
  have hfirst : (platformAfterSetup.nodes.getD 0 {}).dlm1_512BaseAddr = slices 0 := by
    decide +kernel
  rw [testC0Distribute, hfirst]
  refine Client.wp_bind.mpr (Client.wp_mono (wp_seedChunks chunks_slices 0xE0)
    fun _ mem₁ hseeded => ?_)
  obtain ⟨hsame₁, hfilled⟩ := hseeded
  refine Client.wp_bind.mpr (Client.wp_mono (wp_chunkRounds chunks_modules
    (fun _ _ => inRegion_slices 0 (by decide)) (fun _ _ k hk => slices_apart (by decide) hk)
    fun d hd => (slices_modules 0 ⟨d, hd⟩).2.1) fun pass mem₂ hdistributed => ?_)
  obtain ⟨rfl, hsame₂, hcopied⟩ := hdistributed
  refine ⟨rfl, hsame₁.onlyChunks' hsame₂, fun d hd => ⟨?_, ?_⟩⟩
  · rw [hsame₂.chunkAt_eq (inRegion_slices d hd) fun k hk => slices_apart hd hk, hfilled d hd]
  · rw [hcopied d hd, hfilled 0 (by decide)]
    rfl

end MeshNoc
