import Mathlib.Data.BitVec
import Mathlib.Data.List.Basic

/-!
# Byte memory made of separately allocated blocks

A pointer is a block and an offset into it; the null pointer has no block, and
arithmetic on it stays without one. Every access names how many bytes it touches and
is undefined (`none`) unless they lie inside the pointer's block, so a defined access
never reaches another allocation. `memcpy` is undefined on overlapping ranges as
well; `memmove` is not.

`Memory.put` is the pure update under all stores. Loads and stores are reduced to it
and to pointwise reads.
-/

namespace MeshNoc.Lib

/-- A byte. -/
abbrev Byte := BitVec 8

/-- A pointer into one of the blocks `B`, or one computed from the null pointer. -/
structure Ptr (B : Type*) where
  block : Option B
  offset : ℕ
  deriving DecidableEq

namespace Ptr

variable {B : Type*}

/-- The null pointer. -/
def null : Ptr B := ⟨none, 0⟩

/-- Pointer arithmetic in bytes. -/
def add (p : Ptr B) (n : ℕ) : Ptr B := ⟨p.block, p.offset + n⟩

@[simp] theorem add_block (p : Ptr B) (n : ℕ) : (p.add n).block = p.block := rfl

@[simp] theorem add_offset (p : Ptr B) (n : ℕ) : (p.add n).offset = p.offset + n := rfl

/-- A pointer into a block is not null. -/
theorem mk_some_ne_null (b : B) (n : ℕ) : (⟨some b, n⟩ : Ptr B) ≠ null :=
  fun same => Option.some_ne_none b (congrArg block same)

/-- The `n` bytes from `p` on lie inside the block of `p`. -/
def Within (size : B → ℕ) (p : Ptr B) (n : ℕ) : Prop :=
  match p.block with
  | none => False
  | some b => p.offset + n ≤ size b

instance (size : B → ℕ) (p : Ptr B) (n : ℕ) : Decidable (p.Within size n) := by
  unfold Within
  cases p.block <;> infer_instance

/-- Nothing lies behind the null pointer. -/
theorem Within.block_ne_none {size : B → ℕ} {p : Ptr B} {n : ℕ} (h : p.Within size n) :
    p.block ≠ none := by
  intro hnone
  simp [Within, hnone] at h

theorem Within.mono {size : B → ℕ} {p : Ptr B} {m n : ℕ} (h : p.Within size n) (le : m ≤ n) :
    p.Within size m := by
  unfold Within at *
  split at h
  · exact h
  · exact (Nat.add_le_add_left le _).trans h

/-- Every byte of a range is accessible. -/
theorem Within.add {size : B → ℕ} {p : Ptr B} {i n : ℕ} (h : p.Within size n) (lt : i < n) :
    (p.add i).Within size 1 := by
  obtain ⟨block, offset⟩ := p
  cases block with
  | none => exact h
  | some b =>
    change offset + n ≤ size b at h
    change offset + i + 1 ≤ size b
    omega

/-- So is every range inside it. -/
theorem Within.sub {size : B → ℕ} {p : Ptr B} {k m n : ℕ} (h : p.Within size n)
    (le : k + m ≤ n) : (p.add k).Within size m := by
  obtain ⟨block, offset⟩ := p
  cases block with
  | none => exact h
  | some b =>
    change offset + n ≤ size b at h
    change offset + k + m ≤ size b
    omega

/-- Two ranges of `n` bytes share a byte. -/
def Overlaps (p q : Ptr B) (n : ℕ) : Prop :=
  p.block = q.block ∧ p.offset < q.offset + n ∧ q.offset < p.offset + n

instance [DecidableEq B] (p q : Ptr B) (n : ℕ) : Decidable (p.Overlaps q n) :=
  inferInstanceAs (Decidable (_ ∧ _ ∧ _))

end Ptr

/-- The contents of all blocks. -/
abbrev Memory (B : Type*) := B → ℕ → Byte

namespace Memory

variable {B : Type*} [DecidableEq B] (size : B → ℕ) (m : Memory B) (p q : Ptr B)

/-- The byte a pointer points at; `0` through a pointer without a block. -/
def get (p : Ptr B) : Byte :=
  match p.block with
  | none => 0
  | some b => m b p.offset

/-- Replace the `n` bytes from `p` on by `f 0, …, f (n - 1)`. -/
def put (n : ℕ) (f : ℕ → Byte) : Memory B := fun b i =>
  if p.block = some b ∧ p.offset ≤ i ∧ i < p.offset + n then f (i - p.offset) else m b i

/-- The `n` bytes from `p` on. -/
def load (n : ℕ) : Option (List Byte) :=
  if p.Within size n then some ((List.range n).map fun i => m.get (p.add i)) else none

/-- Store a list of bytes from `p` on. -/
def store (bytes : List Byte) : Option (Memory B) :=
  if p.Within size bytes.length then some (m.put p bytes.length fun i => bytes.getD i 0)
  else none

/-- Store one byte. -/
def storeByte (byte : Byte) : Option (Memory B) :=
  if p.Within size 1 then some (m.put p 1 fun _ => byte) else none

/-- Load a little-endian 32-bit word. -/
def load32 : Option (BitVec 32) :=
  if p.Within size 4 then
    some (m.get (p.add 3) ++ m.get (p.add 2) ++ m.get (p.add 1) ++ m.get p)
  else none

/-- Store a little-endian 32-bit word. -/
def store32 (word : BitVec 32) : Option (Memory B) :=
  if p.Within size 4 then some (m.put p 4 fun i => word.extractLsb' (8 * i) 8) else none

/-- C's `memset`. -/
def memset (value : Byte) (n : ℕ) : Option (Memory B) :=
  if p.Within size n then some (m.put p n fun _ => value) else none

/-- C's `memmove`: the source is read before the destination is written. -/
def memmove (dst src : Ptr B) (n : ℕ) : Option (Memory B) :=
  if dst.Within size n ∧ src.Within size n then some (m.put dst n fun i => m.get (src.add i))
  else none

/-- C's `memcpy`: undefined on overlapping ranges. -/
def memcpy (dst src : Ptr B) (n : ℕ) : Option (Memory B) :=
  if dst.Overlaps src n then none else m.memmove size dst src n

variable {m p q}

theorem get_put (n : ℕ) (f : ℕ → Byte) :
    (m.put p n f).get q =
      if q.block ≠ none ∧ p.block = q.block ∧ p.offset ≤ q.offset ∧ q.offset < p.offset + n
      then f (q.offset - p.offset) else m.get q := by
  cases hq : q.block with
  | none => simp [get, hq]
  | some b => simp [get, put, hq]

/-- A put reaches nothing outside its range. -/
theorem put_apply_of_not_mem {n : ℕ} {f : ℕ → Byte} {b : B} {i : ℕ}
    (outside : ¬ (p.block = some b ∧ p.offset ≤ i ∧ i < p.offset + n)) :
    m.put p n f b i = m b i := if_neg outside

/-- Only the bytes in range count. -/
theorem put_congr {n : ℕ} {f g : ℕ → Byte} (same : ∀ i < n, f i = g i) :
    m.put p n f = m.put p n g := by
  funext b i
  unfold put
  split_ifs with inside
  · exact same _ (by omega)
  · rfl

/-- Of two puts to one range the later one remains. -/
theorem put_put (n : ℕ) (f g : ℕ → Byte) : (m.put p n f).put p n g = m.put p n g := by
  funext b i
  unfold put
  split_ifs <;> rfl

private theorem word_of_bytes (w : BitVec 32) :
    w.extractLsb' (8 * 3) 8 ++ w.extractLsb' (8 * 2) 8 ++ w.extractLsb' (8 * 1) 8 ++
      w.extractLsb' (8 * 0) 8 = w := by
  ext i hi
  simp only [BitVec.getElem_append, BitVec.getElem_extractLsb']
  -- bit `i` of the word is bit `i % 8` of byte `i / 8`
  split_ifs <;> rw [← BitVec.getLsbD_eq_getElem hi] <;> congr 1 <;> omega

/-- A stored word reads back. -/
theorem load32_store32 {size : B → ℕ} {word : BitVec 32} {m' : Memory B}
    (stored : m.store32 size p word = some m') : m'.load32 size p = some word := by
  unfold store32 at stored
  split_ifs at stored with within
  obtain rfl := Option.some.inj stored
  have hblock : p.block ≠ none := within.block_ne_none
  have hbyte : ∀ k < 4, (m.put p 4 fun i => word.extractLsb' (8 * i) 8).get (p.add k) =
      word.extractLsb' (8 * k) 8 := by
    intro k hk
    rw [get_put, if_pos ⟨hblock, rfl, by simp, by simpa using hk⟩]
    simp
  have hfirst := hbyte 0 (by decide)
  rw [show p.add 0 = p from rfl] at hfirst
  rw [load32, if_pos within, hbyte 3 (by decide), hbyte 2 (by decide), hbyte 1 (by decide),
    hfirst, word_of_bytes]

theorem put_zero (f : ℕ → Byte) : m.put p 0 f = m := by
  funext b i
  exact put_apply_of_not_mem (by omega)

/-- Putting one more byte at the end of a range extends the range. -/
theorem put_put_add (n : ℕ) (f : ℕ → Byte) :
    (m.put p n f).put (p.add n) 1 (fun _ => f n) = m.put p (n + 1) f := by
  funext b i
  -- only the byte at `p.offset + n` is new
  by_cases hlast : p.block = some b ∧ i = p.offset + n
  · obtain ⟨hblock, rfl⟩ := hlast
    simp [put, hblock]
  · rw [put_apply_of_not_mem]
    · unfold put
      refine if_congr ⟨fun h => ⟨h.1, h.2.1, by omega⟩, fun h => ⟨h.1, h.2.1, ?_⟩⟩ rfl rfl
      by_contra hge
      exact hlast ⟨h.1, by omega⟩
    · rintro ⟨hblock, hlow, hhigh⟩
      rw [Ptr.add_offset] at hlow hhigh
      exact hlast ⟨hblock, by omega⟩

/-- A byte-by-byte loop is one put. -/
theorem foldlM_storeByte {size : B → ℕ} {n : ℕ} (within : p.Within size n) (f : ℕ → Byte) :
    (List.range n).foldlM (fun m i => m.storeByte size (p.add i) (f i)) m =
      some (m.put p n f) := by
  -- on the number of bytes stored so far
  induction n with
  | zero => rw [put_zero]; rfl
  | succ n ih =>
    rw [List.range_succ, List.foldlM_append, ih (within.mono (Nat.le_succ n)),
      Option.bind_eq_bind, Option.bind_some, List.foldlM_cons, storeByte,
      if_pos (within.add (Nat.lt_succ_self n)), put_put_add]
    rfl

end Memory

end MeshNoc.Lib
