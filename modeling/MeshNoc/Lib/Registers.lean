import MeshNoc.Lib.BlockMemory

/-!
# Registers in block memory

A register is a little-endian word of a block memory. What drivers do to one is to read
it, clear the bits of a mask, set the bits of a value and write it back; on the bytes of
the word this is the same operation, so it is stated once as a masked update of a range.

## Main results

* `get_setBits` — what a masked update leaves in every byte
* `modify32_eq`, `modify64_eq` — reading, changing and writing back a word is one masked
  update
* `load32_setBits`, `load64_put` — a word behind an update of it
* `load32_put_of_apart`, `load64_put_of_apart` — a word behind an update of another range
-/

namespace MeshNoc.Lib

/-- Byte `i` of a word, from the least significant byte on. -/
def byteOf {w : ℕ} (word : BitVec w) (i : ℕ) : Byte := word.extractLsb' (8 * i) 8

/-- Clear the bits of `mask` and set those of `value`. -/
def maskByte (mask value b : Byte) : Byte := (b &&& ~~~mask) ||| value

section ByteOf

variable {w : ℕ} (a b : BitVec w) (i : ℕ)

theorem byteOf_or : byteOf (a ||| b) i = byteOf a i ||| byteOf b i := by
  ext k hk
  simp only [byteOf, BitVec.getElem_extractLsb', BitVec.getElem_or, BitVec.getLsbD_or]

/-- The bits that a mask keeps, byte by byte. -/
theorem byteOf_and_not : byteOf (a &&& ~~~b) i = byteOf a i &&& ~~~byteOf b i := by
  ext k hk
  simp only [byteOf, BitVec.getElem_extractLsb', BitVec.getElem_and, BitVec.getElem_not,
    BitVec.getLsbD_and, BitVec.getLsbD_not]
  -- beyond the width both sides are zero
  by_cases inside : 8 * i + k < w
  · rw [decide_eq_true inside, Bool.true_and]
  · rw [BitVec.getLsbD_of_ge a _ (by omega), Bool.false_and, Bool.false_and]

end ByteOf

section Append

variable {w : ℕ} (high : BitVec w) (low : Byte)

theorem byteOf_append_zero : byteOf (high ++ low) 0 = low := by
  ext k hk
  simp only [byteOf, BitVec.getElem_extractLsb', BitVec.getLsbD_append]
  rw [if_pos (by omega), Nat.mul_zero, Nat.zero_add, BitVec.getLsbD_eq_getElem hk]

theorem byteOf_append_succ (i : ℕ) : byteOf (high ++ low) (i + 1) = byteOf high i := by
  ext k hk
  simp only [byteOf, BitVec.getElem_extractLsb', BitVec.getLsbD_append]
  rw [if_neg (by omega)]
  congr 1
  omega

/-- A byte is a word of one byte. -/
theorem byteOf_byte : byteOf low 0 = low := by
  ext k hk
  simp only [byteOf, BitVec.getElem_extractLsb']
  rw [Nat.mul_zero, Nat.zero_add, BitVec.getLsbD_eq_getElem hk]

end Append

namespace Memory

variable {B : Type*} [DecidableEq B] (size : B → ℕ) (m : Memory B) (p : Ptr B)

/-- Load a little-endian 64-bit word. -/
def load64 : Option (BitVec 64) :=
  if p.Within size 8 then
    some (m.get (p.add 7) ++ m.get (p.add 6) ++ m.get (p.add 5) ++ m.get (p.add 4) ++
      m.get (p.add 3) ++ m.get (p.add 2) ++ m.get (p.add 1) ++ m.get p)
  else none

/-- Store a little-endian 64-bit word. -/
def store64 (word : BitVec 64) : Option (Memory B) :=
  if p.Within size 8 then some (m.put p 8 (byteOf word)) else none

/-- In the `n` bytes from `p` on clear the bits of the masks and set those of the
values. -/
def setBits (n : ℕ) (mask value : ℕ → Byte) : Memory B :=
  m.put p n fun i => maskByte (mask i) (value i) (m.get (p.add i))

variable {size m p}

/-- A put, read back at an offset from a common base. -/
theorem get_put_add (block : p.block ≠ none) (r n : ℕ) (f : ℕ → Byte) (k : ℕ) :
    (m.put (p.add r) n f).get (p.add k) =
      if r ≤ k ∧ k < r + n then f (k - r) else m.get (p.add k) := by
  rw [get_put]
  by_cases inside : r ≤ k ∧ k < r + n
  · rw [if_pos inside, if_pos ⟨block, rfl, by simpa using inside.1, by simp; omega⟩]
    congr 1
    simp only [Ptr.add_offset]
    omega
  · rw [if_neg inside, if_neg]
    rintro ⟨-, -, hlow, hhigh⟩
    simp only [Ptr.add_offset] at hlow hhigh
    omega

/-- A masked update, read back at an offset from a common base. -/
theorem get_setBits (block : p.block ≠ none) (r n : ℕ) (mask value : ℕ → Byte) (k : ℕ) :
    (m.setBits (p.add r) n mask value).get (p.add k) =
      if r ≤ k ∧ k < r + n then maskByte (mask (k - r)) (value (k - r)) (m.get (p.add k))
      else m.get (p.add k) := by
  rw [setBits, get_put_add block]
  by_cases inside : r ≤ k ∧ k < r + n
  · have hptr : (p.add r).add (k - r) = p.add k := by
      simp only [Ptr.add, Ptr.mk.injEq, true_and]
      omega
    rw [if_pos inside, if_pos inside, hptr]
  · rw [if_neg inside, if_neg inside]

/-- A masked update reaches nothing outside its range. -/
theorem setBits_apply_of_not_mem {n : ℕ} {mask value : ℕ → Byte} {b : B} {i : ℕ}
    (outside : ¬ (p.block = some b ∧ p.offset ≤ i ∧ i < p.offset + n)) :
    m.setBits p n mask value b i = m b i := put_apply_of_not_mem outside

omit [DecidableEq B] in
/-- The bytes of a loaded word are those behind the pointer. -/
theorem byteOf_load32 {word : BitVec 32} (loaded : m.load32 size p = some word) {i : ℕ}
    (hi : i < 4) : byteOf word i = m.get (p.add i) := by
  unfold load32 at loaded
  split_ifs at loaded
  obtain rfl := Option.some.inj loaded
  -- one case for each byte of the word
  rcases i with _ | _ | _ | _ | i
  · exact byteOf_append_zero _ _
  · rw [byteOf_append_succ, byteOf_append_zero]
  · rw [byteOf_append_succ, byteOf_append_succ, byteOf_append_zero]
  · rw [byteOf_append_succ, byteOf_append_succ, byteOf_append_succ, byteOf_byte]
  · omega

/-- A word is read, changed in the bits of a mask and written back. -/
theorem modify32_eq (within : p.Within size 4) (f : BitVec 32 → BitVec 32)
    (mask value : BitVec 32) (masked : ∀ word, f word = (word &&& ~~~mask) ||| value) :
    ((m.load32 size p).bind fun word => m.store32 size p (f word)) =
      some (m.setBits p 4 (byteOf mask) (byteOf value)) := by
  obtain ⟨word, hload⟩ : ∃ word, m.load32 size p = some word := ⟨_, if_pos within⟩
  rw [hload, Option.bind_some, store32, if_pos within, masked]
  refine congrArg some (put_congr fun i hi => ?_)
  change byteOf _ i = maskByte _ _ _
  rw [byteOf_or, byteOf_and_not, byteOf_load32 hload hi, maskByte]

/-- A 64-bit word is read and replaced. -/
theorem modify64_eq (within : p.Within size 8) (f : BitVec 64 → BitVec 64)
    (value : BitVec 64) (replaced : ∀ word, f word = value) :
    ((m.load64 size p).bind fun word => m.store64 size p (f word)) =
      some (m.put p 8 (byteOf value)) := by
  obtain ⟨word, hload⟩ : ∃ word, m.load64 size p = some word := ⟨_, if_pos within⟩
  rw [hload, Option.bind_some, replaced]
  exact if_pos within

/-! ### Words behind an update -/

section Load

variable {m' : Memory B}

omit [DecidableEq B] in
/-- A load sees the bytes of its word only. -/
theorem load32_congr (same : ∀ i < 4, m'.get (p.add i) = m.get (p.add i)) :
    m'.load32 size p = m.load32 size p := by
  have hfirst : m'.get p = m.get p := same 0 (by decide)
  rw [load32, load32, same 3 (by decide), same 2 (by decide), same 1 (by decide), hfirst]

omit [DecidableEq B] in
theorem load64_congr (same : ∀ i < 8, m'.get (p.add i) = m.get (p.add i)) :
    m'.load64 size p = m.load64 size p := by
  have hfirst : m'.get p = m.get p := same 0 (by decide)
  rw [load64, load64, same 7 (by decide), same 6 (by decide), same 5 (by decide),
    same 4 (by decide), same 3 (by decide), same 2 (by decide), same 1 (by decide), hfirst]

/-- A byte outside the range of a put, at an offset from a common base. -/
theorem get_put_of_apart (block : p.block ≠ none) {r n k i : ℕ} (f : ℕ → Byte)
    (apart : k + i < r ∨ r + n ≤ k + i) :
    (m.put (p.add r) n f).get ((p.add k).add i) = m.get ((p.add k).add i) := by
  have hptr : (p.add k).add i = p.add (k + i) := by
    simp only [Ptr.add, Ptr.mk.injEq, true_and]
    omega
  rw [hptr, get_put_add block, if_neg (by omega)]

theorem load32_put_of_apart (block : p.block ≠ none) {r n k : ℕ} (f : ℕ → Byte)
    (apart : k + 4 ≤ r ∨ r + n ≤ k) :
    (m.put (p.add r) n f).load32 size (p.add k) = m.load32 size (p.add k) :=
  load32_congr fun _ _ => get_put_of_apart block f (by omega)

theorem load64_put_of_apart (block : p.block ≠ none) {r n k : ℕ} (f : ℕ → Byte)
    (apart : k + 8 ≤ r ∨ r + n ≤ k) :
    (m.put (p.add r) n f).load64 size (p.add k) = m.load64 size (p.add k) :=
  load64_congr fun _ _ => get_put_of_apart block f (by omega)

theorem load32_setBits_of_apart (block : p.block ≠ none) {r n k : ℕ} (mask value : ℕ → Byte)
    (apart : k + 4 ≤ r ∨ r + n ≤ k) :
    (m.setBits (p.add r) n mask value).load32 size (p.add k) = m.load32 size (p.add k) :=
  load32_put_of_apart block _ apart

theorem load64_setBits_of_apart (block : p.block ≠ none) {r n k : ℕ} (mask value : ℕ → Byte)
    (apart : k + 8 ≤ r ∨ r + n ≤ k) :
    (m.setBits (p.add r) n mask value).load64 size (p.add k) = m.load64 size (p.add k) :=
  load64_put_of_apart block _ apart

/-- A masked update of a word, as an operation on the word. -/
theorem load32_setBits {word : BitVec 32} (loaded : m.load32 size p = some word)
    (mask value : BitVec 32) :
    (m.setBits p 4 (byteOf mask) (byteOf value)).load32 size p =
      some ((word &&& ~~~mask) ||| value) := by
  have hwithin : p.Within size 4 := by
    by_contra hnot
    rw [load32, if_neg hnot] at loaded
    exact absurd loaded (by simp)
  have hstored := modify32_eq (m := m) hwithin (fun word => (word &&& ~~~mask) ||| value) mask
    value fun _ => rfl
  rw [loaded, Option.bind_some] at hstored
  exact load32_store32 hstored

/-- The bytes of a 64-bit word, put together again. -/
theorem append_byteOf (word : BitVec 64) :
    byteOf word 7 ++ byteOf word 6 ++ byteOf word 5 ++ byteOf word 4 ++ byteOf word 3 ++
      byteOf word 2 ++ byteOf word 1 ++ byteOf word 0 = word := by
  ext i hi
  simp only [BitVec.getElem_append, byteOf, BitVec.getElem_extractLsb']
  -- bit `i` of the word is bit `i % 8` of byte `i / 8`
  split_ifs <;> rw [← BitVec.getLsbD_eq_getElem hi] <;> congr 1 <;> omega

theorem load64_put (within : p.Within size 8) (word : BitVec 64) :
    (m.put p 8 (byteOf word)).load64 size p = some word := by
  have hblock : p.block ≠ none := within.block_ne_none
  have hbyte : ∀ k < 8, (m.put p 8 (byteOf word)).get (p.add k) = byteOf word k := by
    intro k hk
    rw [get_put, if_pos ⟨hblock, rfl, by simp, by simpa using hk⟩]
    simp
  have hfirst : (m.put p 8 (byteOf word)).get p = byteOf word 0 := hbyte 0 (by decide)
  rw [load64, if_pos within, hbyte 7 (by decide), hbyte 6 (by decide), hbyte 5 (by decide),
    hbyte 4 (by decide), hbyte 3 (by decide), hbyte 2 (by decide), hbyte 1 (by decide), hfirst,
    append_byteOf]

end Load

end Memory

end MeshNoc.Lib
