import MeshNoc.Lib.BlockMemory

/-!
# Flat address spaces over block memories

A placement maps disjoint windows of a flat address space onto disjoint ranges of the
blocks of a memory. Through it a block memory represents a flat memory, and a write
confined to one window acts on the represented memory as the same write at the flat
address: nothing outside the written addresses changes.

Addresses are any type with a numeric value, so that a flat memory may be indexed by
machine words.
-/

namespace MeshNoc.Lib

/-- Windows of a flat address space, each stored in its own range of a block. -/
structure Placement (ι B : Type*) where
  base : ι → ℕ
  length : ι → ℕ
  block : ι → B
  start : ι → ℕ
  /-- No address lies in two windows. -/
  windows_disjoint : ∀ i j a, base i ≤ a → a < base i + length i →
    base j ≤ a → a < base j + length j → i = j
  /-- No byte of a block stores two windows. -/
  storage_disjoint : ∀ i j k, block i = block j → start i ≤ k → k < start i + length i →
    start j ≤ k → k < start j + length j → i = j

namespace Placement

variable {ι B : Type*} (P : Placement ι B) {i j : ι} {a n : ℕ}

/-- Address `a` lies in window `i`. -/
def Covers (i : ι) (a : ℕ) : Prop := P.base i ≤ a ∧ a < P.base i + P.length i

instance (i : ι) (a : ℕ) : Decidable (P.Covers i a) := inferInstanceAs (Decidable (_ ∧ _))

/-- The `n` addresses from `a` on lie in window `i`. -/
def CoversRange (i : ι) (a n : ℕ) : Prop := P.base i ≤ a ∧ a + n ≤ P.base i + P.length i

instance (i : ι) (a n : ℕ) : Decidable (P.CoversRange i a n) :=
  inferInstanceAs (Decidable (_ ∧ _))

/-- Where window `i` stores address `a`. -/
def ptrAt (i : ι) (a : ℕ) : Ptr B := ⟨some (P.block i), P.start i + (a - P.base i)⟩

theorem ptrAt_ne_null (i : ι) (a : ℕ) : P.ptrAt i a ≠ .null := Ptr.mk_some_ne_null _ _

variable {P}

theorem Covers.unique (hi : P.Covers i a) (hj : P.Covers j a) : i = j :=
  P.windows_disjoint i j a hi.1 hi.2 hj.1 hj.2

theorem CoversRange.covers (h : P.CoversRange i a n) {k : ℕ} (hk : k < n) :
    P.Covers i (a + k) := by
  have := h.1
  have := h.2
  exact ⟨by omega, by omega⟩

/-- A range whose two ends lie in one window lies in it as a whole. -/
theorem coversRange_of_ends {b : ℕ} (first : P.Covers i a) (last : P.Covers i b)
    (range : a + n ≤ b + 1) : P.CoversRange i a n := by
  have := last.2
  exact ⟨first.1, by omega⟩

theorem CoversRange.ptrAt_add (h : P.CoversRange i a n) (k : ℕ) :
    P.ptrAt i (a + k) = (P.ptrAt i a).add k := by
  have := h.1
  simp only [ptrAt, Ptr.add, Ptr.mk.injEq, true_and]
  omega

/-- A pointer into a window has the rest of the window behind it. -/
theorem CoversRange.within {size : B → ℕ} (fits : P.start i + P.length i ≤ size (P.block i))
    (h : P.CoversRange i a n) : (P.ptrAt i a).Within size n := by
  have := h.1
  have := h.2
  change P.start i + (a - P.base i) + n ≤ size (P.block i)
  omega

/-- Ranges with no address in common are stored apart. -/
theorem CoversRange.not_overlaps {b : ℕ} (hi : P.CoversRange i a n) (hj : P.CoversRange j b n)
    (apart : a + n ≤ b ∨ b + n ≤ a) : ¬ (P.ptrAt i a).Overlaps (P.ptrAt j b) n := by
  rintro ⟨hblock, hlow, hhigh⟩
  simp only [ptrAt, Option.some.injEq] at hblock hlow hhigh
  obtain ⟨hi₁, hi₂⟩ := hi
  obtain ⟨hj₁, hj₂⟩ := hj
  -- the later of the two starting points is a byte of both ranges
  have hsame : i = j := by
    rcases Nat.le_total (P.start i + (a - P.base i)) (P.start j + (b - P.base j)) with h | h
    · exact P.storage_disjoint i j _ hblock ((Nat.le_add_right _ _).trans h)
        (by omega) (Nat.le_add_right _ _) (by omega)
    · exact P.storage_disjoint i j _ hblock (Nat.le_add_right _ _) (by omega)
        ((Nat.le_add_right _ _).trans h) (by omega)
  subst hsame
  omega

/-- Byte `k` of a block stores an address of window `i`. -/
def Stores (i : ι) (b : B) (k : ℕ) : Prop :=
  P.block i = b ∧ P.start i ≤ k ∧ k < P.start i + P.length i

/-- A write confined to one window reaches no byte that stores no window. -/
theorem CoversRange.put_of_not_stores [DecidableEq B] {m : Memory B} {b : B} {k : ℕ}
    (inside : P.CoversRange i a n) (f : ℕ → Byte) (unplaced : ∀ j, ¬ P.Stores j b k) :
    m.put (P.ptrAt i a) n f b k = m b k := by
  refine Memory.put_apply_of_not_mem ?_
  rintro ⟨hblock, hlow, hhigh⟩
  simp only [ptrAt, Option.some.injEq] at hblock hlow hhigh
  obtain ⟨hbase, hend⟩ := inside
  exact unplaced i ⟨hblock, by omega, by omega⟩

section Represents

variable {A : Type*} (val : A → ℕ)

/-- Replace the `n` bytes of a flat memory from address `a` on by `f 0, …, f (n - 1)`. -/
def flatPut (flat : A → Byte) (a n : ℕ) (f : ℕ → Byte) : A → Byte := fun x =>
  if a ≤ val x ∧ val x < a + n then f (val x - a) else flat x

theorem flatPut_of_mem {flat : A → Byte} {f : ℕ → Byte} {a n : ℕ} {x : A} (low : a ≤ val x)
    (high : val x < a + n) : flatPut val flat a n f x = f (val x - a) := if_pos ⟨low, high⟩

theorem flatPut_of_not_mem {flat : A → Byte} {f : ℕ → Byte} {a n : ℕ} {x : A}
    (outside : ¬ (a ≤ val x ∧ val x < a + n)) : flatPut val flat a n f x = flat x :=
  if_neg outside

theorem flatPut_zero (flat : A → Byte) (a : ℕ) (f : ℕ → Byte) :
    flatPut val flat a 0 f = flat :=
  funext fun _ => flatPut_of_not_mem val (by omega)

/-- The block memory holds the flat memory's byte for every address of every window. -/
def Represents (P : Placement ι B) (m : Memory B) (flat : A → Byte) : Prop :=
  ∀ i x, P.Covers i (val x) → m.get (P.ptrAt i (val x)) = flat x

variable {val} {m : Memory B} {flat : A → Byte}

/-- A write confined to one window is the same write of the flat memory. -/
theorem Represents.put [DecidableEq B] (rep : P.Represents val m flat)
    (inside : P.CoversRange i a n) (f : ℕ → Byte) :
    P.Represents val (m.put (P.ptrAt i a) n f) (flatPut val flat a n f) := by
  intro j x hx
  have hlow := inside.1
  have hhigh := inside.2
  rw [Memory.get_put, flatPut]
  by_cases hrange : a ≤ val x ∧ val x < a + n
  · obtain rfl : j = i := hx.unique ⟨by omega, by omega⟩
    rw [if_pos hrange, if_pos]
    · congr 1
      simp only [ptrAt]
      omega
    · simp only [ptrAt, ne_eq, reduceCtorEq, not_false_eq_true, true_and]
      omega
  · rw [if_neg hrange, if_neg, rep j x hx]
    rintro ⟨-, hblock, hge, hlt⟩
    simp only [ptrAt, Option.some.injEq] at hblock hge hlt
    have := hx.1
    have := hx.2
    obtain rfl := P.storage_disjoint j i (P.start j + (val x - P.base j)) hblock.symm
      (by omega) (by omega) (by omega) (by omega)
    exact hrange ⟨by omega, by omega⟩

end Represents

end Placement

end MeshNoc.Lib
