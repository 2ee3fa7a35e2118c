import MeshNoc.Lib.Placement
import Mathlib.Data.List.Pairwise

/-!
# Copies with separate footprints

A copy reads a range of a memory and writes the bytes to another range. Two copies commute
when the range each of them writes is apart from both ranges of the other, so a list of
copies that are pairwise independent has the same effect in every order.

## Main results

* `Copy.apply_comm` — independent copies commute
* `Copy.applyAll_perm` — pairwise independent copies have one effect in every order
-/

namespace MeshNoc.Lib

variable {B : Type*}

/-- The `n` bytes from `p` on and the `k` bytes from `q` on have no byte in common. -/
def Ptr.Apart (p : Ptr B) (n : ℕ) (q : Ptr B) (k : ℕ) : Prop :=
  ∀ i < n, ∀ j < k, p.add i ≠ q.add j

theorem Ptr.Apart.symm {p q : Ptr B} {n k : ℕ} (apart : p.Apart n q k) : q.Apart k p n :=
  fun j hj i hi h => apart i hi j hj h.symm

/-- Parts of ranges that are apart are apart. -/
theorem Ptr.Apart.mono {p q : Ptr B} {n n' k k' : ℕ} (apart : p.Apart n q k) (hn : n' ≤ n)
    (hk : k' ≤ k) : p.Apart n' q k' :=
  fun i hi j hj => apart i (hi.trans_le hn) j (hj.trans_le hk)

namespace Placement

variable {ι : Type*} {P : Placement ι B} {i j : ι} {a b n k : ℕ}

/-- No two addresses are stored in one place. -/
theorem ptrAt_inj (hi : P.Covers i a) (hj : P.Covers j b) (same : P.ptrAt i a = P.ptrAt j b) :
    a = b := by
  simp only [ptrAt, Ptr.mk.injEq, Option.some.injEq] at same
  obtain ⟨hblock, hoffset⟩ := same
  obtain ⟨hi₁, hi₂⟩ := hi
  obtain ⟨hj₁, hj₂⟩ := hj
  obtain rfl := P.storage_disjoint i j (P.start i + (a - P.base i)) hblock (by omega)
    (by omega) (by omega) (by omega)
  omega

/-- Ranges with no address in common are stored apart, whatever their lengths. -/
theorem CoversRange.apart (hi : P.CoversRange i a n) (hj : P.CoversRange j b k)
    (disjoint : a + n ≤ b ∨ b + k ≤ a) : (P.ptrAt i a).Apart n (P.ptrAt j b) k := by
  intro x hx y hy same
  rw [← hi.ptrAt_add, ← hj.ptrAt_add] at same
  have := ptrAt_inj (hi.covers hx) (hj.covers hy) same
  omega

end Placement

namespace Memory

variable [DecidableEq B] {m m' : Memory B} {p q : Ptr B} {n : ℕ} {f : ℕ → Byte}

omit [DecidableEq B] in
/-- A memory is what pointers read from it. -/
theorem ext_get (same : ∀ q : Ptr B, q.block ≠ none → m.get q = m'.get q) : m = m' := by
  funext b i
  exact same ⟨some b, i⟩ (Option.some_ne_none b)

theorem get_put_of_mem (block : p.block ≠ none) {i : ℕ} (hi : i < n) :
    (m.put p n f).get (p.add i) = f i := by
  rw [get_put, if_pos ⟨block, rfl, Nat.le_add_right _ _, by simpa using hi⟩]
  simp

theorem get_put_of_ne (outside : ∀ i < n, p.add i ≠ q) : (m.put p n f).get q = m.get q := by
  rw [get_put, if_neg]
  rintro ⟨-, hblock, hlow, hhigh⟩
  refine outside (q.offset - p.offset) (by omega) ?_
  obtain ⟨block, offset⟩ := q
  change p.offset ≤ offset at hlow
  change (Ptr.mk p.block (p.offset + (offset - p.offset)) : Ptr B) = ⟨block, offset⟩
  rw [Nat.add_sub_cancel' hlow, show p.block = block from hblock]

end Memory

/-- A copy of `length` bytes. -/
structure Copy (B : Type*) where
  dst : Ptr B
  src : Ptr B
  length : ℕ

namespace Copy

variable [DecidableEq B] (m : Memory B) (c d : Copy B)

/-- The memory behind the copy; the source is read first. -/
def apply : Memory B := m.put c.dst c.length fun i => m.get (c.src.add i)

/-- What each of two copies writes is apart from what the other reads and writes. -/
structure Independent (c d : Copy B) : Prop where
  dst_dst : c.dst.Apart c.length d.dst d.length
  dst_src : c.dst.Apart c.length d.src d.length
  src_dst : c.src.Apart c.length d.dst d.length

variable {m c d}

omit [DecidableEq B] in
theorem Independent.symm (independent : c.Independent d) : d.Independent c :=
  ⟨independent.dst_dst.symm, independent.src_dst.symm, independent.dst_src.symm⟩

/-- What a copy leaves outside its destination. -/
theorem get_apply_of_ne {q : Ptr B} (outside : ∀ i < c.length, c.dst.add i ≠ q) :
    (apply m c).get q = m.get q := Memory.get_put_of_ne outside

/-- What a copy leaves in its destination, whatever another copy did before that is
independent of it. -/
theorem get_apply_apply (independent : c.Independent d) (block : c.dst.block ≠ none) {i : ℕ}
    (hi : i < c.length) : (apply (apply m d) c).get (c.dst.add i) = m.get (c.src.add i) := by
  rw [apply, Memory.get_put_of_mem block hi]
  exact get_apply_of_ne fun j hj same => independent.src_dst i hi j hj same.symm

theorem get_apply_of_mem (block : c.dst.block ≠ none) {i : ℕ} (hi : i < c.length) :
    (apply m c).get (c.dst.add i) = m.get (c.src.add i) := Memory.get_put_of_mem block hi

/-- Independent copies commute. -/
theorem apply_comm (independent : c.Independent d) :
    apply (apply m c) d = apply (apply m d) c := by
  refine Memory.ext_get fun q hq => ?_
  -- a byte is written by the first copy, by the second, or by neither
  by_cases hc : ∃ i < c.length, c.dst.add i = q
  · obtain ⟨i, hi, rfl⟩ := hc
    rw [get_apply_apply independent hq hi, get_apply_of_ne, get_apply_of_mem hq hi]
    exact fun j hj same => independent.dst_dst i hi j hj same.symm
  have hc' : ∀ i < c.length, c.dst.add i ≠ q := fun i hi h => hc ⟨i, hi, h⟩
  by_cases hd : ∃ j < d.length, d.dst.add j = q
  · obtain ⟨j, hj, rfl⟩ := hd
    rw [get_apply_apply independent.symm hq hj, get_apply_of_ne hc', get_apply_of_mem hq hj]
  · have hd' : ∀ j < d.length, d.dst.add j ≠ q := fun j hj h => hd ⟨j, hj, h⟩
    rw [get_apply_of_ne hd', get_apply_of_ne hc', get_apply_of_ne hc', get_apply_of_ne hd']

section Lists

variable {ι : Type*} {copy : ι → Copy B} {xs ys : List ι}

/-- Pairwise independent copies have one effect in every order. -/
theorem applyAll_perm (independent : xs.Pairwise fun x y => (copy x).Independent (copy y))
    (perm : xs.Perm ys) (m : Memory B) :
    xs.foldl (fun m x => apply m (copy x)) m = ys.foldl (fun m x => apply m (copy x)) m := by
  refine perm.foldl_eq' (fun x hx y hy m => ?_) m
  by_cases same : x = y
  · rw [same]
  · have hsymm : Std.Symm fun x y => (copy x).Independent (copy y) := ⟨fun _ _ h => h.symm⟩
    exact apply_comm (independent.forall hx hy same)

end Lists

end Copy

end MeshNoc.Lib
