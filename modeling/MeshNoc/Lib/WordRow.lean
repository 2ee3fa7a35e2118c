import Mathlib.Data.BitVec
import Mathlib.Logic.Function.Basic

/-!
# Sets of numbers packed into a row of words

A row of `n` words of `w` bits represents a set of numbers below `w * n`: number
`s` is bit `s % w` of word `s / w`. Hardware writes such rows one word at a time,
so an update of one number always rewrites the numbers that share its word. This
file gives the three word updates that occur (OR a mask, AND its complement, store
the bare mask) their meaning on the represented set; only the last one changes the
membership of another number.
-/

namespace MeshNoc.Lib

/-- A row of `n` words of `w` bits. -/
abbrev WordRow (w n : ℕ) := Fin n → BitVec w

namespace WordRow

variable {w n : ℕ} [NeZero n] {s s' : ℕ}

/-- The word of the row that holds number `s`. -/
def index (w n : ℕ) [NeZero n] (s : ℕ) : Fin n := Fin.ofNat n (s / w)

/-- The one-bit mask of number `s` within its word. -/
def mask (w s : ℕ) : BitVec w := 1#w <<< (s % w)

/-- Membership of number `s` in the represented set. -/
def test (row : WordRow w n) (s : ℕ) : Bool := (row (index w n s)).getLsbD (s % w)

@[simp] theorem test_zero (s : ℕ) : test (fun _ => 0#w : WordRow w n) s = false := by
  simp [test]

theorem getLsbD_mask (positive : 0 < w) :
    (mask w s).getLsbD (s' % w) = decide (s % w = s' % w) := by
  have bound : s' % w < w := Nat.mod_lt _ positive
  rw [mask, ← BitVec.twoPow_eq, BitVec.getLsbD_twoPow]
  simp [Nat.mod_lt s positive]

/-- Below the capacity of the row, two numbers share a word exactly when they have
the same quotient. -/
theorem index_eq_iff (hs : s < w * n) (hs' : s' < w * n) :
    index w n s = index w n s' ↔ s / w = s' / w := by
  have bound : s / w < n := Nat.div_lt_of_lt_mul hs
  have bound' : s' / w < n := Nat.div_lt_of_lt_mul hs'
  simp [index, Fin.ext_iff, Nat.mod_eq_of_lt bound, Nat.mod_eq_of_lt bound']

/-- Numbers sharing both word and bit are equal. -/
theorem eq_of_div_mod (hdiv : s / w = s' / w) (hmod : s % w = s' % w) : s = s' := by
  rw [← Nat.div_add_mod s w, ← Nat.div_add_mod s' w, hdiv, hmod]

/-- Masking a word with the mask of `s` reads the membership of `s`. -/
theorem and_mask_eq_zero_iff (positive : 0 < w) (row : WordRow w n) :
    row (index w n s) &&& mask w s = 0#w ↔ row.test s = false := by
  have bound : s % w < w := Nat.mod_lt _ positive
  rw [mask, ← BitVec.twoPow_eq, BitVec.and_twoPow, test]
  cases hbit : (row (index w n s)).getLsbD (s % w) with
  | false => simp
  | true =>
    simp only [if_true, reduceCtorEq, iff_false]
    intro hzero
    -- compare the one bit the mask keeps
    have := congrArg (fun word => word.getLsbD (s % w)) hzero
    simp [bound] at this

theorem test_update_of_div_ne (row : WordRow w n) (word : BitVec w)
    (hs : s < w * n) (hs' : s' < w * n) (hne : s' / w ≠ s / w) :
    test (Function.update row (index w n s) word) s' = row.test s' := by
  have hindex : index w n s' ≠ index w n s := fun h => hne ((index_eq_iff hs' hs).mp h)
  rw [test, Function.update_of_ne hindex, test]

theorem test_update_of_div_eq (row : WordRow w n) (word : BitVec w)
    (hs : s < w * n) (hs' : s' < w * n) (heq : s' / w = s / w) :
    test (Function.update row (index w n s) word) s' = word.getLsbD (s' % w) := by
  rw [test, (index_eq_iff hs' hs).mpr heq, Function.update_self]

/-- ORing the mask of `s` into its word adds `s` and nothing else. -/
theorem test_update_or (positive : 0 < w) (row : WordRow w n)
    (hs : s < w * n) (hs' : s' < w * n) :
    test (Function.update row (index w n s) (row (index w n s) ||| mask w s)) s' =
      (row.test s' || decide (s' = s)) := by
  -- a number of the same word reads the OR, any other keeps its word
  by_cases hdiv : s' / w = s / w
  · rw [test_update_of_div_eq _ _ hs hs' hdiv, BitVec.getLsbD_or, getLsbD_mask positive,
      test, (index_eq_iff hs' hs).mpr hdiv]
    congr 1
    exact decide_eq_decide.mpr
      ⟨fun hmod => eq_of_div_mod hdiv hmod.symm, fun h => by rw [h]⟩
  · have hne : s' ≠ s := fun h => hdiv (by rw [h])
    rw [test_update_of_div_ne _ _ hs hs' hdiv, decide_eq_false hne, Bool.or_false]

/-- ANDing the complement of the mask of `s` removes `s` and nothing else. -/
theorem test_update_and_not (positive : 0 < w) (row : WordRow w n)
    (hs : s < w * n) (hs' : s' < w * n) :
    test (Function.update row (index w n s) (row (index w n s) &&& ~~~mask w s)) s' =
      (row.test s' && !decide (s' = s)) := by
  by_cases hdiv : s' / w = s / w
  · have bound : s' % w < w := Nat.mod_lt _ positive
    rw [test_update_of_div_eq _ _ hs hs' hdiv, BitVec.getLsbD_and, BitVec.getLsbD_not,
      getLsbD_mask positive, test, (index_eq_iff hs' hs).mpr hdiv, decide_eq_true bound,
      Bool.true_and]
    congr 2
    exact decide_eq_decide.mpr
      ⟨fun hmod => eq_of_div_mod hdiv hmod.symm, fun h => by rw [h]⟩
  · have hne : s' ≠ s := fun h => hdiv (by rw [h])
    rw [test_update_of_div_ne _ _ hs hs' hdiv, decide_eq_false hne, Bool.not_false,
      Bool.and_true]

/-- Storing the bare mask of `s` adds `s` and drops every other number of its word. -/
theorem test_update_mask (positive : 0 < w) (row : WordRow w n)
    (hs : s < w * n) (hs' : s' < w * n) :
    test (Function.update row (index w n s) (mask w s)) s' =
      if s' / w = s / w then decide (s' = s) else row.test s' := by
  -- within the word only the bit of `s` is set
  split_ifs with hdiv
  · rw [test_update_of_div_eq _ _ hs hs' hdiv, getLsbD_mask positive]
    exact decide_eq_decide.mpr
      ⟨fun hmod => eq_of_div_mod hdiv hmod.symm, fun h => by rw [h]⟩
  · exact test_update_of_div_ne _ _ hs hs' hdiv

end WordRow

end MeshNoc.Lib
