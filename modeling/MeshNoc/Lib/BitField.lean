import Mathlib.Data.BitVec

/-!
# Bit fields of a word

A field is `n` bits of a word from bit `s` on. Drivers write one by clearing the bits of its
mask and setting those of the shifted value, and read one by masking and shifting back. With
the field's own mask, and a value that fits, the two are inverse and neither reaches another
field.

## Main results

* `extractLsb'_putField`, `extractLsb'_putField_of_apart` — a field behind a write, to it and
  to another one
* `getLsbD_putField_of_not_mem` — every bit outside the field is kept
* `putField_putField` — a later write to a field replaces an earlier one
* `getField_putField` — what is read behind a write is what was written
* `getField_eq_self_iff` — when reading the lowest field reads the whole word
-/

namespace MeshNoc.Lib

variable {w n s : ℕ}

/-- The mask of the `n` bits from bit `s` on. -/
def fieldMask (w n s : ℕ) : BitVec w := (BitVec.allOnes n).setWidth w <<< s

/-- Clear the bits of `mask`, and set those of `val` shifted. -/
def putField (mask : BitVec w) (shift : ℕ) (reg val : BitVec w) : BitVec w :=
  (reg &&& ~~~mask) ||| (val <<< shift)

/-- Keep the bits of `mask`, and shift them down. -/
def getField (mask : BitVec w) (shift : ℕ) (reg : BitVec w) : BitVec w := (reg &&& mask) >>> shift

theorem getLsbD_fieldMask (i : ℕ) :
    (fieldMask w n s).getLsbD i = decide (i < w ∧ s ≤ i ∧ i < s + n) := by
  simp only [fieldMask, BitVec.getLsbD_shiftLeft, BitVec.getLsbD_setWidth,
    BitVec.getLsbD_allOnes, ← decide_not, ← Bool.decide_and]
  exact decide_eq_decide.mpr (by omega)

section Put

variable {reg val : BitVec w}

/-- A write, bit by bit: the value inside the field, the old bits outside it. -/
theorem getLsbD_putField (small : val.toNat < 2 ^ n) {i : ℕ} (hi : i < w) :
    (putField (fieldMask w n s) s reg val).getLsbD i =
      if s ≤ i ∧ i < s + n then val.getLsbD (i - s) else reg.getLsbD i := by
  simp only [putField, BitVec.getLsbD_or, BitVec.getLsbD_and, BitVec.getLsbD_not,
    BitVec.getLsbD_shiftLeft, getLsbD_fieldMask, hi, true_and, decide_true, Bool.true_and]
  by_cases hlow : s ≤ i
  · by_cases hhigh : i < s + n
    · simp [hlow, hhigh]
    · -- beyond the field the value has no bits
      have hbeyond : val.getLsbD (i - s) = false :=
        Nat.testBit_lt_two_pow (small.trans_le (Nat.pow_le_pow_right (by decide) (by omega)))
      simp [hhigh, hbeyond]
  · simp [hlow, show i < s by omega]

theorem getLsbD_putField_of_not_mem (small : val.toNat < 2 ^ n) {i : ℕ}
    (outside : ¬ (s ≤ i ∧ i < s + n)) :
    (putField (fieldMask w n s) s reg val).getLsbD i = reg.getLsbD i := by
  by_cases hi : i < w
  · rw [getLsbD_putField small hi, if_neg outside]
  · rw [BitVec.getLsbD_of_ge _ _ (by omega), BitVec.getLsbD_of_ge _ _ (by omega)]

/-- The field behind a write to it. -/
theorem extractLsb'_putField (fits : s + n ≤ w) (small : val.toNat < 2 ^ n) :
    (putField (fieldMask w n s) s reg val).extractLsb' s n = val.setWidth n := by
  ext i hi
  rw [BitVec.getElem_extractLsb', BitVec.getElem_setWidth, getLsbD_putField small (by omega),
    if_pos (by omega), Nat.add_sub_cancel_left]

/-- A field behind a write to another one. -/
theorem extractLsb'_putField_of_apart (small : val.toNat < 2 ^ n) {s' n' : ℕ}
    (apart : s' + n' ≤ s ∨ s + n ≤ s') :
    (putField (fieldMask w n s) s reg val).extractLsb' s' n' = reg.extractLsb' s' n' := by
  ext i hi
  rw [BitVec.getElem_extractLsb', BitVec.getElem_extractLsb',
    getLsbD_putField_of_not_mem small (by omega)]

/-- The value itself, read out of its field. -/
theorem setWidth_extractLsb'_putField (fits : s + n ≤ w) (small : val.toNat < 2 ^ n) :
    ((putField (fieldMask w n s) s reg val).extractLsb' s n).setWidth w = val := by
  rw [extractLsb'_putField fits small, ← BitVec.toNat_inj,
    BitVec.toNat_setWidth_of_le (by omega), BitVec.toNat_setWidth, Nat.mod_eq_of_lt small]

/-- Of two writes to one field the later one remains. -/
theorem putField_putField {val' : BitVec w} (small : val.toNat < 2 ^ n)
    (small' : val'.toNat < 2 ^ n) :
    putField (fieldMask w n s) s (putField (fieldMask w n s) s reg val) val' =
      putField (fieldMask w n s) s reg val' := by
  refine BitVec.eq_of_getLsbD_eq fun i hi => ?_
  rw [getLsbD_putField small' hi, getLsbD_putField small hi, getLsbD_putField small' hi]
  split_ifs <;> rfl

end Put

/-- Masking and shifting down is reading the field. -/
theorem getField_eq (fits : s + n ≤ w) (reg : BitVec w) :
    getField (fieldMask w n s) s reg = (reg.extractLsb' s n).setWidth w := by
  ext i hi
  simp only [getField, BitVec.getElem_ushiftRight, BitVec.getLsbD_and, getLsbD_fieldMask,
    BitVec.getElem_setWidth, BitVec.getLsbD_extractLsb']
  by_cases inside : i < n
  · simp [inside, show s + i < w by omega]
  · simp [inside]

/-- The lowest field is the whole word when no higher bit is set. -/
theorem getField_eq_self_iff (fits : n ≤ w) {reg : BitVec w} :
    getField (fieldMask w n 0) 0 reg = reg ↔ reg.toNat < 2 ^ n := by
  rw [getField_eq (by omega), ← BitVec.toNat_inj, BitVec.toNat_setWidth_of_le fits,
    BitVec.extractLsb'_toNat, Nat.shiftRight_zero]
  constructor
  · intro hmod
    rw [← hmod]
    exact Nat.mod_lt _ (Nat.two_pow_pos n)
  · exact Nat.mod_eq_of_lt

theorem getField_putField (fits : s + n ≤ w) (reg : BitVec w) (v : BitVec n) :
    getField (fieldMask w n s) s (putField (fieldMask w n s) s reg (v.setWidth w)) =
      v.setWidth w := by
  have hsmall : (v.setWidth w).toNat < 2 ^ n := by
    rw [BitVec.toNat_setWidth_of_le (by omega)]
    exact v.isLt
  have hback : (v.setWidth w).setWidth n = v := by
    rw [BitVec.setWidth_setWidth_of_le v (by omega), BitVec.setWidth_eq]
  rw [getField_eq fits, extractLsb'_putField fits hsmall, hback]

end MeshNoc.Lib
