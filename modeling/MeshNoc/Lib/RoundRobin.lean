import Mathlib.Data.List.Count
import Mathlib.Logic.Function.Iterate

/-!
# Round robin

Choices among the numbers `first, …, n - 1`, each the one after the last. The numbers below
the next choice have been chosen once more than the others, so that no two counts differ by
more than one. From a start that is known, each choice is known.

## Main results

* `RoundRobin.count_le` — no number is chosen more than once more than another
* `ChoosesFrom.choose`, `iterate_nextInRound` — the choices from a start
-/

namespace MeshNoc.Lib

variable {first n next : ℕ} {chosen : List ℕ}

/-- The number after `t` in the round of `first, …, n - 1`. -/
def nextInRound (first n t : ℕ) : ℕ := if n ≤ t + 1 then first else t + 1

/-- The choices made so far, latest first, and the one to be made next. -/
structure RoundRobin (first n next : ℕ) (chosen : List ℕ) : Prop where
  first_le : first ≤ next
  next_lt : next < n
  chosen_mem : ∀ t ∈ chosen, first ≤ t ∧ t < n
  rounds : ∃ k, ∀ t, first ≤ t → t < n → chosen.count t = k + if t < next then 1 else 0

namespace RoundRobin

theorem start (nonempty : first < n) : RoundRobin first n first [] where
  first_le := Nat.le_refl _
  next_lt := nonempty
  chosen_mem _ h := absurd h List.not_mem_nil
  rounds := ⟨0, fun t hfirst _ => by simp [hfirst]⟩

/-- Making the next choice. -/
theorem choose (h : RoundRobin first n next chosen) :
    RoundRobin first n (nextInRound first n next) (next :: chosen) := by
  obtain ⟨k, hk⟩ := h.rounds
  have hle := h.first_le
  have hlt := h.next_lt
  have hmem : ∀ t ∈ next :: chosen, first ≤ t ∧ t < n := by
    intro t ht
    rcases List.mem_cons.mp ht with rfl | ht
    · exact ⟨hle, hlt⟩
    · exact h.chosen_mem t ht
  by_cases hwrap : n ≤ next + 1
  · -- the last number: the round is complete
    rw [nextInRound, if_pos hwrap]
    refine ⟨Nat.le_refl _, by omega, hmem, k + 1, fun t htfirst htn => ?_⟩
    rw [List.count_cons, hk t htfirst htn, if_neg (show ¬ t < first by omega)]
    by_cases ht : t < next
    · rw [if_pos ht, beq_false_of_ne (by omega)]
      rfl
    · rw [if_neg ht, show next = t by omega, beq_self_eq_true]
      rfl
  · rw [nextInRound, if_neg hwrap]
    refine ⟨by omega, by omega, hmem, k, fun t htfirst htn => ?_⟩
    rw [List.count_cons, hk t htfirst htn]
    by_cases ht : t = next
    · rw [if_neg (show ¬ t < next by omega), if_pos (show t < next + 1 by omega), ht,
        beq_self_eq_true]
      rfl
    · rw [beq_false_of_ne (Ne.symm ht)]
      by_cases hbelow : t < next
      · rw [if_pos hbelow, if_pos (show t < next + 1 by omega)]
        rfl
      · rw [if_neg hbelow, if_neg (show ¬ t < next + 1 by omega)]
        rfl

/-- No number has been chosen more than once more than another. -/
theorem count_le (h : RoundRobin first n next chosen) {t u : ℕ} (ht : first ≤ t ∧ t < n)
    (hu : first ≤ u ∧ u < n) : chosen.count t ≤ chosen.count u + 1 := by
  obtain ⟨k, hk⟩ := h.rounds
  rw [hk t ht.1 ht.2, hk u hu.1 hu.2]
  split_ifs <;> omega

end RoundRobin

/-! ### The choices from a start -/

variable {start : ℕ}

/-- `k` choices after `start`. -/
theorem iterate_nextInRound (le : first ≤ start) (lt : start < n) (k : ℕ) :
    (nextInRound first n)^[k] start = first + (start - first + k) % (n - first) := by
  induction k with
  | zero =>
    rw [Function.iterate_zero_apply, Nat.add_zero, Nat.mod_eq_of_lt (by omega)]
    omega
  | succ k ih =>
    have hmod := Nat.mod_lt (start - first + k) (show 0 < n - first by omega)
    have hnext : (start - first + (k + 1)) % (n - first) =
        ((start - first + k) % (n - first) + 1) % (n - first) := by
      rw [Nat.mod_add_mod, Nat.add_assoc]
    rw [Function.iterate_succ_apply', ih, nextInRound, hnext]
    by_cases hwrap : (start - first + k) % (n - first) + 1 = n - first
    · -- the last number of the round
      rw [if_pos (by omega), hwrap, Nat.mod_self, Nat.add_zero]
    · rw [if_neg (by omega), Nat.mod_eq_of_lt (a := (start - first + k) % (n - first) + 1)
        (by omega), Nat.add_assoc]

/-- The choices made one after the other from `start`, latest first, and the next. -/
structure ChoosesFrom (first n start next : ℕ) (chosen : List ℕ) : Prop where
  next : next = (nextInRound first n)^[chosen.length] start
  chosen : chosen =
    ((List.range chosen.length).map fun k => (nextInRound first n)^[k] start).reverse

namespace ChoosesFrom

theorem none (first n start : ℕ) : ChoosesFrom first n start start [] := ⟨rfl, rfl⟩

/-- Making the next choice. -/
theorem choose (h : ChoosesFrom first n start next chosen) :
    ChoosesFrom first n start (nextInRound first n next) (next :: chosen) where
  next := by rw [List.length_cons, Function.iterate_succ_apply', ← h.next]
  chosen := by
    rw [List.length_cons, List.range_succ, List.map_append, List.reverse_append, ← h.chosen,
      h.next]
    rfl

theorem mem (h : ChoosesFrom first n start next chosen) (le : first ≤ start) (lt : start < n) :
    (first ≤ next ∧ next < n) ∧ ∀ t ∈ chosen, first ≤ t ∧ t < n := by
  have hiterate (k : ℕ) :
      first ≤ (nextInRound first n)^[k] start ∧ (nextInRound first n)^[k] start < n := by
    rw [iterate_nextInRound le lt]
    have hmod := Nat.mod_lt (start - first + k) (show 0 < n - first by omega)
    omega
  refine ⟨h.next ▸ hiterate _, fun t ht => ?_⟩
  rw [h.chosen, List.mem_reverse, List.mem_map] at ht
  obtain ⟨k, -, rfl⟩ := ht
  exact hiterate k

end ChoosesFrom

end MeshNoc.Lib
