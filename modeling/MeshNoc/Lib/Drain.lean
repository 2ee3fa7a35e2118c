import Mathlib.Algebra.BigOperators.Group.Finset.Basic
import Mathlib.Algebra.Order.BigOperators.Group.Finset
import Mathlib.Data.List.Pairwise

/-!
# Draining a pool in a fixed order

A drain loop takes the first element of a pool, in some order of preference, until the
pool is empty. `Draining` is its invariant when nothing enters the pool meanwhile: what
was taken is in order, precedes everything left, and together with what is left makes up
the initial pool. At the end the taken elements enumerate the initial pool in order.

When handling an element may put another one back, a potential that gives every element
its own weight still decreases, as long as handling an element puts back less weight than
the element had.
-/

namespace MeshNoc.Lib

section Order

variable {α : Type*} {precedes : α → α → Prop}

/-- The loop has taken the elements of a list from the initial pool, in order, and the
elements of `left` remain. -/
structure Draining (precedes : α → α → Prop) (initial : α → Prop) (taken : List α)
    (left : α → Prop) : Prop where
  ordered : taken.Pairwise precedes
  before : ∀ a ∈ taken, ∀ b, left b → precedes a b
  complete : ∀ a, initial a ↔ a ∈ taken ∨ left a

variable {initial left left' : α → Prop} {taken : List α} {a : α}

theorem Draining.start : Draining precedes initial [] initial :=
  ⟨.nil, by simp, by simp⟩

/-- Taking the first remaining element. -/
theorem Draining.take (h : Draining precedes initial taken left) (ha : left a)
    (first : ∀ b, left b → b ≠ a → precedes a b) (rest : ∀ b, left' b ↔ left b ∧ b ≠ a) :
    Draining precedes initial (taken ++ [a]) left' where
  ordered := by
    refine List.pairwise_append.mpr ⟨h.ordered, List.pairwise_singleton _ _, ?_⟩
    intro b hb c hc
    rw [List.mem_singleton.mp hc]
    exact h.before b hb a ha
  before b hb c hc := by
    obtain ⟨hleft, hne⟩ := (rest c).mp hc
    -- what was taken earlier precedes what is left, and so does `a`, the first of it
    rcases List.mem_append.mp hb with hb | hb
    · exact h.before b hb c hleft
    · rw [List.mem_singleton.mp hb]
      exact first c hleft hne
  complete b := by
    rw [h.complete b, List.mem_append, List.mem_singleton, rest b]
    by_cases hba : b = a
    · simp [hba, ha]
    · simp [hba]

/-- Elements may be put into the loop's pool and dropped from it, as long as the
eligible ones stay the same. -/
theorem Draining.congr (h : Draining precedes initial taken left)
    (same : ∀ b, left' b ↔ left b) : Draining precedes initial taken left' :=
  ⟨h.ordered, fun b hb c hc => h.before b hb c ((same c).mp hc),
    fun b => (h.complete b).trans (or_congr_right (same b).symm)⟩

/-- When nothing is left, the taken elements are the initial pool. -/
theorem Draining.mem_iff (h : Draining precedes initial taken left)
    (empty : ∀ b, ¬ left b) : a ∈ taken ↔ initial a := by
  rw [h.complete a, or_iff_left (empty a)]

end Order

section Potential

variable {α : Type*} [DecidableEq α] (weight : α → ℕ) {pool pool' : Finset α}

/-- Putting one element back raises the potential by at most its weight. -/
theorem potential_le_of_subset_insert {r : α} (sub : pool' ⊆ insert r pool) :
    ∑ a ∈ pool', weight a ≤ weight r + ∑ a ∈ pool, weight a := by
  refine (Finset.sum_le_sum_of_subset sub).trans ?_
  by_cases hr : r ∈ pool
  · rw [Finset.insert_eq_of_mem hr]
    exact Nat.le_add_left _ _
  · rw [Finset.sum_insert hr]

end Potential

end MeshNoc.Lib
