import Mathlib.Logic.Function.Basic

/-!
# Locks held by threads

A table of locks and the lock that each thread holds, if any. The table is *owned* when a
held lock is taken and has one holder. A thread that takes a free lock, and one that gives
its lock back, keep the table owned.
-/

namespace MeshNoc.Lib

variable {ι κ : Type*} {holds : ι → Option κ} {taken : κ → Bool} {i : ι} {k : κ}

/-- Every lock that a thread holds is taken, and only that thread holds it. -/
structure LocksOwned (holds : ι → Option κ) (taken : κ → Bool) : Prop where
  taken_of_holds : ∀ i k, holds i = some k → taken k = true
  holder_unique : ∀ i j k, holds i = some k → holds j = some k → i = j

namespace LocksOwned

/-- Nobody holds a lock. -/
theorem of_none (none : ∀ i, holds i = none) : LocksOwned holds taken where
  taken_of_holds i k h := by simp [none i] at h
  holder_unique i j k h := by simp [none i] at h

/-- Only what the threads hold matters. -/
theorem congr (h : LocksOwned holds taken) {holds' : ι → Option κ}
    (same : ∀ i, holds' i = holds i) : LocksOwned holds' taken := by
  obtain rfl : holds' = holds := funext same
  exact h

section Update

variable [DecidableEq κ] {holds' : ι → Option κ}

/-- A thread takes a free lock. -/
theorem take (h : LocksOwned holds taken) (free : taken k = false) (mine : holds' i = some k)
    (others : ∀ j ≠ i, holds' j = holds j) :
    LocksOwned holds' (Function.update taken k true) := by
  have hother : ∀ j l, j ≠ i → holds' j = some l → holds j = some l ∧ l ≠ k := by
    intro j l hj hl
    rw [others j hj] at hl
    refine ⟨hl, ?_⟩
    rintro rfl
    exact absurd (h.taken_of_holds j l hl) (by simp [free])
  refine ⟨fun j l hl => ?_, fun j j' l hl hl' => ?_⟩
  · by_cases hlk : l = k
    · rw [hlk, Function.update_self]
    · rw [Function.update_of_ne hlk]
      have hj : j ≠ i := by
        rintro rfl
        exact hlk (Option.some.inj (hl.symm.trans mine))
      exact h.taken_of_holds j l (hother j l hj hl).1
  · by_cases hj : j = i <;> by_cases hj' : j' = i
    · rw [hj, hj']
    -- the lock just taken is not one that another thread held before
    · rw [hj, mine] at hl
      exact absurd (Option.some.inj hl).symm (hother j' l hj' hl').2
    · rw [hj', mine] at hl'
      exact absurd (Option.some.inj hl').symm (hother j l hj hl).2
    · exact h.holder_unique j j' l (hother j l hj hl).1 (hother j' l hj' hl').1

/-- A thread gives its lock back. -/
theorem drop (h : LocksOwned holds taken) (held : holds i = some k) (mine : holds' i = none)
    (others : ∀ j ≠ i, holds' j = holds j) :
    LocksOwned holds' (Function.update taken k false) := by
  have hother : ∀ j l, holds' j = some l → j ≠ i ∧ holds j = some l := by
    intro j l hl
    have hj : j ≠ i := by
      rintro rfl
      simp [mine] at hl
    exact ⟨hj, (others j hj).symm.trans hl⟩
  refine ⟨fun j l hl => ?_, fun j j' l hl hl' =>
    h.holder_unique j j' l (hother j l hl).2 (hother j' l hl').2⟩
  obtain ⟨hj, hl⟩ := hother j l hl
  have hlk : l ≠ k := by
    rintro rfl
    exact hj (h.holder_unique j i l hl held)
  rw [Function.update_of_ne hlk]
  exact h.taken_of_holds j l hl

end Update

end LocksOwned

end MeshNoc.Lib
