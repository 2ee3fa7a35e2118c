import Mathlib.Data.List.Basic

/-!
# First-match searches

A table lookup that returns its first match is independent of the table's order when
the matches agree: one matching entry then determines the answer.
-/

namespace MeshNoc.Lib

variable {α β : Type*} {l : List α} {a : α}

/-- The first match is `a` when `a` is the only one. -/
theorem find?_eq_some_of_unique {p : α → Bool} (mem : a ∈ l) (holds : p a = true)
    (unique : ∀ b ∈ l, p b = true → b = a) : l.find? p = some a := by
  cases hfind : l.find? p with
  | none => exact absurd holds (List.find?_eq_none.mp hfind a mem)
  | some b => rw [unique b (List.mem_of_find?_eq_some hfind) (List.find?_some hfind)]

/-- The first answer is `y` when some entry answers `y` and no entry answers otherwise. -/
theorem findSome?_eq_some_of_agree {f : α → Option β} {y : β} (mem : a ∈ l)
    (holds : f a = some y) (agree : ∀ b ∈ l, ∀ z, f b = some z → z = y) :
    l.findSome? f = some y := by
  cases hfind : l.findSome? f with
  | none =>
    have := List.findSome?_eq_none_iff.mp hfind a mem
    rw [holds] at this
    exact absurd this (by simp)
  | some z =>
    obtain ⟨b, hb, hz⟩ := List.exists_of_findSome?_eq_some hfind
    rw [agree b hb z hz]

end MeshNoc.Lib
