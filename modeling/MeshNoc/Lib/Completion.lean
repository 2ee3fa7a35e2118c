import MeshNoc.Lib.EveryState

/-!
# Runs that can be completed

A state can reach a property if some run leads to it, all of whose steps meet a condition.
When from every state of an invariant a run leads to a smaller measure, or the goal is
there, the goal can be reached from every such state.

## Main results

* `CanReach.bind` — one run after the other
* `CanReach.follow` — the run of another system
* `canReach_of_measure` — a measure that can always be made smaller
-/

namespace MeshNoc.Lib

variable {σ α : Type*} {step : σ → α → σ} {C : σ → α → Prop} {P Q I : σ → Prop} {s : σ}

/-- Steps that meet `C` lead from `s` to a state with `P`. -/
def CanReach (step : σ → α → σ) (C : σ → α → Prop) (P : σ → Prop) (s : σ) : Prop :=
  ∃ actions : List α, EachStep step C s actions ∧ P (actions.foldl step s)

namespace CanReach

theorem here (h : P s) : CanReach step C P s := ⟨[], trivial, h⟩

theorem cons {a : α} (meets : C s a) (rest : CanReach step C P (step s a)) :
    CanReach step C P s := by
  obtain ⟨actions, heach, hP⟩ := rest
  exact ⟨a :: actions, ⟨meets, heach⟩, hP⟩

theorem one {a : α} (meets : C s a) (h : P (step s a)) : CanReach step C P s :=
  cons meets (here h)

theorem mono (h : CanReach step C P s) (weaker : ∀ s', P s' → Q s') : CanReach step C Q s := by
  obtain ⟨actions, heach, hP⟩ := h
  exact ⟨actions, heach, weaker _ hP⟩

theorem bind (h : CanReach step C P s) (next : ∀ s', P s' → CanReach step C Q s') :
    CanReach step C Q s := by
  obtain ⟨actions, heach, hP⟩ := h
  induction actions generalizing s with
  | nil => exact next s hP
  | cons a rest ih => exact cons heach.1 (ih heach.2 hP)

/-- A run of another system is followed when each of its steps before the goal is matched by
steps that lead to related states. -/
theorem follow {τ β : Type*} {step' : τ → β → τ} {C' : τ → β → Prop} {P' : τ → Prop} {x : τ}
    {R : τ → σ → Prop}
    (simulates : ∀ x s b, R x s → ¬ P' x → C' x b → CanReach step C (R (step' x b)) s)
    (h : CanReach step' C' P' x) (rel : R x s) :
    CanReach step C (fun s' => ∃ x', R x' s' ∧ P' x') s := by
  obtain ⟨actions, heach, hP⟩ := h
  induction actions generalizing x s with
  | nil => exact here ⟨x, rel, hP⟩
  | cons b rest ih =>
    by_cases hgoal : P' x
    · exact here ⟨x, rel, hgoal⟩
    · exact (simulates x s b rel hgoal heach.1).bind fun s' rel' => ih rel' heach.2 hP

end CanReach

/-- From every state of an invariant the goal can be reached, or the measure made smaller. -/
theorem canReach_of_measure (measure : σ → ℕ)
    (progress : ∀ s, I s →
      Q s ∨ CanReach step C (fun s' => I s' ∧ measure s' < measure s) s) (inv : I s) :
    CanReach step C (fun s' => I s' ∧ Q s') s := by
  induction h : measure s using Nat.strongRecOn generalizing s with
  | ind m ih =>
    rcases progress s inv with hgoal | hsmaller
    · exact CanReach.here ⟨inv, hgoal⟩
    · refine hsmaller.bind fun s' hs' => ?_
      exact ih (measure s') (h ▸ hs'.2) hs'.1 rfl

end MeshNoc.Lib
