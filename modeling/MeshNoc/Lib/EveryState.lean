import Mathlib.Data.List.Basic

/-!
# Properties of every state of a run

What holds in every state of a run, and what the steps of the run must be like for it to
hold. When a step keeps a property exactly if it meets a condition, a run has the property
in every state exactly if each of its steps meets the condition.
-/

namespace MeshNoc.Lib

variable {σ α : Type*} {step : σ → α → σ} {I P : σ → Prop} {C : σ → α → Prop} {s : σ}
  {actions : List α}

/-- `P` holds in every state of a run. -/
def Always (step : σ → α → σ) (P : σ → Prop) (s : σ) : List α → Prop
  | [] => P s
  | a :: rest => P s ∧ Always step P (step s a) rest

/-- `C` holds of every step of a run, with the state the step starts from. -/
def EachStep (step : σ → α → σ) (C : σ → α → Prop) (s : σ) : List α → Prop
  | [] => True
  | a :: rest => C s a ∧ EachStep step C (step s a) rest

instance decidableEachStep [∀ s a, Decidable (C s a)] : (s : σ) → (actions : List α) →
    Decidable (EachStep step C s actions)
  | _, [] => isTrue trivial
  | s, a :: rest =>
    have := decidableEachStep (step s a) rest
    inferInstanceAs (Decidable (_ ∧ _))

theorem eachStep_append {before after : List α} : EachStep step C s (before ++ after) ↔
    EachStep step C s before ∧ EachStep step C (before.foldl step s) after := by
  induction before generalizing s with
  | nil => exact (and_iff_right trivial).symm
  | cons a before ih => exact (and_congr_right fun _ => ih).trans and_assoc.symm

theorem eachStep_of_forall (all : ∀ a ∈ actions, ∀ s, C s a) : EachStep step C s actions := by
  induction actions generalizing s with
  | nil => exact trivial
  | cons a rest ih =>
    exact ⟨all a List.mem_cons_self s, ih fun b hb => all b (List.mem_cons_of_mem a hb)⟩

theorem Always.first (h : Always step P s actions) : P s := by
  cases actions with
  | nil => exact h
  | cons a rest => exact h.1

/-- The states of a run are those its beginnings lead to. -/
theorem always_iff_forall_beginning :
    Always step P s actions ↔
      ∀ before after, actions = before ++ after → P (before.foldl step s) := by
  constructor
  · rintro h before after rfl
    induction before generalizing s with
    | nil => exact h.first
    | cons a before ih => exact ih h.2
  · intro h
    induction actions generalizing s with
    | nil => exact h [] [] rfl
    | cons a rest ih =>
      refine ⟨h [] (a :: rest) rfl, ih fun before after split => ?_⟩
      exact h (a :: before) after (congrArg (a :: ·) split)

theorem Always.last (h : Always step P s actions) : P (actions.foldl step s) :=
  always_iff_forall_beginning.mp h actions [] (List.append_nil actions).symm

/-- When under an invariant a step keeps a property exactly if it meets a condition. -/
theorem always_iff_eachStep (keeps : ∀ s a, I s → I (step s a))
    (step_iff : ∀ s a, I s → P s → (P (step s a) ↔ C s a)) (inv : I s) (start : P s) :
    Always step P s actions ↔ EachStep step C s actions := by
  induction actions generalizing s with
  | nil => exact iff_of_true start trivial
  | cons a rest ih =>
    have hstep := step_iff s a inv start
    constructor
    · rintro ⟨-, always⟩
      exact ⟨hstep.mp always.first, (ih (keeps s a inv) always.first).mp always⟩
    · rintro ⟨hC, each⟩
      exact ⟨start, (ih (keeps s a inv) (hstep.mpr hC)).mpr each⟩

end MeshNoc.Lib
