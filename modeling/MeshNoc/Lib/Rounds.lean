import Mathlib.Order.Nat
import MeshNoc.Lib.Completion

/-!
# Rounds

A schedule of several threads falls into rounds, in each of which every thread makes a step. A
system may depend on one of its threads to go on. When no step raises a measure, the step of
that thread lowers it, and until then the system depends on no other, every round lowers the
measure.

## Main definitions

* `Helped` — the measure, and the thread it depends on

## Main results

* `Helped.rounds` — how much as many rounds lower the measure
* `Helped.canReach` — the measure can be brought to zero
-/

namespace MeshNoc.Lib

variable {σ α κ : Type*}

/-- The next step of the helper lowers the measure, which no step raises; the helper stays the
same for as long as the measure does. -/
structure Helped (step : σ → α → σ) (C : σ → α → Prop) (I : σ → Prop) (thread : α → κ)
    (threads : Set κ) (helper : σ → κ) (measure : σ → ℕ) : Prop where
  keeps : ∀ s a, I s → C s a → I (step s a)
  mem : ∀ s, I s → helper s ∈ threads
  le : ∀ s a, I s → C s a → measure (step s a) ≤ measure s
  lt : ∀ s a, I s → C s a → 0 < measure s → thread a = helper s → measure (step s a) < measure s
  stays : ∀ s a, I s → C s a → 0 < measure s → measure (step s a) = measure s →
    helper (step s a) = helper s

variable {step : σ → α → σ} {C : σ → α → Prop} {I : σ → Prop} {thread : α → κ} {threads : Set κ}
  {helper : σ → κ} {measure : σ → ℕ} {s : σ} {actions : List α} {schedule : List (List α)}

/-- Every thread makes a step. -/
def IsRound (thread : α → κ) (threads : Set κ) (round : List α) : Prop :=
  ∀ k ∈ threads, ∃ a ∈ round, thread a = k

namespace Helped

theorem run (h : Helped step C I thread threads helper measure) (inv : I s)
    (each : EachStep step C s actions) :
    I (actions.foldl step s) ∧ measure (actions.foldl step s) ≤ measure s := by
  induction actions generalizing s with
  | nil => exact ⟨inv, le_rfl⟩
  | cons a rest ih =>
    obtain ⟨hinv, hle⟩ := ih (h.keeps s a inv each.1) each.2
    exact ⟨hinv, hle.trans (h.le s a inv each.1)⟩

/-- A run in which the helper makes a step lowers the measure. -/
theorem lt_run (h : Helped step C I thread threads helper measure) (inv : I s)
    (each : EachStep step C s actions) (pos : 0 < measure s)
    (steps : ∃ a ∈ actions, thread a = helper s) :
    measure (actions.foldl step s) < measure s := by
  induction actions generalizing s with
  | nil =>
    obtain ⟨a, ha, -⟩ := steps
    exact absurd ha List.not_mem_nil
  | cons a rest ih =>
    obtain ⟨hmeets, heach⟩ := each
    have hinv := h.keeps s a inv hmeets
    rcases Nat.lt_or_eq_of_le (h.le s a inv hmeets) with hlt | hsame
    · exact (h.run hinv heach).2.trans_lt hlt
    -- nothing has changed for the helper, so its step is still to come
    have hstill : ∃ b ∈ rest, thread b = helper (step s a) := by
      rw [h.stays s a inv hmeets pos hsame]
      obtain ⟨b, hb, hhelper⟩ := steps
      rcases List.mem_cons.mp hb with rfl | hrest
      · exact absurd hsame (h.lt s b inv hmeets pos hhelper).ne
      · exact ⟨b, hrest, hhelper⟩
    have hless := ih hinv heach (hsame ▸ pos) hstill
    rwa [hsame] at hless

/-- Every round lowers the measure, as long as there is something to lower. -/
theorem rounds (h : Helped step C I thread threads helper measure) (inv : I s)
    (each : EachStep step C s schedule.flatten)
    (complete : ∀ round ∈ schedule, IsRound thread threads round) :
    measure (schedule.flatten.foldl step s) ≤ measure s - schedule.length := by
  induction schedule generalizing s with
  | nil => exact le_rfl
  | cons round rest ih =>
    rw [List.flatten_cons, eachStep_append] at each
    have hround := h.run inv each.1
    have hrest := ih hround.1 each.2 fun round' hmem =>
      complete round' (List.mem_cons_of_mem _ hmem)
    rw [List.flatten_cons, List.foldl_append, List.length_cons]
    rcases Nat.eq_zero_or_pos (measure s) with hzero | hpos
    · omega
    · have hlt := h.lt_run inv each.1 hpos (complete round List.mem_cons_self _ (h.mem s inv))
      omega

/-- As long as the helper can make its step the measure can be brought to zero; `J` is what its
steps can keep on the way. -/
theorem canReach (h : Helped step C I thread threads helper measure) {J : σ → Prop}
    (available : ∀ s, I s → J s → 0 < measure s →
      ∃ a, thread a = helper s ∧ C s a ∧ J (step s a)) (inv : I s) (also : J s) :
    CanReach step C (fun s' => (I s' ∧ J s') ∧ measure s' = 0) s := by
  refine canReach_of_measure (I := fun s => I s ∧ J s) measure (fun s inv => ?_) ⟨inv, also⟩
  rcases Nat.eq_zero_or_pos (measure s) with hzero | hpos
  · exact Or.inl hzero
  · obtain ⟨a, hhelper, hmeets, hkept⟩ := available s inv.1 inv.2 hpos
    have hinv := h.keeps s a inv.1 hmeets
    exact Or.inr (.one hmeets ⟨⟨hinv, hkept⟩, h.lt s a inv.1 hmeets hpos hhelper⟩)

end Helped

end MeshNoc.Lib
