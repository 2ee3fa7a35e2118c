import Mathlib.Data.List.Basic

/-!
# Transformers that accumulate a value into an observation

A configuration loop writes the same registers many times over. Seen through one
observation of the state, such a transformer either leaves the observation alone or
combines it once with a fixed value; by an idempotent operation, combining it again
changes nothing. `Accumulates` states this for a transformer, under an invariant it
keeps, and composes along sequences, branches and folds. What remains of a nested loop
is the question whether any of its iterations hits the observation.
-/

namespace MeshNoc.Lib

variable {σ α β : Type*} {op : β → β → β} [Std.Associative op] [Std.IdempotentOp op]

/-- On states satisfying `I`, which it keeps, `F` combines the observation with `v` when
`hit` holds and leaves it alone otherwise. -/
def Accumulates (I : σ → Prop) (obs : σ → β) (op : β → β → β) (v : β) (hit : Bool)
    (F : σ → σ) : Prop :=
  ∀ s, I s → I (F s) ∧ obs (F s) = if hit then op (obs s) v else obs s

namespace Accumulates

variable {I : σ → Prop} {obs : σ → β} {v : β} {hit hit' : Bool} {F G : σ → σ}

omit [Std.Associative op] [Std.IdempotentOp op] in
theorem id : Accumulates I obs op v false fun s => s := fun _ hs => ⟨hs, rfl⟩

theorem comp (first : Accumulates I obs op v hit F) (second : Accumulates I obs op v hit' G) :
    Accumulates I obs op v (hit || hit') fun s => G (F s) := by
  intro s hs
  obtain ⟨hF, hobsF⟩ := first s hs
  obtain ⟨hG, hobsG⟩ := second (F s) hF
  refine ⟨hG, ?_⟩
  rw [hobsG, hobsF]
  cases hit <;> cases hit' <;>
    simp [‹Std.Associative op›.assoc, ‹Std.IdempotentOp op›.idempotent]

omit [Std.Associative op] [Std.IdempotentOp op] in
theorem ite {c : Prop} [Decidable c] (yes : c → Accumulates I obs op v hit F)
    (no : ¬ c → Accumulates I obs op v hit' G) :
    Accumulates I obs op v (if c then hit else hit') fun s => if c then F s else G s := by
  by_cases h : c
  · simpa [h] using yes h
  · simpa [h] using no h

/-- A fold accumulates when any of its steps does. -/
theorem foldl {f : σ → α → σ} {hits : α → Bool} {l : List α}
    (step : ∀ a ∈ l, Accumulates I obs op v (hits a) fun s => f s a) :
    Accumulates I obs op v (l.any hits) fun s => l.foldl f s := by
  induction l with
  | nil => exact id
  | cons a l ih =>
    rw [List.any_cons]
    exact comp (step a List.mem_cons_self) (ih fun b hb => step b (List.mem_cons_of_mem a hb))

end Accumulates

end MeshNoc.Lib
