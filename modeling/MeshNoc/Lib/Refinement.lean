import MeshNoc.Lib.Transducer

/-!
# Refinement of a total machine by a partial one

A machine whose steps may be undefined refines a total machine on the inputs of a
contract when every step from related states is defined, gives the total machine's
answer and leads to related states. Then every run is defined and gives the total
machine's answers.
-/

namespace MeshNoc.Lib

variable {σ τ ι ω : Type*}

/-- The answers and the final state of a run, undefined as soon as one step is. -/
def tryRun (step : σ → ι → Option (ω × σ)) (s : σ) : List ι → Option (List ω × σ)
  | [] => some ([], s)
  | i :: rest => do
    let (answer, s') ← step s i
    let (answers, final) ← tryRun step s' rest
    some (answer :: answers, final)

theorem tryRun_cons {step : σ → ι → Option (ω × σ)} {s s' final : σ} {i : ι} {rest : List ι}
    {answer : ω} {answers : List ω} (first : step s i = some (answer, s'))
    (others : tryRun step s' rest = some (answers, final)) :
    tryRun step s (i :: rest) = some (answer :: answers, final) := by
  simp only [tryRun, Option.bind_eq_bind, first, Option.bind_some, others]

/-- Each input of a run meets its guard in the state it finds. -/
def Guarded (step : σ → ι → Option (ω × σ)) (guard : σ → ι → Prop) (s : σ) : List ι → Prop
  | [] => True
  | i :: rest => guard s i ∧ ∀ next ∈ step s i, Guarded step guard next.2 rest

/-- Each step simulated, the whole run is. -/
theorem tryRun_refines {step : σ → ι → Option (ω × σ)} {abstract : τ → ι → ω × τ}
    {R : σ → τ → Prop} {contract : ι → Prop}
    (simulates : ∀ s t i, contract i → R s t →
      ∃ s', step s i = some ((abstract t i).1, s') ∧ R s' (abstract t i).2)
    {s : σ} {t : τ} (start : R s t) {inputs : List ι} (kept : ∀ i ∈ inputs, contract i) :
    ∃ s', tryRun step s inputs = some ((runTrace abstract t inputs).map Prod.snd, s') ∧
      R s' (runState abstract t inputs) := by
  induction inputs generalizing s t with
  | nil => exact ⟨s, rfl, start⟩
  | cons i rest ih =>
    obtain ⟨s', hfirst, hrelated⟩ := simulates s t i (kept i List.mem_cons_self) start
    obtain ⟨final, hrest, hfinal⟩ := ih hrelated fun j hj => kept j (List.mem_cons_of_mem i hj)
    exact ⟨final, tryRun_cons hfirst hrest, hfinal⟩

end MeshNoc.Lib
