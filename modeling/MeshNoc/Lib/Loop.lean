import Mathlib.Order.Basic

/-!
# While loops with explicit fuel

`loop body n s` runs `body` from `s` until it declines to continue, spending at most
`n` units of fuel; `none` means the fuel ran out. Fuel is only a bound: a result does
not depend on it, and a measure that every iteration decreases gives enough of it.
-/

namespace MeshNoc.Lib

variable {σ : Type*} (body : σ → Option σ)

/-- Repeat `body` until it returns `none`, and return the state it stopped in. -/
def loop : ℕ → σ → Option σ
  | 0, _ => none
  | n + 1, s =>
    match body s with
    | none => some s
    | some s' => loop n s'

/-- The loop started in `s` stops in `t`. -/
def Exits (s t : σ) : Prop := ∃ n, loop body n s = some t

variable {body} {s s' t t' : σ}

theorem loop_succ_of_none (n : ℕ) (stop : body s = none) : loop body (n + 1) s = some s := by
  simp [loop, stop]

theorem loop_succ_of_some (n : ℕ) (continues : body s = some s') :
    loop body (n + 1) s = loop body n s' := by
  simp [loop, continues]

/-- More fuel gives the same result. -/
theorem loop_mono {m n : ℕ} (le : m ≤ n) (result : loop body m s = some t) :
    loop body n s = some t := by
  induction m generalizing n s with
  | zero => simp [loop] at result
  | succ m ih =>
    obtain ⟨k, rfl⟩ : ∃ k, n = k + 1 := ⟨n - 1, by omega⟩
    cases hbody : body s with
    | none => rw [loop_succ_of_none _ hbody] at result ⊢; exact result
    | some s' =>
      rw [loop_succ_of_some _ hbody] at result ⊢
      exact ih (by omega) result

/-- A loop stops in at most one state. -/
theorem Exits.unique (first : Exits body s t) (second : Exits body s t') : t = t' := by
  obtain ⟨m, hm⟩ := first
  obtain ⟨n, hn⟩ := second
  have left := loop_mono (Nat.le_max_left m n) hm
  have right := loop_mono (Nat.le_max_right m n) hn
  exact Option.some.inj (left.symm.trans right)

theorem Exits.of_none (stop : body s = none) : Exits body s s := ⟨1, loop_succ_of_none 0 stop⟩

theorem Exits.step (continues : body s = some s') (rest : Exits body s' t) : Exits body s t := by
  obtain ⟨n, hn⟩ := rest
  exact ⟨n + 1, by rwa [loop_succ_of_some _ continues]⟩

/-- The while rule: what the body preserves holds where the loop stops, and the body
declines to continue there. -/
theorem Exits.rule {I : σ → Prop} (preserved : ∀ s s', I s → body s = some s' → I s')
    (start : I s) (exits : Exits body s t) : I t ∧ body t = none := by
  obtain ⟨n, hn⟩ := exits
  induction n generalizing s with
  | zero => simp [loop] at hn
  | succ n ih =>
    cases hbody : body s with
    | none =>
      rw [loop_succ_of_none _ hbody] at hn
      obtain rfl := Option.some.inj hn
      exact ⟨start, hbody⟩
    | some s' =>
      rw [loop_succ_of_some _ hbody] at hn
      exact ih (preserved s s' start hbody) hn

/-- A loop whose body decreases a measure under an invariant stops. -/
theorem exists_exits_of_measure {I : σ → Prop} (μ : σ → ℕ)
    (preserved : ∀ s s', I s → body s = some s' → I s')
    (decreases : ∀ s s', I s → body s = some s' → μ s' < μ s) (start : I s) :
    ∃ t, Exits body s t := by
  -- by strong induction on the measure: what the body continues in has a smaller one
  induction hμ : μ s using Nat.strongRecOn generalizing s with
  | _ k ih =>
    cases hbody : body s with
    | none => exact ⟨s, Exits.of_none hbody⟩
    | some s' =>
      have hlt := decreases s s' start hbody
      obtain ⟨t, hrest⟩ := ih (μ s') (hμ ▸ hlt) (preserved s s' start hbody) rfl
      exact ⟨t, Exits.step hbody hrest⟩

end MeshNoc.Lib
