import Mathlib.Control.Basic
import Mathlib.Data.Nat.Notation

/-!
# Clients of a machine

A client is a program that issues calls to a machine and goes on with the answers; two of
its threads may race for the next call, and what it does may be undefined. The weakest
precondition of a client says that from a state of the machine every schedule of the client
is defined and ends as wanted. A client verified on an abstract machine is verified on
every machine that refines it.

## Main results

* `Client.wp_bind`, `Client.wp_mono` — the rules of weakest preconditions
* `Client.wp_foldlM`, `Client.wp_foldlM_range` — a loop keeps its invariant
* `Client.wp_advance`, `Client.advance_defined` — a precondition follows a client's steps
* `Client.wp_follow` — a client can be followed to its end
* `Client.wp_of_refines` — from an abstract machine to one that refines it
-/

namespace MeshNoc.Lib

universe u

/-- A program that calls a machine with inputs `ι` and gets outputs `ω`. -/
inductive Client (ι ω : Type*) (α : Type u)
  | done (value : α)
  | call (input : ι) (next : ω → Client ι ω α)
  /-- Two threads are at a call; the scheduler picks the one that goes first. -/
  | race (first second : Client ι ω α)
  | undefined

namespace Client

variable {ι ω σ τ : Type*} {α β : Type u}

protected def bind : Client ι ω α → (α → Client ι ω β) → Client ι ω β
  | done value, f => f value
  | call input next, f => call input fun output => (next output).bind f
  | race first second, f => race (first.bind f) (second.bind f)
  | undefined, _ => undefined

instance : Monad (Client ι ω) where
  pure := done
  bind := Client.bind

/-- Issue a call and return its answer. -/
def ask (input : ι) : Client ι ω ω := call input done

/-- One step: a call is made, or a race decided. `none` when there is nothing to do, or the
step is undefined. -/
def advance (step : σ → ι → Option (ω × σ)) (first : Bool) (s : σ) :
    Client ι ω α → Option (Client ι ω α × σ)
  | done _ | undefined => none
  | call input next => (step s input).map fun out => (next out.1, out.2)
  | race c d => some (if first then c else d, s)

/-- From state `s` the client is defined, and it ends with a value and in a state that
satisfy `Q`, however its races are decided. -/
def wp (step : σ → ι → Option (ω × σ)) (Q : α → σ → Prop) : Client ι ω α → σ → Prop
  | done value, s => Q value s
  | call input next, s =>
    ∃ output s', step s input = some (output, s') ∧ (next output).wp step Q s'
  | race first second, s => first.wp step Q s ∧ second.wp step Q s
  | undefined, _ => False

section Rules

variable {step : σ → ι → Option (ω × σ)} {Q R : α → σ → Prop} {s : σ} {c : Client ι ω α}

@[simp] theorem wp_pure {value : α} : (pure value : Client ι ω α).wp step Q s ↔ Q value s :=
  Iff.rfl

@[simp] theorem wp_ask {input : ι} {Q : ω → σ → Prop} : (ask input).wp step Q s ↔
    ∃ output s', step s input = some (output, s') ∧ Q output s' := Iff.rfl

@[simp] theorem wp_bind {f : α → Client ι ω β} {Q : β → σ → Prop} :
    (c >>= f).wp step Q s ↔ c.wp step (fun value s' => (f value).wp step Q s') s := by
  change (c.bind f).wp step Q s ↔ _
  induction c generalizing s with
  | done value => rfl
  | call input next ih =>
    exact exists_congr fun output => exists_congr fun s' => and_congr_right fun _ => ih output
  | race first second ihf ihs => exact and_congr ihf ihs
  | undefined => rfl

theorem wp_mono (h : c.wp step Q s) (weaker : ∀ value s', Q value s' → R value s') :
    c.wp step R s := by
  induction c generalizing s with
  | done value => exact weaker value s h
  | call input next ih =>
    obtain ⟨output, s', hstep, hnext⟩ := h
    exact ⟨output, s', hstep, ih output hnext⟩
  | race first second ihf ihs => exact ⟨ihf h.1, ihs h.2⟩
  | undefined => exact h

/-- A loop over a list: each round keeps the invariant of what is done and what is left. -/
theorem wp_foldlM {γ : Type*} {body : α → γ → Client ι ω α} {I : List γ → α → σ → Prop}
    {xs : List γ} {a : α} (start : I xs a s)
    (round : ∀ x rest a s, I (x :: rest) a s → (body a x).wp step (I rest) s) :
    (xs.foldlM body a).wp step (I []) s := by
  induction xs generalizing a s with
  | nil => exact start
  | cons x rest ih =>
    rw [List.foldlM_cons, wp_bind]
    exact wp_mono (round x rest a s start) fun a' s' h => ih h

/-- A loop that counts from zero. -/
theorem wp_foldlM_range {body : α → ℕ → Client ι ω α} {I : ℕ → α → σ → Prop} {n : ℕ} {a : α}
    (start : I 0 a s)
    (round : ∀ k < n, ∀ a s, I k a s → (body a k).wp step (I (k + 1)) s) :
    ((List.range n).foldlM body a).wp step (I n) s := by
  -- what is left at round `k` is the list of the numbers from `k` on
  let J : List ℕ → α → σ → Prop := fun rest a s =>
    ∃ k ≤ n, rest = List.range' k (n - k) ∧ I k a s
  have hloop : ((List.range n).foldlM body a).wp step (J []) s := by
    refine wp_foldlM ⟨0, Nat.zero_le n, ?_, start⟩ fun x rest a s hrest => ?_
    · rw [List.range_eq_range', Nat.sub_zero]
    obtain ⟨k, hk, hlist, hinv⟩ := hrest
    obtain ⟨m, hm⟩ : ∃ m, n - k = m + 1 := Nat.exists_eq_succ_of_ne_zero fun hzero => by
      rw [hzero] at hlist
      exact absurd hlist (List.cons_ne_nil _ _)
    rw [hm, List.range'_succ, List.cons.injEq] at hlist
    obtain ⟨rfl, rfl⟩ := hlist
    refine wp_mono (round x (by omega) a s hinv) fun a' s' h => ⟨x + 1, by omega, ?_, h⟩
    rw [show n - (x + 1) = m by omega]
  refine wp_mono hloop fun a' s' hend => ?_
  obtain ⟨k, hk, hlist, hinv⟩ := hend
  have hlength := congrArg List.length hlist
  rw [List.length_nil, List.length_range'] at hlength
  rwa [show n = k by omega]

/-- A step leads from the precondition to that of the rest of the client. -/
theorem wp_advance (h : c.wp step Q s) {first : Bool} {c' : Client ι ω α} {s' : σ}
    (advanced : c.advance step first s = some (c', s')) : c'.wp step Q s' := by
  cases c with
  | done value => simp [advance] at advanced
  | call input next =>
    obtain ⟨output, t, hstep, hnext⟩ := h
    simp only [advance, hstep, Option.map_some, Option.some.injEq, Prod.mk.injEq] at advanced
    obtain ⟨rfl, rfl⟩ := advanced
    exact hnext
  | race c d =>
    simp only [advance, Option.some.injEq, Prod.mk.injEq] at advanced
    obtain ⟨rfl, rfl⟩ := advanced
    cases first with
    | true => exact h.1
    | false => exact h.2
  | undefined => exact h.elim

/-- A client with a precondition has come to its end or can take a step. -/
theorem advance_defined (h : c.wp step Q s) (first : Bool) :
    (∃ value, c = done value ∧ Q value s) ∨
      ∃ c' s', c.advance step first s = some (c', s') := by
  cases c with
  | done value => exact .inl ⟨value, rfl, h⟩
  | call input next =>
    obtain ⟨output, s', hstep, -⟩ := h
    exact .inr ⟨next output, s', by rw [advance, hstep]; rfl⟩
  | race c d => exact .inr ⟨_, s, rfl⟩
  | undefined => exact h.elim

/-- A client with a precondition can be followed to its end: what holds at every end, and
before a step if behind it, holds of the client. -/
theorem wp_follow {motive : Client ι ω α → σ → Prop} (h : c.wp step Q s)
    (ends : ∀ value s, Q value s → motive (done value) s)
    (back : ∀ c s c' s', c.advance step true s = some (c', s') → motive c' s' → motive c s) :
    motive c s := by
  induction c generalizing s with
  | done value => exact ends value s h
  | call input next ih =>
    obtain ⟨output, s', hstep, hnext⟩ := h
    exact back _ s (next output) s' (by rw [advance, hstep]; rfl) (ih output hnext)
  | race first second ihf ihs => exact back _ s first s rfl (ihf h.1)
  | undefined => exact h.elim

end Rules

/-- What is shown of a client on an abstract machine holds on a machine that refines it. -/
theorem wp_of_refines {step : σ → ι → Option (ω × σ)} {abstract : τ → ι → Option (ω × τ)}
    {R : σ → τ → Prop}
    (refines : ∀ s t input output t', R s t → abstract t input = some (output, t') →
      ∃ s', step s input = some (output, s') ∧ R s' t')
    {c : Client ι ω α} {Q : α → τ → Prop} {s : σ} {t : τ} (related : R s t)
    (h : c.wp abstract Q t) : c.wp step (fun value s' => ∃ t', R s' t' ∧ Q value t') s := by
  induction c generalizing s t with
  | done value => exact ⟨t, related, h⟩
  | call input next ih =>
    obtain ⟨output, t', habstract, hnext⟩ := h
    obtain ⟨s', hstep, hrelated⟩ := refines s t input output t' related habstract
    exact ⟨output, s', hstep, ih output hrelated hnext⟩
  | race first second ihf ihs => exact ⟨ihf related h.1, ihs related h.2⟩
  | undefined => exact h.elim

end Client

end MeshNoc.Lib
