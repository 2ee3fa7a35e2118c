import MeshNoc.Lib.Client

/-!
# Clients one at a time

Threads that run clients of one machine under one lock, each holding the lock from before
its first call until after its last one. While a client is in progress the machine is in
whatever state its calls have left it in; between sessions an invariant of the machine
holds, and every client that was verified from the invariant ends as it would alone.

## Main results

* `Session.Good.enter`, `Session.Good.advance`, `Session.Good.leave` — what each step keeps
-/

namespace MeshNoc.Lib

universe u

/-- The machine's state, and the client of the thread that holds the lock; `θ` says whose
client it is. -/
structure Session (θ ι ω : Type*) (α : Type u) (σ : Type*) where
  holder : Option (θ × Client ι ω α)
  shared : σ

namespace Session

variable {θ ι ω σ : Type*} {α : Type u} (step : σ → ι → Option (ω × σ))

/-- Take the lock for a client; a thread that finds it taken stays where it is. -/
def enter (x : Session θ ι ω α σ) (t : θ) (c : Client ι ω α) : Session θ ι ω α σ :=
  match x.holder with
  | none => { x with holder := some (t, c) }
  | some _ => x

/-- The next step of the client that is in progress. -/
def advance (x : Session θ ι ω α σ) (first : Bool) : Session θ ι ω α σ :=
  match x.holder with
  | none => x
  | some (t, c) =>
    match c.advance step first x.shared with
    | none => x
    | some (c', s') => ⟨some (t, c'), s'⟩

/-- Give the lock back. -/
def leave (x : Session θ ι ω α σ) : Session θ ι ω α σ := { x with holder := none }

/-- The value of a client that has come to its end. -/
def ended (x : Session θ ι ω α σ) : Option (θ × α) :=
  match x.holder with
  | some (t, .done value) => some (t, value)
  | _ => none

/-- The invariant holds, or a client is in progress that ends with it and with a value that
is right for its thread. -/
def Good (I : σ → Prop) (post : θ → α → Prop) (x : Session θ ι ω α σ) : Prop :=
  match x.holder with
  | none => I x.shared
  | some (t, c) => c.wp step (fun value s => post t value ∧ I s) x.shared

variable {step} {I : σ → Prop} {post : θ → α → Prop} {x : Session θ ι ω α σ} {t : θ}
  {c : Client ι ω α} {value : α}

theorem holder_of_ended (ended : x.ended = some (t, value)) :
    x.holder = some (t, .done value) := by
  unfold Session.ended at ended
  split at ended
  · next t' value' holder =>
    obtain ⟨rfl, rfl⟩ := Prod.mk.inj (Option.some.inj ended)
    exact holder
  · exact nomatch ended

theorem enter_of_free (free : x.holder = none) : x.enter t c = ⟨some (t, c), x.shared⟩ := by
  simp only [Session.enter, free]

variable (step) in
theorem advance_cases (held : x.holder = some (t, c)) (first : Bool) :
    x.advance step first = x ∨ ∃ c' s', c.advance step first x.shared = some (c', s') ∧
      x.advance step first = ⟨some (t, c'), s'⟩ := by
  simp only [Session.advance, held]
  cases hstep : c.advance step first x.shared with
  | none => exact Or.inl rfl
  | some out => exact Or.inr ⟨out.1, out.2, rfl, rfl⟩

namespace Good

theorem of_free (free : x.holder = none) (inv : I x.shared) : Good step I post x := by
  rw [Good, free]
  exact inv

theorem invariant (good : Good step I post x) (free : x.holder = none) : I x.shared := by
  rwa [Good, free] at good

theorem wp (good : Good step I post x) (held : x.holder = some (t, c)) :
    c.wp step (fun value s => post t value ∧ I s) x.shared := by
  rwa [Good, held] at good

/-- A client that is verified from the invariant may start. -/
theorem enter (good : Good step I post x)
    (verified : ∀ s, I s → c.wp step (fun value s' => post t value ∧ I s') s) :
    Good step I post (x.enter t c) := by
  cases hheld : x.holder with
  | none =>
    rw [Session.enter_of_free hheld]
    exact verified x.shared (good.invariant hheld)
  | some holder =>
    simp only [Session.enter, hheld]
    exact good

theorem advance (good : Good step I post x) (first : Bool) :
    Good step I post (x.advance step first) := by
  cases hheld : x.holder with
  | none =>
    simp only [Session.advance, hheld]
    exact good
  | some holder =>
    rcases Session.advance_cases step hheld first with hsame | ⟨c', s', hstep, hnext⟩
    · rw [hsame]
      exact good
    · rw [hnext]
      exact Client.wp_advance (good.wp hheld) hstep

/-- A client that has ended has the right value, and leaves the invariant behind. -/
theorem leave (good : Good step I post x) (ended : x.ended = some (t, value)) :
    post t value ∧ Good step I post x.leave := by
  have hend : post t value ∧ I x.shared := good.wp (holder_of_ended ended)
  exact ⟨hend.1, hend.2⟩

end Good

end Session

end MeshNoc.Lib
