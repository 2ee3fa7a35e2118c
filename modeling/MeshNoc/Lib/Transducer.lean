import Mathlib.Data.List.Basic
import Mathlib.Data.List.Induction

/-!
# Deterministic machines and the flags of their states

A transducer answers each input with an output and a next state. Its run over a list
of inputs has a final state and a trace of input-output events.

A *flag* of such a machine is a state predicate that some events raise and some take
down. When every rise is witnessed by a `put` event and every `take` event finds the
flag up and leaves it down, no run takes the flag more often than it puts it, and a
flag that is up after a run was put by an event that no later event took back. The
flag may still be dropped without any `take`: that loses a put, it never invents one.
-/

namespace MeshNoc.Lib

section Run

variable {σ ι ω : Type*} (step : σ → ι → ω × σ)

/-- The state after a list of inputs. -/
def runState (s : σ) : List ι → σ
  | [] => s
  | i :: rest => runState (step s i).2 rest

/-- The inputs of a run with the outputs they were answered with. -/
def runTrace (s : σ) : List ι → List (ι × ω)
  | [] => []
  | i :: rest => (i, (step s i).1) :: runTrace (step s i).2 rest

@[simp] theorem runState_nil (s : σ) : runState step s [] = s := rfl

@[simp] theorem runState_cons (s : σ) (i : ι) (rest : List ι) :
    runState step s (i :: rest) = runState step (step s i).2 rest := rfl

@[simp] theorem runTrace_nil (s : σ) : runTrace step s [] = [] := rfl

@[simp] theorem runTrace_cons (s : σ) (i : ι) (rest : List ι) :
    runTrace step s (i :: rest) = (i, (step s i).1) :: runTrace step (step s i).2 rest := rfl

theorem runState_append (s : σ) (first second : List ι) :
    runState step s (first ++ second) = runState step (runState step s first) second := by
  induction first generalizing s with
  | nil => rfl
  | cons i rest ih => exact ih _

theorem runTrace_append (s : σ) (first second : List ι) :
    runTrace step s (first ++ second) =
      runTrace step s first ++ runTrace step (runState step s first) second := by
  induction first generalizing s with
  | nil => rfl
  | cons i rest ih => simp [ih]

end Run

/-- A state predicate with the events that raise it and the events that take it. -/
structure Flag {σ ι ω : Type*} (step : σ → ι → ω × σ) where
  /-- The flag is up. -/
  up : σ → Bool
  /-- Events allowed to raise the flag. -/
  put : ι × ω → Bool
  /-- Events that consume the flag. -/
  take : ι × ω → Bool
  raised : ∀ s i, up s = false → up (step s i).2 = true → put (i, (step s i).1) = true
  take_up : ∀ s i, take (i, (step s i).1) = true → up s = true
  take_down : ∀ s i, take (i, (step s i).1) = true → up (step s i).2 = false

namespace Flag

variable {σ ι ω : Type*} {step : σ → ι → ω × σ} (flag : Flag step)

/-- A run takes the flag at most as often as it puts it, counting an initially raised
flag as put and a finally raised one as still to be taken. -/
theorem countP_take_le (s : σ) (inputs : List ι) :
    (runTrace step s inputs).countP flag.take + (flag.up (runState step s inputs)).toNat ≤
      (runTrace step s inputs).countP flag.put + (flag.up s).toNat := by
  induction inputs generalizing s with
  | nil => simp
  | cons i rest ih =>
    have tail := ih (step s i).2
    have hraised := flag.raised s i
    simp only [runTrace_cons, runState_cons, List.countP_cons]
    -- a take brings the flag down; any other event raises it only as a put
    cases htake : flag.take (i, (step s i).1) with
    | true =>
      rw [flag.take_down s i htake, Bool.toNat_false] at tail
      rw [flag.take_up s i htake, Bool.toNat_true, if_pos rfl]
      omega
    | false =>
      cases hup : flag.up s <;> cases hnext : flag.up (step s i).2 <;>
        simp_all <;> omega

/-- A flag that a run leaves up, and found down, was put by an event of the run that
no later event took back. -/
theorem exists_put {s : σ} (down : flag.up s = false) {inputs : List ι}
    (finally_up : flag.up (runState step s inputs) = true) :
    ∃ earlier i later, inputs = earlier ++ i :: later ∧
      flag.put (i, (step (runState step s earlier) i).1) = true ∧
      ∀ e ∈ runTrace step (runState step s (earlier ++ [i])) later, flag.take e = false := by
  -- from the end of the run: either the last event raised the flag, or it was up before
  -- and the last event did not take it
  induction inputs using List.reverseRecOn with
  | nil => exact absurd finally_up (by simp [down])
  | append_singleton inputs last ih =>
    rw [runState_append] at finally_up
    cases hbefore : flag.up (runState step s inputs) with
    | true =>
      obtain ⟨earlier, i, later, hsplit, hput, huntaken⟩ := ih hbefore
      refine ⟨earlier, i, later ++ [last], by simp [hsplit], hput, ?_⟩
      have hstate : runState step (runState step s (earlier ++ [i])) later =
          runState step s inputs := by
        rw [← runState_append, hsplit]
        simp
      intro e he
      rw [runTrace_append, List.mem_append, hstate] at he
      rcases he with he | he
      · exact huntaken e he
      · obtain rfl : e = (last, (step (runState step s inputs) last).1) := by simpa using he
        by_contra htake
        rw [Bool.not_eq_false] at htake
        have hdown := flag.take_down _ _ htake
        rw [runState_cons, runState_nil, hdown] at finally_up
        exact Bool.false_ne_true finally_up
    | false => exact ⟨inputs, last, [], rfl, flag.raised _ _ hbefore finally_up, by simp⟩

end Flag

end MeshNoc.Lib
