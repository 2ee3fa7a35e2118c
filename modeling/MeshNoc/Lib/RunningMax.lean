import Mathlib.Data.List.MinMax
import Mathlib.Data.List.Sort

/-!
# Running-maximum scans

A scan over a list that keeps the best candidate so far, replacing it only by an
accepted element of strictly greater key, computes the first accepted element of
maximal key. Over an increasing list, "first" means "least".
-/

namespace MeshNoc.Lib

section Scan

variable {α κ : Type*} [LinearOrder κ] (accept : α → Bool) (key : α → κ)

/-- One step of the scan: the best candidate so far with its key. -/
def scanStep (best : α × κ) (a : α) : α × κ :=
  if accept a ∧ best.2 < key a then (a, key a) else best

/-- A scan started from a bottom key finds the first accepted element of maximal
key, or keeps its start when nothing is accepted. -/
theorem foldl_scanStep (start : α × κ) (l : List α)
    (above : ∀ a ∈ l, accept a → start.2 < key a) :
    l.foldl (scanStep accept key) start =
      match (l.filter accept).argmax key with
      | none => start
      | some a => (a, key a) := by
  induction l using List.reverseRecOn with
  | nil => rfl
  | append_singleton l a ih =>
    have hl := ih fun b hb => above b (List.mem_append_left _ hb)
    rw [List.foldl_append, List.foldl_cons, List.foldl_nil, hl, List.filter_append]
    cases hacc : accept a with
    | false => simp [scanStep, hacc]
    | true =>
      -- an accepted element beats the start; a later one has to exceed the maximum so far
      have habove := above a (by simp) hacc
      rw [List.filter_cons_of_pos hacc, List.filter_nil, List.argmax_concat]
      cases hmax : (l.filter accept).argmax key with
      | none => simp [scanStep, hacc, habove]
      | some m => by_cases hlt : key m < key a <;> simp [scanStep, hacc, hlt]

end Scan

section Least

variable {α κ : Type*} [LinearOrder α] [LinearOrder κ] {key : α → κ} {l : List α} {m : α}

theorem idxOf_le_idxOf_iff (increasing : l.Pairwise (· < ·)) {a b : α} (ha : a ∈ l)
    (hb : b ∈ l) : l.idxOf a ≤ l.idxOf b ↔ a ≤ b := by
  induction l with
  | nil => simp at ha
  | cons c l ih =>
    obtain ⟨hc, htail⟩ := List.pairwise_cons.mp increasing
    -- the head is below everything behind it
    rcases List.mem_cons.mp ha with rfl | ha'
    · rcases List.mem_cons.mp hb with rfl | hb'
      · simp
      · simp [(hc b hb').le]
    · have hca := hc a ha'
      rcases List.mem_cons.mp hb with rfl | hb'
      · simp [List.idxOf_cons_ne _ hca.ne, not_le.mpr hca]
      · rw [List.idxOf_cons_ne _ hca.ne, List.idxOf_cons_ne _ (hc b hb').ne,
          Nat.succ_le_succ_iff]
        exact ih htail ha' hb'

/-- Over an increasing list the first maximum is the least of the maximal elements. -/
theorem mem_argmax_iff_of_increasing (increasing : l.Pairwise (· < ·)) :
    m ∈ l.argmax key ↔
      m ∈ l ∧ (∀ a ∈ l, key a ≤ key m) ∧ ∀ a ∈ l, key a = key m → m ≤ a := by
  rw [List.mem_argmax_iff]
  constructor
  · rintro ⟨hm, hmax, hfirst⟩
    exact ⟨hm, hmax, fun a ha heq =>
      (idxOf_le_idxOf_iff increasing hm ha).mp (hfirst a ha heq.ge)⟩
  · rintro ⟨hm, hmax, hleast⟩
    exact ⟨hm, hmax, fun a ha hge =>
      (idxOf_le_idxOf_iff increasing hm ha).mpr (hleast a ha (le_antisymm (hmax a ha) hge))⟩

end Least

end MeshNoc.Lib
