import Mathlib.Data.List.Nodup
import Mathlib.Data.List.Perm.Subperm

/-!
# Handing items out

Items are assigned to owners and later given to them. `chosen` and `given` are what has
happened so far, `pending` the assignments still to be honoured. When every item is
assigned once and only pending assignments are given, each item is given once, to its
owner, and an assigned item is pending until it is given.
-/

namespace MeshNoc.Lib

variable {ι τ : Type*} {chosen given : List (ι × τ)} {pending : ι → τ → Prop} {i : ι} {t u : τ}

/-- The assignments that are pending are those chosen and not yet given. -/
structure Handout (chosen given : List (ι × τ)) (pending : ι → τ → Prop) : Prop where
  chosen_once : (chosen.map Prod.fst).Nodup
  given_once : (given.map Prod.fst).Nodup
  given_chosen : ∀ a ∈ given, a ∈ chosen
  pending_iff : ∀ i t, pending i t ↔ (i, t) ∈ chosen ∧ i ∉ given.map Prod.fst

namespace Handout

theorem empty (none : ∀ i t, ¬ pending i t) : Handout [] [] pending where
  chosen_once := List.nodup_nil
  given_once := List.nodup_nil
  given_chosen _ h := h
  pending_iff i t := by simp [none i t]

/-- An item has one owner. -/
theorem owner_unique (h : Handout chosen given pending) (ht : (i, t) ∈ chosen)
    (hu : (i, u) ∈ chosen) : t = u :=
  (Prod.mk.inj (List.inj_on_of_nodup_map h.chosen_once ht hu rfl)).2

theorem mem_chosen (h : Handout chosen given pending) (hp : pending i t) : (i, t) ∈ chosen :=
  ((h.pending_iff i t).mp hp).1

theorem not_given (h : Handout chosen given pending) (hp : pending i t) :
    i ∉ given.map Prod.fst := ((h.pending_iff i t).mp hp).2

/-- Only the pending assignments matter. -/
theorem congr (h : Handout chosen given pending) {pending' : ι → τ → Prop}
    (same : ∀ i t, pending' i t ↔ pending i t) : Handout chosen given pending' :=
  { h with pending_iff := fun i t => (same i t).trans (h.pending_iff i t) }

/-- Assigning an item for the first time. -/
theorem choose (h : Handout chosen given pending) (fresh : i ∉ chosen.map Prod.fst)
    {pending' : ι → τ → Prop} (pends : ∀ j u, pending' j u ↔ (j = i ∧ u = t) ∨ pending j u) :
    Handout ((i, t) :: chosen) given pending' where
  chosen_once := List.nodup_cons.mpr ⟨fresh, h.chosen_once⟩
  given_once := h.given_once
  given_chosen a ha := List.mem_cons_of_mem _ (h.given_chosen a ha)
  pending_iff j u := by
    -- an item not yet assigned cannot have been given
    have hgiven : i ∉ given.map Prod.fst := by
      intro hi
      obtain ⟨a, ha, rfl⟩ := List.mem_map.mp hi
      exact fresh (List.mem_map_of_mem (h.given_chosen a ha))
    rw [pends, h.pending_iff, List.mem_cons, Prod.mk.injEq]
    constructor
    · rintro (⟨rfl, rfl⟩ | ⟨hchosen, hnot⟩)
      · exact ⟨Or.inl ⟨rfl, rfl⟩, hgiven⟩
      · exact ⟨Or.inr hchosen, hnot⟩
    · rintro ⟨⟨rfl, rfl⟩ | hchosen, hnot⟩
      · exact Or.inl ⟨rfl, rfl⟩
      · exact Or.inr ⟨hchosen, hnot⟩

/-- Giving a pending item to its owner. -/
theorem give (h : Handout chosen given pending) (hp : pending i t)
    {pending' : ι → τ → Prop} (pends : ∀ j u, pending' j u ↔ pending j u ∧ j ≠ i) :
    Handout chosen ((i, t) :: given) pending' where
  chosen_once := h.chosen_once
  given_once := List.nodup_cons.mpr ⟨h.not_given hp, h.given_once⟩
  given_chosen a ha := by
    rcases List.mem_cons.mp ha with rfl | ha
    · exact h.mem_chosen hp
    · exact h.given_chosen a ha
  pending_iff j u := by
    rw [pends, h.pending_iff, List.map_cons, List.mem_cons, not_or]
    exact ⟨fun ⟨⟨hc, hg⟩, hne⟩ => ⟨hc, hne, hg⟩, fun ⟨hc, hne, hg⟩ => ⟨⟨hc, hg⟩, hne⟩⟩

theorem given_subperm (h : Handout chosen given pending) :
    (given.map Prod.fst).Subperm (chosen.map Prod.fst) :=
  List.subperm_of_subset h.given_once (List.map_subset _ h.given_chosen)

theorem length_le (h : Handout chosen given pending) : given.length ≤ chosen.length := by
  simpa using h.given_subperm.length_le

/-- As many items are given as chosen exactly if all are. -/
theorem length_eq_iff (h : Handout chosen given pending) :
    given.length = chosen.length ↔ ∀ a ∈ chosen, a.1 ∈ given.map Prod.fst := by
  constructor
  · intro same a ha
    have hperm := h.given_subperm.perm_of_length_le (by simp [same])
    exact hperm.mem_iff.mpr (List.mem_map_of_mem ha)
  · intro all
    refine Nat.le_antisymm h.length_le ?_
    have hsub : chosen.map Prod.fst ⊆ given.map Prod.fst := by
      intro i hi
      obtain ⟨a, ha, rfl⟩ := List.mem_map.mp hi
      exact all a ha
    simpa using (List.subperm_of_subset h.chosen_once hsub).length_le

end Handout

/-- Of items without repetition, those that are not done and those that are. -/
theorem length_filter_notMem_add [DecidableEq ι] {items done : List ι} (items_once : items.Nodup)
    (done_once : done.Nodup) (sub : done ⊆ items) :
    (items.filter fun i => i ∉ done).length + done.length = items.length := by
  have hperm : (items.filter fun i => i ∈ done).Perm done :=
    (List.perm_ext_iff_of_nodup (items_once.filter _) done_once).mpr fun i => by
      rw [List.mem_filter]
      simpa using fun hi => sub hi
  rw [← hperm.length_eq, Nat.add_comm]
  simpa using (List.length_eq_length_filter_add (l := items) fun i => decide (i ∈ done)).symm

end MeshNoc.Lib
