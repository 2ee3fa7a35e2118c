import Mathlib.Data.List.Basic
import Mathlib.Data.List.Induction

/-!
# Histories of addressed writes

A machine whose operations are each addressed to one of its registers, and meant to give
that register a value. When every operation of a run writes its own register and leaves
the others alone, each register ends with the value of the last operation addressed to it,
or with what it held before.

## Main results

* `lastWrite_eq_some_iff`, `lastWrite_eq_none_iff` — the last write, as a split of the
  history
* `read_foldl` — a run of writes that keep to their registers
* `read_foldl_of_frame` — a run that is known to keep to its registers only outside one
-/

namespace MeshNoc.Lib

variable {σ ο ι β : Type*} [DecidableEq ι] {key : ο → ι} {value : ο → β}

/-- The value of the last operation addressed to `i`, if there is one. -/
def lastWrite (key : ο → ι) (value : ο → β) (ops : List ο) (i : ι) : Option β :=
  ((ops.filter fun op => key op = i).getLast?).map value

@[simp] theorem lastWrite_nil (i : ι) : lastWrite key value [] i = none := rfl

theorem lastWrite_concat (ops : List ο) (op : ο) (i : ι) :
    lastWrite key value (ops ++ [op]) i =
      if key op = i then some (value op) else lastWrite key value ops i := by
  unfold lastWrite
  by_cases h : key op = i <;> simp [h]

theorem lastWrite_append_of_ne (ops : List ο) {later : List ο} {i : ι}
    (others : ∀ op ∈ later, key op ≠ i) :
    lastWrite key value (ops ++ later) i = lastWrite key value ops i := by
  have hnone : later.filter (fun op => key op = i) = [] :=
    List.filter_eq_nil_iff.mpr fun op hop => by simpa using others op hop
  rw [lastWrite, List.filter_append, hnone, List.append_nil, lastWrite]

theorem lastWrite_eq_none_iff {ops : List ο} {i : ι} :
    lastWrite key value ops i = none ↔ ∀ op ∈ ops, key op ≠ i := by
  simp [lastWrite]

/-- A write is the last one to `i` when the operations behind it are addressed elsewhere. -/
theorem lastWrite_eq_some_iff {ops : List ο} {i : ι} {v : β} :
    lastWrite key value ops i = some v ↔ ∃ earlier op later, ops = earlier ++ op :: later ∧
      key op = i ∧ value op = v ∧ ∀ op' ∈ later, key op' ≠ i := by
  constructor
  · intro hlast
    induction ops using List.reverseRecOn with
    | nil => simp at hlast
    | append_singleton ops op ih =>
      rw [lastWrite_concat] at hlast
      split_ifs at hlast with hkey
      · exact ⟨ops, op, [], rfl, hkey, Option.some.inj hlast, by simp⟩
      · obtain ⟨earlier, op', later, rfl, hkey', hvalue, hothers⟩ := ih hlast
        refine ⟨earlier, op', later ++ [op], by simp, hkey', hvalue, fun o ho => ?_⟩
        rcases List.mem_append.mp ho with ho | ho
        · exact hothers o ho
        · rw [List.mem_singleton.mp ho]
          exact hkey
  · rintro ⟨earlier, op, later, rfl, hkey, rfl, hothers⟩
    rw [List.append_cons, lastWrite_append_of_ne _ hothers, lastWrite_concat, if_pos hkey]

section Run

variable {exec : σ → ο → σ} {read : σ → ι → β}

/-- Each step of the run writes its own register and no other. -/
theorem read_foldl {s : σ} {ops : List ο}
    (own : ∀ earlier op, earlier ++ [op] <+: ops →
      read (exec (earlier.foldl exec s) op) (key op) = value op)
    (frame : ∀ earlier op, earlier ++ [op] <+: ops → ∀ i, i ≠ key op →
      read (exec (earlier.foldl exec s) op) i = read (earlier.foldl exec s) i) (i : ι) :
    read (ops.foldl exec s) i = (lastWrite key value ops i).getD (read s i) := by
  induction ops using List.reverseRecOn with
  | nil => rfl
  | append_singleton ops op ih =>
    have hlonger : ∀ earlier op', earlier ++ [op'] <+: ops → earlier ++ [op'] <+: ops ++ [op] :=
      fun _ _ h => h.trans (List.prefix_append _ _)
    have ih := ih (fun earlier op' h => own earlier op' (hlonger _ _ h))
      fun earlier op' h => frame earlier op' (hlonger _ _ h)
    rw [List.foldl_append, List.foldl_cons, List.foldl_nil, lastWrite_concat]
    split_ifs with hkey
    · rw [← hkey, own ops op (List.prefix_refl _), Option.getD_some]
    · rw [frame ops op (List.prefix_refl _) i (Ne.symm hkey), ih]

omit [DecidableEq ι] in
/-- Operations addressed elsewhere leave a register as it was. -/
theorem read_foldl_of_frame (frame : ∀ s op, ∀ i, i ≠ key op → read (exec s op) i = read s i)
    {s : σ} {ops : List ο} {i : ι} (others : ∀ op ∈ ops, key op ≠ i) :
    read (ops.foldl exec s) i = read s i := by
  induction ops generalizing s with
  | nil => rfl
  | cons op rest ih =>
    rw [List.foldl_cons, ih fun op' h => others op' (List.mem_cons_of_mem _ h),
      frame s op i (others op List.mem_cons_self).symm]

end Run

end MeshNoc.Lib
