import Mathlib.Data.Int.ModEq
import Mathlib.Logic.Function.Basic

/-!
# Ring buffers

A ring of `n` slots with the slot of its first entry and the number of its entries. The
entries are the slots from the head on, around the ring; what the other slots hold does not
matter. Pushing appends an entry to the list of entries, popping takes the first one off.
-/

namespace MeshNoc.Lib

/-- A ring of `n` slots of which `count`, from `head` on, are in use. -/
structure RingBuffer (α : Type*) (n : ℕ) where
  slots : Fin n → α
  head : Fin n
  count : ℕ
  count_le : count ≤ n

namespace RingBuffer

variable {α : Type*} {n : ℕ} (r : RingBuffer α n)

/-- The `i`-th slot from the head on. -/
def index (i : ℕ) : Fin n := ⟨(r.head + i) % n, Nat.mod_lt _ r.head.pos⟩

/-- The entries in their order. -/
def contents : List α := (List.range r.count).map fun i => r.slots (r.index i)

/-- The ring with an entry more, in the slot behind the last one. -/
def push (room : r.count < n) (a : α) : RingBuffer α n where
  slots := Function.update r.slots (r.index r.count) a
  head := r.head
  count := r.count + 1
  count_le := room

/-- The ring without its first entry, which stays in its slot. -/
def pop : RingBuffer α n where
  slots := r.slots
  head := r.index 1
  count := r.count - 1
  count_le := (Nat.sub_le _ _).trans r.count_le

theorem index_zero : r.index 0 = r.head := Fin.ext (Nat.mod_eq_of_lt r.head.isLt)

/-- Within one turn around the ring no slot comes twice. -/
theorem index_inj {i j : ℕ} (hi : i < n) (hj : j < n) (same : r.index i = r.index j) : i = j := by
  have hmod : Nat.ModEq n (r.head + i) (r.head + j) := congrArg Fin.val same
  exact (Nat.ModEq.add_left_cancel' _ hmod).eq_of_lt_of_lt hi hj

theorem index_pop (i : ℕ) : r.pop.index i = r.index (i + 1) := by
  refine Fin.ext ?_
  change ((r.head + 1) % n + i) % n = (r.head + (i + 1)) % n
  rw [Nat.mod_add_mod, Nat.add_assoc, Nat.add_comm 1 i]

theorem contents_push (room : r.count < n) (a : α) :
    (r.push room a).contents = r.contents ++ [a] := by
  have hold : ∀ i ∈ List.range r.count,
      Function.update r.slots (r.index r.count) a (r.index i) = r.slots (r.index i) := by
    intro i hi
    have hlt : i < r.count := List.mem_range.mp hi
    exact Function.update_of_ne (fun h => hlt.ne (r.index_inj (hlt.trans room) room h)) _ _
  have hnew : Function.update r.slots (r.index r.count) a (r.index r.count) = a :=
    Function.update_self _ _ _
  change (List.range (r.count + 1)).map
    (fun i => Function.update r.slots (r.index r.count) a (r.index i)) = _
  rw [List.range_succ, List.map_append, List.map_congr_left hold, List.map_singleton, hnew]
  rfl

theorem contents_pop (nonempty : 0 < r.count) :
    r.contents = r.slots r.head :: r.pop.contents := by
  obtain ⟨k, hk⟩ : ∃ k, r.count = k + 1 := ⟨r.count - 1, by omega⟩
  have hcount : r.pop.count = k := by
    change r.count - 1 = k
    omega
  unfold contents
  rw [hk, hcount, List.range_succ_eq_map, List.map_cons, List.map_map, index_zero]
  congr 1
  refine List.map_congr_left fun i _ => ?_
  rw [index_pop]
  rfl

end RingBuffer

end MeshNoc.Lib
