import MeshNoc.HalTests.Transfers
import MeshNoc.Lib.Refinement

/-!
# Independent transfers

Each transfer is one step under the mutex of the HAL. When no transfer of a list writes to
a range that another one reads or writes, the order of the list does not matter: memory
ends the same, and every transfer gets the same answer.

## Main results

* `Transfer.run_eq` — a run is the composition of its copies
* `independent_transfers_commute` — permuting independent transfers changes nothing
-/

namespace MeshNoc

open Lib

namespace Transfer

variable {t u : Transfer} {st : HalSystem} {ts us : List Transfer}

/-- One step: the transfer, under the mutex. -/
def exec (st : HalSystem) (t : Transfer) : Option (HalAnswer × HalSystem) := t.call.exec st

/-- The destination range of neither transfer meets a range of the other. -/
structure Independent (t u : Transfer) : Prop where
  dst_dst : ¬ RangesMeet t.dstAddr t.size u.dstAddr u.size
  dst_src : ¬ RangesMeet t.dstAddr t.size u.srcAddr u.size
  src_dst : ¬ RangesMeet t.srcAddr t.size u.dstAddr u.size

instance (t u : Transfer) : Decidable (Independent t u) :=
  decidable_of_iff (¬ RangesMeet t.dstAddr t.size u.dstAddr u.size ∧
    ¬ RangesMeet t.dstAddr t.size u.srcAddr u.size ∧
      ¬ RangesMeet t.srcAddr t.size u.dstAddr u.size)
    ⟨fun h => ⟨h.1, h.2.1, h.2.2⟩, fun h => ⟨h.dst_dst, h.dst_src, h.src_dst⟩⟩

/-- Ranges that do not meet are apart in memory, as far as they are copied. -/
theorem apart_of_not_meet {a n b k : Addr} {x y : ℕ} (ha : InRegion a n) (hb : InRegion b k)
    (hx : x ≤ n.toNat) (hy : y ≤ k.toNat) (separate : ¬ RangesMeet a n b k) :
    (addrToPtr platformAfterSetup a).Apart x (addrToPtr platformAfterSetup b) y := by
  -- an empty range is apart from every other
  by_cases hn : n = 0
  · subst hn
    obtain rfl : x = 0 := Nat.le_zero.mp hx
    exact fun i hi => absurd hi (Nat.not_lt_zero i)
  by_cases hk : k = 0
  · subst hk
    obtain rfl : y = 0 := Nat.le_zero.mp hy
    exact fun i _ j hj => absurd hj (Nat.not_lt_zero j)
  obtain ⟨r, hr⟩ := ha.contains hn
  obtain ⟨s, hs⟩ := hb.contains hk
  rw [hr.addrToPtr_eq, hs.addrToPtr_eq]
  have hpos : 0 < n.toNat ∧ 0 < k.toNat := by bv_omega
  unfold RangesMeet at separate
  exact (hr.2.apart hs.2 (by omega)).mono hx hy

/-- The copies of independent transfers are independent. -/
theorem Independent.copies (independent : Independent t u) (ht : t.InRegions)
    (hu : u.InRegions) : t.copy.Independent u.copy where
  dst_dst := apart_of_not_meet ht.dst hu.dst t.length_le u.length_le independent.dst_dst
  dst_src := apart_of_not_meet ht.dst hu.src t.length_le u.length_le independent.dst_src
  src_dst := apart_of_not_meet ht.src hu.dst t.length_le u.length_le independent.src_dst

/-- A run of transfers of which none copies onto itself is defined: the answers depend on
the transfers only, and memory is that behind all the copies. -/
theorem run_eq (ready : HalReady st) (inside : ∀ t ∈ ts, t.InRegions)
    (apart : ∀ t ∈ ts, ¬ t.CopiesOntoItself) : ∃ st', HalReady st' ∧
      st'.mem = ts.foldl (fun m t => Copy.apply m t.copy) st.mem ∧
        tryRun exec st ts = some (ts.map answer, st') := by
  induction ts generalizing st with
  | nil => exact ⟨st, ready, rfl, rfl⟩
  | cons t ts ih =>
    obtain ⟨noc, hfree, hfirst⟩ :=
      exec_eq ready (inside t List.mem_cons_self) (apart t List.mem_cons_self)
    obtain ⟨st', hready, hmem, hrest⟩ := ih (ready_returned ready hfree _)
      (fun u hu => inside u (List.mem_cons_of_mem t hu))
      (fun u hu => apart u (List.mem_cons_of_mem t hu))
    exact ⟨st', hready, hmem, tryRun_cons hfirst hrest⟩

/-- With a transfer that copies onto itself the run is undefined. -/
theorem run_eq_none (ready : HalReady st) (inside : ∀ t ∈ ts, t.InRegions)
    (onto : ∃ t ∈ ts, t.CopiesOntoItself) : tryRun exec st ts = none := by
  -- by induction: such a transfer is the first of the list or comes later
  induction ts generalizing st with
  | nil => simp at onto
  | cons t ts ih =>
    simp only [tryRun, Option.bind_eq_bind]
    by_cases hfirst : t.CopiesOntoItself
    · rw [exec, exec_eq_none ready (inside t List.mem_cons_self) hfirst, Option.bind_none]
    · obtain ⟨noc, hfree, hexec⟩ := exec_eq ready (inside t List.mem_cons_self) hfirst
      have hlater : ∃ u ∈ ts, u.CopiesOntoItself := by
        obtain ⟨u, hu, h⟩ := onto
        obtain rfl | hu := List.mem_cons.mp hu
        · exact absurd h hfirst
        · exact ⟨u, hu, h⟩
      have hrest := ih (ready_returned ready hfree (Copy.apply st.mem t.copy))
        (fun u hu => inside u (List.mem_cons_of_mem t hu)) hlater
      rw [exec, hexec, Option.bind_some, hrest, Option.bind_none]

theorem run_eq_none_iff (ready : HalReady st) (inside : ∀ t ∈ ts, t.InRegions) :
    tryRun exec st ts = none ↔ ∃ t ∈ ts, t.CopiesOntoItself := by
  refine ⟨fun hnone => ?_, run_eq_none ready inside⟩
  by_contra hall
  obtain ⟨st', -, -, hrun⟩ := run_eq ready inside fun t ht h => hall ⟨t, ht, h⟩
  rw [hrun] at hnone
  simp at hnone

/-- Executing transfers of which no destination range meets a range of another one in a
permuted order leaves the same memory and gives every transfer the same answer. The order
decides nothing about definedness either: a run is undefined exactly when one of its
transfers between DMEM modules copies onto itself. -/
theorem independent_transfers_commute (ready : HalReady st) (inside : ∀ t ∈ ts, t.InRegions)
    (independent : ts.Pairwise Independent) (perm : ts.Perm us) :
    (tryRun exec st ts = none ↔ ∃ t ∈ ts, t.CopiesOntoItself) ∧
      (tryRun exec st us = none ↔ tryRun exec st ts = none) ∧
        ∀ answers st₁ answers' st₂, tryRun exec st ts = some (answers, st₁) →
          tryRun exec st us = some (answers', st₂) → st₂.mem = st₁.mem ∧
            ∃ result : Transfer → HalAnswer,
              answers = ts.map result ∧ answers' = us.map result := by
  have hinside : ∀ t ∈ us, t.InRegions := fun t ht => inside t (perm.mem_iff.mpr ht)
  have hfirst := run_eq_none_iff ready inside
  have hsecond : tryRun exec st us = none ↔ tryRun exec st ts = none := by
    rw [hfirst, run_eq_none_iff ready hinside]
    simp only [perm.mem_iff]
  refine ⟨hfirst, hsecond, fun answers st₁ answers' st₂ hran hran' => ?_⟩
  have hapart : ∀ t ∈ ts, ¬ t.CopiesOntoItself := by
    intro t ht honto
    rw [hfirst.mpr ⟨t, ht, honto⟩] at hran
    simp at hran
  obtain ⟨st₁', -, hmem, hrun⟩ := run_eq ready inside hapart
  obtain ⟨st₂', -, hmem', hrun'⟩ :=
    run_eq ready hinside fun t ht => hapart t (perm.mem_iff.mpr ht)
  obtain ⟨rfl, rfl⟩ := Prod.mk.inj (Option.some.inj (hran.symm.trans hrun))
  obtain ⟨rfl, rfl⟩ := Prod.mk.inj (Option.some.inj (hran'.symm.trans hrun'))
  -- the two compositions of copies are one, as the copies commute
  have hcopies : ts.Pairwise fun t u => t.copy.Independent u.copy :=
    independent.imp_of_mem fun ht hu h => h.copies (inside _ ht) (inside _ hu)
  refine ⟨?_, answer, rfl, rfl⟩
  rw [hmem, hmem', Copy.applyAll_perm hcopies perm]

/-- A move within tile 0 and a remote transfer from tile 1. -/
def movePair : List Transfer :=
  [⟨.cpuLocalMove, 0x0, 0x100, 16⟩, ⟨.dmaRemoteTransfer, 0x108000, 0x10000000, 64⟩]

/-- Both orders are defined, and leave the same memory. -/
theorem independent_transfers_commute_pair : ∃ st answers st₁ answers' st₂, HalReady st ∧
    tryRun exec st movePair = some (answers, st₁) ∧
      tryRun exec st movePair.reverse = some (answers', st₂) ∧ st₂.mem = st₁.mem := by
  have ready := halReady_afterSetup platformSetup_eq
  have hinside : ∀ t ∈ movePair, t.InRegions := by
    simp only [movePair, List.mem_cons, List.not_mem_nil, or_false, forall_eq_or_imp, forall_eq]
    exact ⟨⟨⟨.dlm64 0, by decide⟩, ⟨.dlm64 0, by decide⟩⟩,
      ⟨⟨.dlm1_512 1, by decide⟩, ⟨.dmem 0, by decide⟩⟩⟩
  have hperm : movePair.Perm movePair.reverse := (List.reverse_perm _).symm
  obtain ⟨hfirst, hsecond, hsame⟩ :=
    independent_transfers_commute ready hinside (by decide) hperm
  have honto : ¬ ∃ t ∈ movePair, t.CopiesOntoItself := by
    simp [movePair, CopiesOntoItself]
  obtain ⟨⟨answers, st₁⟩, hran⟩ := Option.ne_none_iff_exists'.mp fun h => honto (hfirst.mp h)
  obtain ⟨⟨answers', st₂⟩, hran'⟩ :=
    Option.ne_none_iff_exists'.mp fun h => honto (hfirst.mp (hsecond.mp h))
  exact ⟨_, answers, st₁, answers', st₂, ready, hran, hran',
    (hsame answers st₁ answers' st₂ hran hran').1⟩

end Transfer

end MeshNoc
