import MeshNoc.Interrupt.Setup
import MeshNoc.Lib.LastWrite

/-!
# Histories of priority writes

`PLIC_N_priority_clear` zeroes the register of its source and `PLIC_N_priority_set` ORs the
priority into it. A set leaves the priority it is given when the register holds no bit outside
that priority; otherwise arbitration uses more than was set. What a run leaves of a source is
decided by the last call addressed to it.

## Main results

* `priorityByte_exec` — what one call does to every priority
* `lastPriorityRules_iff` — the runs after which arbitration follows the last priorities
-/

namespace MeshNoc

open Lib

namespace PlicRegDef

variable {obj : PlicRegDef} {s t : ℕ}

/-- The byte of the priority register of a source that arbitration looks at. -/
def priorityByte (obj : PlicRegDef) (source : {s // IsSource s}) : BitVec 8 :=
  (obj.sprioRegs (prioIndex source)).setWidth 8

theorem priority_eq_priorityByte (source : {s // IsSource s}) :
    obj.priority source = (obj.priorityByte source).toNat := by
  unfold priority priorityByte
  rw [BitVec.toNat_and, BitVec.toNat_setWidth]
  exact Nat.and_two_pow_sub_one_eq_mod _ 8

/-! ### The calls -/

/-- A call that sets or clears the priority of a source. -/
inductive PriorityOp
  | nPrioritySet (source : {s // IsSource s}) (priority : BitVec 8)
  | nPriorityClear (source : {s // IsSource s}) (priority : BitVec 8)

namespace PriorityOp

/-- The source a call is addressed to. -/
def source : PriorityOp → {s // IsSource s}
  | nPrioritySet source _ => source
  | nPriorityClear source _ => source

/-- The priority a call is to give its source. -/
def gives : PriorityOp → ℕ
  | nPrioritySet _ priority => priority.toNat
  | nPriorityClear _ _ => 0

/-- The call. -/
def exec (obj : PlicRegDef) : PriorityOp → PlicRegDef
  | nPrioritySet source priority => (obj.nPrioritySet source priority).2
  | nPriorityClear source priority => (obj.nPriorityClear source priority).2

/-- The priority a call leaves, given the one it finds. -/
def leaves (before : BitVec 8) : PriorityOp → BitVec 8
  | nPrioritySet _ priority => before ||| priority
  | nPriorityClear _ _ => 0

end PriorityOp

theorem sprioRegs_nPriorityClear {s' : ℕ} (hs : IsSource s) (hs' : IsSource s')
    (priority : BitVec 8) : (obj.nPriorityClear s priority).2.sprioRegs (prioIndex s') =
      if s' = s then 0 else obj.sprioRegs (prioIndex s') := by
  have := hs.1
  have := hs.2
  rw [nPriorityClear, if_neg (by omega)]
  by_cases h : s' = s
  · subst h
    simp
  · have hindex := mt (prioIndex_eq_iff hs hs').mp h
    simp [h, Function.update_of_ne hindex]

/-- A call changes the priority of its own source and no other. -/
theorem priorityByte_exec (op : PriorityOp) (source : {s // IsSource s}) :
    (op.exec obj).priorityByte source =
      if source = op.source then op.leaves (obj.priorityByte source)
      else obj.priorityByte source := by
  unfold priorityByte
  cases op with
  | nPrioritySet source' priority =>
    rw [PriorityOp.exec, sprioRegs_nPrioritySet source'.property source.property]
    by_cases h : source = source'
    · simp [PriorityOp.source, PriorityOp.leaves, h, BitVec.setWidth_or]
    · have hval : source.val ≠ source'.val := fun heq => h (Subtype.ext heq)
      simp [PriorityOp.source, h, hval]
  | nPriorityClear source' priority =>
    rw [PriorityOp.exec, sprioRegs_nPriorityClear source'.property source.property]
    by_cases h : source = source'
    · simp [PriorityOp.source, PriorityOp.leaves, h]
    · have hval : source.val ≠ source'.val := fun heq => h (Subtype.ext heq)
      simp [PriorityOp.source, h, hval]

theorem priorityByte_exec_of_ne (obj : PlicRegDef) (op : PriorityOp)
    (source : {s // IsSource s}) (hne : source ≠ op.source) :
    (op.exec obj).priorityByte source = obj.priorityByte source := by
  rw [priorityByte_exec, if_neg hne]

/-! ### Runs -/

/-- The priority each source is to have after a run: the one the last call addressed to it
gives, or the one it had. -/
def lastPriority (obj : PlicRegDef) (ops : List PriorityOp) (s : ℕ) : ℕ :=
  if hs : IsSource s then
    (lastWrite PriorityOp.source PriorityOp.gives ops ⟨s, hs⟩).getD (obj.priority s)
  else obj.priority s

/-- After a run of calls from `obj` every source has the priority last given to it, and claims
follow these priorities. -/
structure LastPriorityRules (obj : PlicRegDef) (ops : List PriorityOp) : Prop where
  priority : ∀ s, IsSource s →
    (ops.foldl PriorityOp.exec obj).priority s = obj.lastPriority ops s
  claim : ∀ t ≤ 15, ∀ s : ℕ, 0 < s → (((ops.foldl PriorityOp.exec obj).mTarClaimRead t).1 = s ↔
    (ops.foldl PriorityOp.exec obj).FirstClaimable (obj.lastPriority ops) t s)
  noClaim : ∀ t ≤ 15, ((ops.foldl PriorityOp.exec obj).mTarClaimRead t).1 = 0 ↔
    ∀ s, ¬ (ops.foldl PriorityOp.exec obj).Claimable (obj.lastPriority ops) t s

/-- A set that no later call to its source follows finds no priority bit in the register that
it does not set itself. -/
def LastSetsCover (obj : PlicRegDef) (ops : List PriorityOp) : Prop :=
  ∀ earlier source priority later, ops = earlier ++ .nPrioritySet source priority :: later →
    (∀ op ∈ later, op.source ≠ source) →
      (earlier.foldl PriorityOp.exec obj).priorityByte source ||| priority = priority

/-- The last call addressed to a source decides its priority. -/
theorem priorityByte_foldl_last {earlier later : List PriorityOp} (op : PriorityOp)
    (others : ∀ op' ∈ later, op'.source ≠ op.source) :
    ((earlier ++ op :: later).foldl PriorityOp.exec obj).priorityByte op.source =
      op.leaves ((earlier.foldl PriorityOp.exec obj).priorityByte op.source) := by
  rw [List.foldl_append, List.foldl_cons,
    read_foldl_of_frame priorityByte_exec_of_ne others, priorityByte_exec, if_pos rfl]

/-- Claims depend on the priorities of sources only. -/
theorem Claimable.congr {prio prio' : ℕ → ℕ} (same : ∀ s, IsSource s → prio s = prio' s)
    (h : obj.Claimable prio t s) : obj.Claimable prio' t s :=
  ⟨h.source, h.pending, h.enabled, same s h.source ▸ h.above⟩

theorem FirstClaimable.congr {prio prio' : ℕ → ℕ} (same : ∀ s, IsSource s → prio s = prio' s)
    (h : obj.FirstClaimable prio t s) : obj.FirstClaimable prio' t s := by
  refine ⟨h.claimable.congr same, fun s' hs' => ?_⟩
  rw [← same s h.claimable.source, ← same s' hs'.source]
  exact h.first s' (hs'.congr fun s hs => (same s hs).symm)

/-- With the last priorities in the registers, claims follow them. -/
theorem LastPriorityRules.of_priority {ops : List PriorityOp} (hpriority : ∀ s, IsSource s →
    (ops.foldl PriorityOp.exec obj).priority s = obj.lastPriority ops s) :
    obj.LastPriorityRules ops where
  priority := hpriority
  claim t ht s hpos := by
    rw [mTarClaimRead_fst_eq_iff_first ht hpos]
    exact ⟨.congr hpriority, .congr fun s hs => (hpriority s hs).symm⟩
  noClaim t ht := by
    rw [mTarClaimRead_fst_eq_zero_iff ht]
    refine forall_congr' fun s => not_congr ?_
    exact ⟨.congr hpriority, .congr fun s hs => (hpriority s hs).symm⟩

/-- Where the sets that decide cover what they find, the registers hold the last priorities. -/
theorem LastSetsCover.priority_foldl {ops : List PriorityOp} (cover : obj.LastSetsCover ops)
    {s : ℕ} (hs : IsSource s) :
    (ops.foldl PriorityOp.exec obj).priority s = obj.lastPriority ops s := by
  rw [lastPriority, dif_pos hs, priority_eq_priorityByte ⟨s, hs⟩]
  cases hlast : lastWrite PriorityOp.source PriorityOp.gives ops ⟨s, hs⟩ with
  | none =>
    rw [read_foldl_of_frame priorityByte_exec_of_ne (lastWrite_eq_none_iff.mp hlast),
      Option.getD_none, priority_eq_priorityByte ⟨s, hs⟩]
  | some gives =>
    obtain ⟨earlier, op, later, rfl, hsource, rfl, others⟩ := lastWrite_eq_some_iff.mp hlast
    rw [← hsource] at others ⊢
    rw [priorityByte_foldl_last op others, Option.getD_some]
    -- a clear leaves zero whatever it finds
    cases op with
    | nPrioritySet source priority =>
      exact congrArg BitVec.toNat (cover earlier source priority later rfl others)
    | nPriorityClear source priority => rfl

/-- Arbitration follows the last priorities after exactly those runs in which each set that
decides a priority covers what it finds. -/
theorem lastPriorityRules_iff (obj : PlicRegDef) (ops : List PriorityOp) :
    obj.LastPriorityRules ops ↔ obj.LastSetsCover ops := by
  constructor
  · rintro ⟨hpriority, -, -⟩ earlier source priority later rfl others
    have hlast : lastWrite PriorityOp.source PriorityOp.gives
        (earlier ++ .nPrioritySet source priority :: later) source = some priority.toNat :=
      lastWrite_eq_some_iff.mpr ⟨earlier, _, later, rfl, rfl, rfl, others⟩
    have hend := hpriority source source.property
    rw [lastPriority, dif_pos source.property, hlast, Option.getD_some,
      priority_eq_priorityByte source] at hend
    exact (priorityByte_foldl_last (.nPrioritySet source priority) others).symm.trans
      (BitVec.eq_of_toNat_eq hend)
  · intro cover
    exact .of_priority fun s hs => cover.priority_foldl hs

/-- Lowering the priority of a source from 7 to 2 without a clear leaves it at 7. -/
theorem lastPriority_not_rules : ¬ ∀ obj ops, LastPriorityRules obj ops := by
  intro rules
  have hpriority := (rules {} [.nPrioritySet ⟨52, by decide⟩ 7,
    .nPrioritySet ⟨52, by decide⟩ 2]).priority 52 (by decide)
  exact absurd hpriority (by decide)

end PlicRegDef

end MeshNoc
