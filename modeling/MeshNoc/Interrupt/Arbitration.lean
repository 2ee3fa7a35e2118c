import MeshNoc.Interrupt.Plic
import MeshNoc.Lib.RunningMax

/-!
# What a register block represents

A register block represents a set of pending sources, an enable relation between
targets and sources, a priority for each source and a threshold for each target.
Every register function is described by what it does to these, and the claim scan by
the arbitration order they define: higher priority first, and the lower id among equal
priorities.

## Main results

* `mTarClaimRead_eq` — a claim takes the first eligible source in arbitration order
* `bestSource_eq_some_iff`, `bestSource_eq_none_iff` — which source that is
* `pending_nSourcePendingWrite` — a pending write drops the rest of its word
* `claim_returns_first` — what a claim returns and what it leaves of every register
-/

namespace MeshNoc

open Lib

namespace PlicRegDef

variable {obj : PlicRegDef} {s s' t t' : ℕ}

/-- The source ids a register block has registers for. -/
def IsSource (s : ℕ) : Prop := 1 ≤ s ∧ s ≤ 1023

instance (s : ℕ) : Decidable (IsSource s) := inferInstanceAs (Decidable (_ ∧ _))

/-- The sources in the order the claim scan visits them. -/
def sources : List ℕ := List.range' 1 1023

theorem mem_sources : s ∈ sources ↔ IsSource s := by
  rw [sources, List.mem_range'_1, IsSource]
  omega

theorem sources_increasing : sources.Pairwise (· < ·) := List.pairwise_lt_range' 1

/-- Source `s` is pending. -/
def pending (obj : PlicRegDef) (s : ℕ) : Bool := obj.pendingRegs.test s

/-- Source `s` is enabled for target `t`. -/
def enabled (obj : PlicRegDef) (t s : ℕ) : Bool := WordRow.test (obj.teregs (Fin.ofNat 16 t)) s

/-- The priority arbitration uses for source `s`. -/
def priority (obj : PlicRegDef) (s : ℕ) : ℕ := (obj.sprioRegs (prioIndex s) &&& 0xFF).toNat

/-- The threshold arbitration uses for target `t`. -/
def threshold (obj : PlicRegDef) (t : ℕ) : ℕ :=
  ((obj.tpcregs (Fin.ofNat 16 t)).tarPrioThres &&& 0x0000FFFF).toNat

/-- Source `s` may be claimed by target `t`. -/
def eligible (obj : PlicRegDef) (t s : ℕ) : Bool :=
  obj.pending s && obj.enabled t s && decide (obj.threshold t < obj.priority s)

theorem eligible_iff : obj.eligible t s = true ↔
    obj.pending s = true ∧ obj.enabled t s = true ∧ obj.threshold t < obj.priority s := by
  simp [eligible, and_assoc]

/-- Arbitration prefers `s` to `s'`. -/
def Precedes (obj : PlicRegDef) (s s' : ℕ) : Prop :=
  obj.priority s' < obj.priority s ∨ (obj.priority s = obj.priority s' ∧ s < s')

instance : Decidable (obj.Precedes s s') := inferInstanceAs (Decidable (_ ∨ _))

theorem Precedes.ne (h : obj.Precedes s s') : s ≠ s' := by
  rintro rfl
  rcases h with h | ⟨-, h⟩
  · exact lt_irrefl _ h
  · exact lt_irrefl _ h

theorem Precedes.asymm (h : obj.Precedes s s') : ¬ obj.Precedes s' s := by
  rintro (h' | ⟨heq, hlt⟩) <;> rcases h with h | ⟨heq', hlt'⟩
  · exact lt_asymm h h'
  · exact absurd heq' h'.ne
  · exact absurd heq h.ne
  · exact lt_asymm hlt hlt'

/-! ### The claim scan -/

/-- The first eligible source in arbitration order. -/
def bestSource (obj : PlicRegDef) (t : ℕ) : Option ℕ :=
  (sources.filter (obj.eligible t)).argmax obj.priority

theorem mem_filter_eligible : s ∈ sources.filter (obj.eligible t) ↔
    IsSource s ∧ obj.eligible t s = true := by
  rw [List.mem_filter, mem_sources]

theorem bestSource_eq_none_iff :
    obj.bestSource t = none ↔ ∀ s, IsSource s → obj.eligible t s = false := by
  rw [bestSource, List.argmax_eq_none, List.filter_eq_nil_iff]
  simp [mem_sources]

/-- The best source is eligible and precedes every other eligible source. -/
theorem bestSource_eq_some_iff : obj.bestSource t = some s ↔
    IsSource s ∧ obj.eligible t s = true ∧
      ∀ s', IsSource s' → obj.eligible t s' = true → s' ≠ s → obj.Precedes s s' := by
  have increasing := sources_increasing.filter (obj.eligible t)
  -- the scan visits the ids upwards, so its first maximum is the least one
  rw [bestSource, ← Option.mem_def, mem_argmax_iff_of_increasing increasing]
  simp only [mem_filter_eligible, and_imp, and_assoc]
  refine and_congr_right fun _ => and_congr_right fun _ => ?_
  constructor
  · rintro ⟨hmax, hleast⟩ s' hs' helig hne
    rcases lt_or_eq_of_le (hmax s' hs' helig) with hlt | heq
    · exact Or.inl hlt
    · exact Or.inr ⟨heq.symm, lt_of_le_of_ne (hleast s' hs' helig heq) hne.symm⟩
  · intro hprec
    constructor <;> intro s' hs' helig
    · by_cases hne : s' = s
      · rw [hne]
      · rcases hprec s' hs' helig hne with hlt | ⟨heq, -⟩
        · exact hlt.le
        · exact heq.ge
    · intro heq
      by_cases hne : s' = s
      · rw [hne]
      · rcases hprec s' hs' helig hne with hlt | ⟨-, hlt⟩
        · exact absurd heq hlt.ne
        · exact hlt.le

/-- The block after target `t` claimed source `s`. -/
def takeSource (obj : PlicRegDef) (t s : ℕ) : PlicRegDef :=
  { obj with
    pendingRegs := Function.update obj.pendingRegs (sourceIndex s)
      (obj.pendingRegs (sourceIndex s) &&& ~~~sourceMask s)
    tpcregs := Function.update obj.tpcregs (Fin.ofNat 16 t)
      { obj.tpcregs (Fin.ofNat 16 t) with tarClaimComp := BitVec.ofNat 32 s } }

/-- The three filters of the scan are one: eligibility. -/
theorem claimScanStep_eq (best : ℕ × ℕ) (s : ℕ) :
    obj.claimScanStep (Fin.ofNat 16 t) (obj.threshold t) best s =
      scanStep (obj.eligible t) obj.priority best s := by
  have hpending : obj.pendingRegs (sourceIndex s) &&& sourceMask s = 0 ↔
      obj.pending s = false := WordRow.and_mask_eq_zero_iff (by decide) _
  have henabled : obj.teregs (Fin.ofNat 16 t) (sourceIndex s) &&& sourceMask s = 0 ↔
      obj.enabled t s = false := WordRow.and_mask_eq_zero_iff (by decide) _
  unfold claimScanStep scanStep
  rw [if_congr hpending rfl rfl, if_congr henabled rfl rfl]
  cases hp : obj.pending s with
  | false => simp [eligible, hp]
  | true =>
    cases he : obj.enabled t s with
    | false => simp [eligible, hp, he]
    | true =>
      simp only [eligible, hp, he, Bool.true_and, decide_eq_true_eq, Bool.true_eq_false,
        if_false]
      rfl

/-- The scan ends with the first eligible source in arbitration order, or with `0`. -/
theorem claimScan_eq : obj.claimScan (Fin.ofNat 16 t) = (obj.bestSource t).getD 0 := by
  have hstep : obj.claimScanStep (Fin.ofNat 16 t) (obj.threshold t) =
      scanStep (obj.eligible t) obj.priority := by
    funext best s
    exact claimScanStep_eq best s
  -- no eligible source has priority zero, so the scan may start from zero
  have hscan := foldl_scanStep (obj.eligible t) obj.priority (0, 0) sources
    fun s _ helig => lt_of_le_of_lt (Nat.zero_le _) (eligible_iff.mp helig).2.2
  unfold claimScan
  change (sources.foldl (obj.claimScanStep (Fin.ofNat 16 t) (obj.threshold t)) (0, 0)).1 = _
  rw [hstep, hscan, bestSource]
  cases (sources.filter (obj.eligible t)).argmax obj.priority <;> rfl

/-- A claim by a target returns the first eligible source in arbitration order and
takes it, or returns `0` and changes nothing when there is none. -/
theorem mTarClaimRead_eq (ht : t ≤ 15) : obj.mTarClaimRead t =
    match obj.bestSource t with
    | none => (0, obj)
    | some s => ((s : ℤ), obj.takeSource t s) := by
  unfold mTarClaimRead
  rw [if_neg (by omega)]
  simp only [claimScan_eq]
  cases hbest : obj.bestSource t with
  | none => simp
  | some s =>
    have hpos : 0 < s := (bestSource_eq_some_iff.mp hbest).1.1
    simp [hpos, takeSource]

/-! ### The register functions on what the block represents -/

theorem capacity (hs : IsSource s) : s < 32 * 32 := by
  have := hs.2
  omega

theorem pending_takeSource (hs : IsSource s) (hs' : IsSource s') :
    (obj.takeSource t s).pending s' = (obj.pending s' && !decide (s' = s)) :=
  WordRow.test_update_and_not (by decide) _ (capacity hs) (capacity hs')

/-- Two blocks with the same enables, priorities and thresholds. -/
structure SameConfig (obj obj' : PlicRegDef) : Prop where
  enabled : ∀ t s, obj'.enabled t s = obj.enabled t s
  priority : ∀ s, obj'.priority s = obj.priority s
  threshold : ∀ t, obj'.threshold t = obj.threshold t

theorem SameConfig.refl (obj : PlicRegDef) : SameConfig obj obj :=
  ⟨fun _ _ => rfl, fun _ => rfl, fun _ => rfl⟩

theorem SameConfig.trans {obj obj' obj'' : PlicRegDef} (h : SameConfig obj obj')
    (h' : SameConfig obj' obj'') : SameConfig obj obj'' :=
  ⟨fun t s => (h'.enabled t s).trans (h.enabled t s),
    fun s => (h'.priority s).trans (h.priority s),
    fun t => (h'.threshold t).trans (h.threshold t)⟩

theorem SameConfig.precedes_iff {obj' : PlicRegDef} (h : SameConfig obj obj') :
    obj'.Precedes s s' ↔ obj.Precedes s s' := by
  rw [Precedes, Precedes, h.priority, h.priority]

/-- Storing a claim register changes no threshold. -/
theorem threshold_update_tarClaimComp (i : Fin 16) (id : BitVec 32) :
    threshold
      { obj with
        tpcregs := Function.update obj.tpcregs i
          { (obj.tpcregs i) with tarClaimComp := id } } t = obj.threshold t := by
  unfold threshold
  dsimp only
  by_cases h : Fin.ofNat 16 t = i
  · rw [h, Function.update_self]
  · rw [Function.update_of_ne h]

theorem sameConfig_takeSource : SameConfig obj (obj.takeSource t s) :=
  ⟨fun _ _ => rfl, fun _ => rfl, fun _ => threshold_update_tarClaimComp _ _⟩

theorem sameConfig_mTarClaimRead : SameConfig obj (obj.mTarClaimRead t).2 := by
  by_cases ht : t ≤ 15
  · rw [mTarClaimRead_eq ht]
    cases obj.bestSource t
    · exact .refl obj
    · exact sameConfig_takeSource
  · rw [mTarClaimRead, if_pos (by omega)]
    exact .refl obj

theorem sameConfig_nSourcePendingWrite : SameConfig obj (obj.nSourcePendingWrite s).2 := by
  unfold nSourcePendingWrite
  split_ifs
  · exact .refl obj
  · exact ⟨fun _ _ => rfl, fun _ => rfl, fun _ => rfl⟩

theorem sameConfig_mTarCompWrite {id : ℕ} : SameConfig obj (obj.mTarCompWrite t id).2 := by
  unfold mTarCompWrite
  split_ifs
  · exact .refl obj
  · exact ⟨fun _ _ => rfl, fun _ => rfl, fun _ => threshold_update_tarClaimComp _ _⟩

theorem mTarClaimRead_of_lt (ht : 15 < t) : obj.mTarClaimRead t = (-1, obj) := if_pos ht

/-- A claim returns a source exactly when that source is the first in arbitration order. -/
theorem mTarClaimRead_fst_eq_iff (hpos : 0 < s) :
    (obj.mTarClaimRead t).1 = s ↔ t ≤ 15 ∧ obj.bestSource t = some s := by
  by_cases ht : t ≤ 15
  · rw [mTarClaimRead_eq ht]
    cases hbest : obj.bestSource t with
    | none =>
      -- without an eligible source the claim returns `0`, which is no source
      have hne : (0 : ℤ) ≠ s := by omega
      simp [hne]
    | some s' => simp [ht]
  · rw [mTarClaimRead_of_lt (by omega)]
    exact ⟨fun h => by omega, fun h => absurd h.1 ht⟩

/-- A claim takes the source it returns and leaves every other one pending. -/
theorem pending_mTarClaimRead (hs' : IsSource s') : (obj.mTarClaimRead t).2.pending s' =
    (obj.pending s' && !decide ((obj.mTarClaimRead t).1 = s')) := by
  have hpos := hs'.1
  by_cases ht : t ≤ 15
  · rw [mTarClaimRead_eq ht]
    cases hbest : obj.bestSource t with
    | none =>
      have hne : (0 : ℤ) ≠ s' := by omega
      simp [hne]
    | some s =>
      have hs : IsSource s := (bestSource_eq_some_iff.mp hbest).1
      simp [pending_takeSource hs hs', eq_comm]
  -- an invalid target claims nothing
  · have hne : (-1 : ℤ) ≠ s' := by omega
    rw [mTarClaimRead_of_lt (by omega)]
    simp [hne]

theorem nSourcePendingWrite_fst (hs : IsSource s) : (obj.nSourcePendingWrite s).1 = 1 := by
  have := hs.1
  have := hs.2
  rw [nSourcePendingWrite, if_neg (by omega)]

/-- A pending write makes its source pending and drops every other source of its word. -/
theorem pending_nSourcePendingWrite (hs : IsSource s) (hs' : IsSource s') :
    (obj.nSourcePendingWrite s).2.pending s' =
      if s' / 32 = s / 32 then decide (s' = s) else obj.pending s' := by
  have := hs.1
  have := hs.2
  rw [nSourcePendingWrite, if_neg (by omega)]
  exact WordRow.test_update_mask (by decide) _ (capacity hs) (capacity hs')

/-- Completion takes no source and adds none. -/
theorem pending_mTarCompWrite {id : ℕ} : (obj.mTarCompWrite t id).2.pending s = obj.pending s := by
  unfold mTarCompWrite
  split_ifs <;> rfl

/-! ### What a claim returns and leaves -/

/-- Under the priorities `prio` target `t` may be given source `s`. -/
structure Claimable (obj : PlicRegDef) (prio : ℕ → ℕ) (t s : ℕ) : Prop where
  source : IsSource s
  pending : obj.pending s = true
  enabled : obj.enabled t s = true
  above : obj.threshold t < prio s

/-- Under the priorities `prio` source `s` is the one target `t` is to be given. -/
structure FirstClaimable (obj : PlicRegDef) (prio : ℕ → ℕ) (t s : ℕ) : Prop where
  claimable : obj.Claimable prio t s
  first : ∀ s', obj.Claimable prio t s' → prio s' < prio s ∨ prio s' = prio s ∧ s ≤ s'

/-- What a claim of source `s` by target `t` leaves of the block: the pending bit of `s` is
cleared and `s` is stored in the claim register of `t`, and every other bit of every register
is as before. -/
structure ClaimLeaves (obj : PlicRegDef) (t s : ℕ) (obj' : PlicRegDef) : Prop where
  pendingRegs : ∀ (i : Fin 32) (k : ℕ), (obj'.pendingRegs i).getLsbD k =
    ((obj.pendingRegs i).getLsbD k && !decide (i.val = s / 32 ∧ k = s % 32))
  claimComp : (obj'.tpcregs (Fin.ofNat 16 t)).tarClaimComp = BitVec.ofNat 32 s
  thresholds : ∀ i, (obj'.tpcregs i).tarPrioThres = (obj.tpcregs i).tarPrioThres
  otherTargets : ∀ i, i ≠ Fin.ofNat 16 t → obj'.tpcregs i = obj.tpcregs i
  featureEnableReg : obj'.featureEnableReg = obj.featureEnableReg
  sprioRegs : obj'.sprioRegs = obj.sprioRegs
  triggerRegs : obj'.triggerRegs = obj.triggerRegs
  numTarIntp : obj'.numTarIntp = obj.numTarIntp
  verMaxPrio : obj'.verMaxPrio = obj.verMaxPrio
  teregs : obj'.teregs = obj.teregs

theorem claimable_iff :
    obj.Claimable obj.priority t s ↔ IsSource s ∧ obj.eligible t s = true := by
  rw [eligible_iff]
  exact ⟨fun h => ⟨h.source, h.pending, h.enabled, h.above⟩,
    fun h => ⟨h.1, h.2.1, h.2.2.1, h.2.2.2⟩⟩

theorem firstClaimable_iff :
    obj.FirstClaimable obj.priority t s ↔ obj.bestSource t = some s := by
  rw [bestSource_eq_some_iff, ← and_assoc, ← claimable_iff]
  constructor
  · rintro ⟨hclaimable, hfirst⟩
    refine ⟨hclaimable, fun s' hs' helig hne => ?_⟩
    rcases hfirst s' (claimable_iff.mpr ⟨hs', helig⟩) with hlt | ⟨heq, hle⟩
    · exact Or.inl hlt
    · exact Or.inr ⟨heq.symm, lt_of_le_of_ne hle hne.symm⟩
  · rintro ⟨hclaimable, hfirst⟩
    refine ⟨hclaimable, fun s' hs' => ?_⟩
    by_cases hne : s' = s
    · exact Or.inr ⟨by rw [hne], hne.ge⟩
    · obtain ⟨hsource, helig⟩ := claimable_iff.mp hs'
      exact (hfirst s' hsource helig hne).imp_right fun h => ⟨h.1.symm, h.2.le⟩

/-- A claim returns the first claimable source. -/
theorem mTarClaimRead_fst_eq_iff_first (ht : t ≤ 15) (hpos : 0 < s) :
    (obj.mTarClaimRead t).1 = s ↔ obj.FirstClaimable obj.priority t s := by
  rw [mTarClaimRead_fst_eq_iff hpos, firstClaimable_iff, and_iff_right ht]

/-- It returns `0` when there is none. -/
theorem mTarClaimRead_fst_eq_zero_iff (ht : t ≤ 15) :
    (obj.mTarClaimRead t).1 = 0 ↔ ∀ s, ¬ obj.Claimable obj.priority t s := by
  have hnone : obj.bestSource t = none ↔ ∀ s, ¬ obj.Claimable obj.priority t s := by
    rw [bestSource_eq_none_iff]
    refine forall_congr' fun s => ?_
    rw [claimable_iff, not_and, Bool.not_eq_true]
  rw [← hnone, mTarClaimRead_eq ht]
  cases hbest : obj.bestSource t with
  | none => simp
  | some s =>
    have hpos : 0 < s := (bestSource_eq_some_iff.mp hbest).1.1
    simp only [Nat.cast_eq_zero, reduceCtorEq, iff_false]
    omega

theorem sourceIndex_val (hs : IsSource s) : (sourceIndex s).val = s / 32 := by
  have := hs.2
  exact Nat.mod_eq_of_lt (by omega)

theorem getLsbD_sourceMask (s k : ℕ) :
    (sourceMask s).getLsbD k = decide (k = s % 32) := by
  have hbit : s % 32 < 32 := Nat.mod_lt _ (by decide)
  change (1#32 <<< (s % 32)).getLsbD k = _
  rw [← BitVec.twoPow_eq, BitVec.getLsbD_twoPow, decide_eq_true hbit, Bool.true_and]
  exact decide_eq_decide.mpr eq_comm

theorem claimLeaves_takeSource (hs : IsSource s) : obj.ClaimLeaves t s (obj.takeSource t s) where
  pendingRegs i k := by
    have hword := sourceIndex_val hs
    -- only the word of the source is rewritten, and of it only the bit of the mask
    by_cases hi : i = sourceIndex s
    · have hval : i.val = s / 32 := hi ▸ hword
      simp only [takeSource]
      rw [hi, Function.update_self, ← hi, BitVec.getLsbD_and, BitVec.getLsbD_not,
        getLsbD_sourceMask]
      by_cases hk : k < 32
      · simp [hval, hk]
      · rw [BitVec.getLsbD_of_ge _ _ (by omega), Bool.false_and, Bool.false_and]
    · have hval : i.val ≠ s / 32 := fun heq => hi (Fin.ext (heq.trans hword.symm))
      simp [takeSource, Function.update_of_ne hi, hval]
  claimComp := by simp [takeSource]
  thresholds i := by
    by_cases hi : i = Fin.ofNat 16 t
    · simp only [takeSource]
      rw [hi, Function.update_self]
    · simp only [takeSource, Function.update_of_ne hi]
  otherTargets i hi := by simp only [takeSource, Function.update_of_ne hi]
  featureEnableReg := rfl
  sprioRegs := rfl
  triggerRegs := rfl
  numTarIntp := rfl
  verMaxPrio := rfl
  teregs := rfl

/-- A claim by one of the targets returns `0` exactly when no source is claimable, and then
changes nothing; otherwise it returns the first claimable source and takes it. -/
theorem claim_returns_first (obj : PlicRegDef) (ht : t ≤ 15) :
    ((obj.mTarClaimRead t).1 = 0 ↔ ∀ s, ¬ obj.Claimable obj.priority t s) ∧
      ((obj.mTarClaimRead t).1 = 0 → (obj.mTarClaimRead t).2 = obj) ∧
        ((obj.mTarClaimRead t).1 ≠ 0 → ∃ s : ℕ, (obj.mTarClaimRead t).1 = s ∧
          obj.FirstClaimable obj.priority t s ∧
            obj.ClaimLeaves t s (obj.mTarClaimRead t).2) := by
  refine ⟨mTarClaimRead_fst_eq_zero_iff ht, ?_, ?_⟩ <;> rw [mTarClaimRead_eq ht]
  · cases hbest : obj.bestSource t with
    | none => exact fun _ => rfl
    | some s =>
      have hpos : 0 < s := (bestSource_eq_some_iff.mp hbest).1.1
      intro hzero
      exact absurd (Nat.cast_eq_zero.mp hzero) hpos.ne'
  · cases hbest : obj.bestSource t with
    | none => exact fun hne => absurd rfl hne
    | some s =>
      have hs : IsSource s := (bestSource_eq_some_iff.mp hbest).1
      exact fun _ => ⟨s, rfl, firstClaimable_iff.mpr hbest, claimLeaves_takeSource hs⟩

/-- Sources 52, 54 and 84 are pending, all of them enabled for target 2; the last two share the
higher priority. -/
def tiedBlock : PlicRegDef where
  pendingRegs := fun i => if i.val = 1 then 0x00500000 else if i.val = 2 then 0x00100000 else 0
  sprioRegs := fun i => if i.val = 51 then 3 else 7
  teregs := fun t _ => if t.val = 2 then 0xFFFFFFFF else 0
  tpcregs := fun _ => { tarPrioThres := 1 }

/-- The claim returns the lower of the two ids that share the highest priority. -/
theorem claim_returns_first_tied : ∃ s : ℕ, (tiedBlock.mTarClaimRead 2).1 = s ∧ s = 54 ∧
    tiedBlock.FirstClaimable tiedBlock.priority 2 s ∧
      tiedBlock.ClaimLeaves 2 s (tiedBlock.mTarClaimRead 2).2 := by
  have hclaim : (tiedBlock.mTarClaimRead 2).1 = 54 := by decide +kernel
  have hne : (tiedBlock.mTarClaimRead 2).1 ≠ 0 := by
    rw [hclaim]
    decide
  obtain ⟨s, hs, hfirst, hleaves⟩ := (claim_returns_first tiedBlock (by decide : 2 ≤ 15)).2.2 hne
  exact ⟨s, hs, Nat.cast_injective (hs.symm.trans hclaim), hfirst, hleaves⟩

end PlicRegDef

end MeshNoc
