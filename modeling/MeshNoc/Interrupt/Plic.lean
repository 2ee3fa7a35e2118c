import MeshNoc.Lib.WordRow
import MeshNoc.PlatformInit.AddressManager
import Mathlib.Data.Fin.VecNotation

/-!
# The platform-level interrupt controller

The register block and the register functions of `interrupt/plic.c`. A function that
updates a register block takes the block and returns its result with the new block;
`-1` is returned, and nothing written, on an argument out of range.

Pending, trigger-type and enable bits of source `s` are bit `s % 32` of word `s / 32`;
the priority of source `s` is register `s - 1`.
-/

namespace MeshNoc

open Lib

/-! ### Constants of `plic.h` -/

def nrHarts : ℕ := 8
def sourceBaseId : ℕ := 32

def plicTargetBase : Fin 3 → ℕ := ![0, 8, 16]
def plicTargetCount : Fin 3 → ℕ := ![8, 0, 0]

/-- `irq_source_id_t`. The enumeration is an integer type: source ids and decoded types
that name no enumerator are values of it too. -/
abbrev IrqSourceId := ℕ

def irqMeshNode : IrqSourceId := 20
def irqTaskComplete : IrqSourceId := 22
def irqTaskAssign : IrqSourceId := 23
def irqErrorReport : IrqSourceId := 24
def irqDmaComplete : IrqSourceId := 25
def irqSyncRequest : IrqSourceId := 26
def irqSyncResponse : IrqSourceId := 27
def irqShutdownRequest : IrqSourceId := 28

/-- `enum PLIC_FEATURE_TYPE`. -/
inductive PlicFeatureType
  | preempt
  | vectored
  deriving DecidableEq, Repr

/-- The value of the enumerator. -/
def PlicFeatureType.code : PlicFeatureType → Fin 32
  | preempt => 0
  | vectored => 1

/-- The operator `!` on a 32-bit word. -/
def logicalNot (word : BitVec 32) : BitVec 32 := if word = 0 then 1 else 0

/-! ### Register block -/

/-! The numbers of instances, targets and words of a row are positive, so that an index
wraps within each table. -/

instance neZero_instances : NeZero 3 := ⟨by decide⟩
instance neZero_targets : NeZero 16 := ⟨by decide⟩
instance neZero_words : NeZero 32 := ⟨by decide⟩

/-- The priority threshold and claim/complete registers of one target. -/
structure TarPrioClaim where
  tarPrioThres : BitVec 32 := 0
  tarClaimComp : BitVec 32 := 0

/-- `PLIC_RegDef`. A default value is the zeroed block. -/
structure PlicRegDef where
  featureEnableReg : BitVec 32 := 0
  sprioRegs : Fin 1023 → BitVec 32 := fun _ => 0
  pendingRegs : WordRow 32 32 := fun _ => 0
  triggerRegs : WordRow 32 32 := fun _ => 0
  numTarIntp : BitVec 32 := 0
  verMaxPrio : BitVec 32 := 0
  teregs : Fin 16 → WordRow 32 32 := fun _ _ => 0
  tpcregs : Fin 16 → TarPrioClaim := fun _ => {}

/-- `index = source / 32`. -/
abbrev sourceIndex (source : ℕ) : Fin 32 := WordRow.index 32 32 source

/-- `mask = 0x1 << (source % 32)`. -/
abbrev sourceMask (source : ℕ) : BitVec 32 := WordRow.mask 32 source

/-- `sprio_regs[source - 1]`. -/
def prioIndex (source : ℕ) : Fin 1023 := Fin.ofNat 1023 (source - 1)

namespace PlicRegDef

/-- `PLIC_feature_set`. -/
def featureSet (obj : PlicRegDef) (type : PlicFeatureType) : PlicRegDef :=
  let mask := 0x1#32 <<< type.code.val
  { obj with featureEnableReg := obj.featureEnableReg ||| mask }

/-- `PLIC_feature_clear`. -/
def featureClear (obj : PlicRegDef) (type : PlicFeatureType) : PlicRegDef :=
  let mask := 0x1#32 <<< type.code.val
  -- the mask is negated, not complemented
  { obj with featureEnableReg := obj.featureEnableReg &&& logicalNot mask }

/-- `PLIC_N_priority_set`. -/
def nPrioritySet (obj : PlicRegDef) (source : ℕ) (priority : BitVec 8) : ℤ × PlicRegDef :=
  if source = 0 ∨ 1023 < source then (-1, obj)
  else
    let i := prioIndex source
    (1, { obj with
      -- the priority is ORed in, not assigned
      sprioRegs := Function.update obj.sprioRegs i (obj.sprioRegs i ||| priority.setWidth 32) })

/-- `PLIC_N_priority_clear`. The priority is not used. -/
def nPriorityClear (obj : PlicRegDef) (source : ℕ) (_priority : BitVec 8) : ℤ × PlicRegDef :=
  if source = 0 ∨ 1023 < source then (-1, obj)
  else (1, { obj with sprioRegs := Function.update obj.sprioRegs (prioIndex source) 0 })

/-- `PLIC_N_source_pending_write`: the pending word is assigned the bare mask. -/
def nSourcePendingWrite (obj : PlicRegDef) (source : ℕ) : ℤ × PlicRegDef :=
  if source = 0 ∨ 1023 < source then (-1, obj)
  else
    (1, { obj with
      -- an assignment: the other sources of the word are dropped
      pendingRegs :=
        Function.update obj.pendingRegs (sourceIndex source) (sourceMask source) })

/-- `PLIC_M_TAR_enable`. -/
def mTarEnable (obj : PlicRegDef) (target source : ℕ) : ℤ × PlicRegDef :=
  if 15 < target ∨ source = 0 ∨ 1023 < source then (-1, obj)
  else
    let t := Fin.ofNat 16 target
    let row := obj.teregs t
    (1, { obj with
      teregs := Function.update obj.teregs t
        (Function.update row (sourceIndex source)
          (row (sourceIndex source) ||| sourceMask source)) })

/-- `PLIC_M_TAR_read`. -/
def mTarRead (obj : PlicRegDef) (target source : ℕ) : ℤ :=
  if 15 < target ∨ source = 0 ∨ 1023 < source then -1
  else (obj.teregs (Fin.ofNat 16 target) (sourceIndex source) &&& sourceMask source).toInt

/-- `PLIC_M_TAR_disable`. -/
def mTarDisable (obj : PlicRegDef) (target source : ℕ) : ℤ × PlicRegDef :=
  if 15 < target ∨ source = 0 ∨ 1023 < source then (-1, obj)
  else
    let t := Fin.ofNat 16 target
    let row := obj.teregs t
    (1, { obj with
      teregs := Function.update obj.teregs t
        (Function.update row (sourceIndex source)
          -- the mask is negated, not complemented
          (row (sourceIndex source) &&& logicalNot (sourceMask source))) })

/-- The loop body of `PLIC_M_TAR_claim_read`: the best source so far with its
priority. -/
def claimScanStep (obj : PlicRegDef) (target : Fin 16) (threshold : ℕ)
    (best : ℕ × ℕ) (source : ℕ) : ℕ × ℕ :=
  if obj.pendingRegs (sourceIndex source) &&& sourceMask source = 0 then best
  else if obj.teregs target (sourceIndex source) &&& sourceMask source = 0 then best
  else
    let priority := (obj.sprioRegs (prioIndex source) &&& 0xFF).toNat
    -- strict comparisons: the lower id wins among equal priorities
    if threshold < priority ∧ best.2 < priority then (source, priority) else best

/-- The loop of `PLIC_M_TAR_claim_read`: the source it ends with, `0` for none.
Irreducible, for the unifier would otherwise run the scan. -/
@[irreducible] def claimScan (obj : PlicRegDef) (target : Fin 16) : ℕ :=
  let threshold := ((obj.tpcregs target).tarPrioThres &&& 0x0000FFFF).toNat
  ((List.range' 1 1023).foldl (obj.claimScanStep target threshold) (0, 0)).1

/-- `PLIC_M_TAR_claim_read`. -/
def mTarClaimRead (obj : PlicRegDef) (target : ℕ) : ℤ × PlicRegDef :=
  if 15 < target then (-1, obj)
  else
    let t := Fin.ofNat 16 target
    let bestSource := obj.claimScan t
    -- the pending bit of the best source is cleared, and the id latched
    if 0 < bestSource then
      let row := obj.pendingRegs
      (bestSource, { obj with
        pendingRegs := Function.update row (sourceIndex bestSource)
          (row (sourceIndex bestSource) &&& ~~~sourceMask bestSource)
        tpcregs := Function.update obj.tpcregs t
          { obj.tpcregs t with tarClaimComp := BitVec.ofNat 32 bestSource } })
    else (bestSource, obj)

/-- `PLIC_M_TAR_comp_write`. -/
def mTarCompWrite (obj : PlicRegDef) (target interruptId : ℕ) : ℤ × PlicRegDef :=
  if 15 < target then (-1, obj)
  else
    let t := Fin.ofNat 16 target
    (1, { obj with
      tpcregs := Function.update obj.tpcregs t
        { obj.tpcregs t with tarClaimComp := BitVec.ofNat 32 interruptId } })

/-- `PLIC_M_TAR_thre_write`. -/
def mTarThreWrite (obj : PlicRegDef) (tar : BitVec 8) (thres : BitVec 32) : ℤ × PlicRegDef :=
  if 15 < tar.toNat then (-1, obj)
  else
    let t := Fin.ofNat 16 tar.toNat
    (1, { obj with
      tpcregs := Function.update obj.tpcregs t
        { obj.tpcregs t with tarPrioThres := thres &&& 0x0000FFFF } })

end PlicRegDef

/-! ### The instances and their selection by hart -/

/-- The register blocks and `PLIC_INST`, the table of pointers to them. -/
structure PlicState where
  regs : PlicBlock → PlicRegDef := fun _ => {}
  plicInst : Fin 3 → Option PlicBlock := fun _ => none

namespace PlicState

/-- Apply a register function through a pointer. A null pointer is never written
through once `platform_setup` has run. -/
def write (st : PlicState) (plic : Option PlicBlock) (f : PlicRegDef → ℤ × PlicRegDef) :
    PlicState :=
  match plic with
  | none => st
  | some b => { st with regs := Function.update st.regs b (f (st.regs b)).2 }

/-- The cast of a mapped address to `volatile PLIC_RegDef *`. -/
def blockAt (mapped : Ptr Buffer) : Option PlicBlock :=
  match mapped with
  | ⟨some (.plic b), 0⟩ => some b
  | _ => none

/-- `plic_base_tbl[0]`. -/
def plicBaseTbl0 : Fin 2 → Addr := ![plic0C0c1Base, plic0NxyBase]

/-- `plic_init_for_this_hart`. -/
def plicInitForThisHart (p : MeshPlatform) (st : PlicState) (hartid : ℕ) : PlicState :=
  -- harts 0 and 1 use the first controller, all others the second
  let col : Fin 2 := if hartid < 2 then 0 else 1
  let mapped := addrToPtr p (plicBaseTbl0 col)
  { st with plicInst := Function.update st.plicInst col.castSucc (blockAt mapped) }

/-- `plic_select`: the instance pointer and the local target of a hart. -/
def plicSelect (st : PlicState) (hartid : ℕ) : Option PlicBlock × ℕ :=
  if hartid < 8 then
    let plicIdx : Fin 3 := if hartid < 2 then 0 else 1
    -- the local target is the number of the hart itself
    (st.plicInst plicIdx, hartid)
  else (none, 0)

/-- `PLIC_enable_interrupt`. -/
def plicEnableInterrupt (st : PlicState) (irqId : IrqSourceId) (hartId : ℕ) : PlicState :=
  let (plic, tgtLocal) := st.plicSelect hartId
  st.write plic fun obj => obj.mTarEnable tgtLocal irqId

/-- `PLIC_set_priority`; the priority is narrowed to `uint8_t` by the call it makes. -/
def plicSetPriority (st : PlicState) (irqId : IrqSourceId) (hartId : ℕ) (prior : BitVec 32) :
    PlicState :=
  let (plic, _) := st.plicSelect hartId
  st.write plic fun obj => obj.nPrioritySet irqId (prior.setWidth 8)

/-- `PLIC_set_threshold`; the target is narrowed to `uint8_t` by the call it makes. -/
def plicSetThreshold (st : PlicState) (hartId : ℕ) (threshold : BitVec 32) : PlicState :=
  let (plic, tgtLocal) := st.plicSelect hartId
  st.write plic fun obj => obj.mTarThreWrite (BitVec.ofNat 8 tgtLocal) threshold

end PlicState

/-- `PLIC_calculate_source_id`, in `uint32_t` arithmetic. The target hart is not used. -/
def plicCalculateSourceId (sourceHart _targetHart : ℕ) (irqType : IrqSourceId) : ℕ :=
  let hartBase := (sourceBaseId + sourceHart * 32) % 2 ^ 32
  let typeOffset := irqType % 2 ^ 32
  let sourceId := (hartBase + typeOffset) % 2 ^ 32
  -- `0` stands for an invalid source
  if 1023 < sourceId then 0 else sourceId

namespace PlicState

/-- `PLIC_trigger_typed_interrupt`. -/
def plicTriggerTypedInterrupt (st : PlicState) (sourceHart targetHart : ℕ)
    (irqType : IrqSourceId) : ℤ × PlicState :=
  if nrHarts ≤ sourceHart ∨ nrHarts ≤ targetHart then (-1, st)
  else if sourceHart = targetHart then (-2, st)
  else
    let sourceId := plicCalculateSourceId sourceHart targetHart irqType
    if sourceId = 0 then (-3, st)
    else
      -- only the first instance is searched: `for (int i = 0; i < 1; ++i)`
      let plicIndex := [(0 : Fin 3)].find? fun i =>
        plicTargetBase i ≤ targetHart ∧ targetHart < plicTargetBase i + plicTargetCount i
      match plicIndex with
      | none => (-4, st)
      | some _ =>
        match st.plicSelect targetHart with
        | (none, _) => (-5, st)
        | (some b, _) =>
          let (result, obj) := (st.regs b).nSourcePendingWrite sourceId
          (result, { st with regs := Function.update st.regs b obj })

/-- `PLIC_trigger_interrupt`. -/
def plicTriggerInterrupt (st : PlicState) (sourceHartId targetHartid : ℕ) : ℤ × PlicState :=
  st.plicTriggerTypedInterrupt sourceHartId targetHartid irqMeshNode

/-- The types `PLIC_setup_bidirectional_interrupts` supports, in its order. -/
def supportedTypes : List IrqSourceId :=
  [irqMeshNode, irqTaskComplete, irqTaskAssign, irqErrorReport, irqDmaComplete,
   irqSyncRequest, irqSyncResponse, irqShutdownRequest]

/-- The priority the set-up gives each type. -/
def setupPriority (irqType : IrqSourceId) : BitVec 32 :=
  if irqType = irqErrorReport ∨ irqType = irqShutdownRequest then 7
  else if irqType = irqTaskAssign ∨ irqType = irqSyncRequest then 5
  else if irqType = irqTaskComplete ∨ irqType = irqDmaComplete then 3
  else 2

/-- The innermost loop body of `PLIC_setup_bidirectional_interrupts`. -/
def setupType (targetHart sourceHart : ℕ) (st : PlicState) (irqType : IrqSourceId) :
    PlicState :=
  let sourceId := plicCalculateSourceId sourceHart targetHart irqType
  if 0 < sourceId then
    (st.plicEnableInterrupt sourceId targetHart).plicSetPriority sourceId targetHart
      (setupPriority irqType)
  else st

/-- The loop body over the source harts; there are no self-interrupts. -/
def setupSource (targetHart : ℕ) (st : PlicState) (sourceHart : ℕ) : PlicState :=
  if sourceHart = targetHart then st
  else supportedTypes.foldl (setupType targetHart sourceHart) st

/-- The loop body over the target harts. -/
def setupTarget (st : PlicState) (targetHart : ℕ) : PlicState :=
  -- the threshold is written once for each target, before its sources
  (List.range nrHarts).foldl (setupSource targetHart) (st.plicSetThreshold targetHart 1)

/-- `PLIC_setup_bidirectional_interrupts`. -/
def plicSetupBidirectionalInterrupts (st : PlicState) : PlicState :=
  (List.range nrHarts).foldl setupTarget st

end PlicState

end MeshNoc
