import MeshNoc.Hal.RegisterFields
import MeshNoc.Lib.Refinement

/-!
# Configuring a channel again and again

`HAL_DMAC512ConfigureChannel` reads, masks and writes back four registers. On their contents
it is a function that forgets every earlier configuration, and the calls on memory refine it;
so behind any sequence of calls the registers are what the last one alone makes of their
initial contents.

## Main results

* `Dmac512Regs.configure_configure` — a configuration replaces the one before it
* `configureChannel_refines` — a call on memory is that function on the registers
* `configureChannels_last` — every sequence of calls leaves the fields of the last `Init`,
  and every other bit as it was
-/

namespace MeshNoc

open Lib

/-- The registers that configuring a channel writes. -/
@[ext]
structure Dmac512Regs where
  control : BitVec 32
  srcAddr : BitVec 64
  dstAddr : BitVec 64
  totalXferCnt : BitVec 32
  deriving DecidableEq

/-- An `Init` whose transfer count fits the 24 bits of its field. -/
abbrev ChannelInit := {init : Dmac512Init // init.xferCount.toNat ≤ 0xFFFFFF}

theorem Dmac512DbB.code_lt (beat : Dmac512DbB) : beat.code.toNat < 2 ^ 3 := by
  cases beat <;> decide

theorem Dmac512OpMode.code_lt (mode : Dmac512OpMode) : mode.code.toNat < 2 ^ 2 := by
  cases mode
  decide

theorem ChannelInit.xferCount_lt (init : ChannelInit) : init.1.xferCount.toNat < 2 ^ 24 :=
  Nat.lt_succ_of_le init.2

namespace Dmac512Regs

/-- The registers of the engine at `regs`. -/
def load (m : Mem) (regs : Ptr Buffer) : Option Dmac512Regs := do
  let control ← m.load32 Buffer.size (regs.add dmacControl)
  let srcAddr ← m.load64 Buffer.size (regs.add dmacSrcAddr)
  let dstAddr ← m.load64 Buffer.size (regs.add dmacDstAddr)
  let totalXferCnt ← m.load32 Buffer.size (regs.add dmacTotalXferCnt)
  some ⟨control, srcAddr, dstAddr, totalXferCnt⟩

/-- `HAL_DMAC512ConfigureChannel` on the contents of the registers. -/
def configure (r : Dmac512Regs) (init : Dmac512Init) : Dmac512Regs where
  control :=
    let control := setDmac512CtrlDobB r.control init.dobBeat.code
    let control := setDmac512CtrlDfbB control init.dfbBeat.code
    setDmac512CtrlMode control init.dmacMode.code
  srcAddr := setDmac512SrcAddr r.srcAddr init.srcAddr
  dstAddr := setDmac512DstAddr r.dstAddr init.dstAddr
  totalXferCnt := setDmac512TotalXferCnt r.totalXferCnt init.xferCount

/-- The documented fields hold what `init` says. -/
structure Holds (r : Dmac512Regs) (init : Dmac512Init) : Prop where
  dobB : (r.control.extractLsb' 20 3).setWidth 32 = init.dobBeat.code
  dfbB : (r.control.extractLsb' 16 3).setWidth 32 = init.dfbBeat.code
  mode : (r.control.extractLsb' 8 2).setWidth 32 = init.dmacMode.code
  srcAddr : r.srcAddr = init.srcAddr
  dstAddr : r.dstAddr = init.dstAddr
  xferCount : (r.totalXferCnt.extractLsb' 0 24).setWidth 32 = init.xferCount

/-- The bits of the control register and of the transfer count that belong to no field of an
`Init` are the same: among them the reset bit, bit 0, and the enable bit, bit 31. -/
structure SameElsewhere (before after : Dmac512Regs) : Prop where
  control : ∀ i, ¬ (20 ≤ i ∧ i < 23) → ¬ (16 ≤ i ∧ i < 19) → ¬ (8 ≤ i ∧ i < 10) →
    after.control.getLsbD i = before.control.getLsbD i
  totalXferCnt : ∀ i, 24 ≤ i → after.totalXferCnt.getLsbD i = before.totalXferCnt.getLsbD i

/-! ### One configuration -/

section Configure

variable (r : Dmac512Regs)

theorem configure_control (init : Dmac512Init) :
    (r.configure init).control =
      putField (fieldMask 32 2 8) 8 (putField (fieldMask 32 3 16) 16
        (putField (fieldMask 32 3 20) 20 r.control init.dobBeat.code) init.dfbBeat.code)
        init.dmacMode.code := by
  have hdob : fieldMask 32 3 20 = dmac512CtrlDobBMask := dmac512CtrlDobBMask_eq.symm
  have hdfb : fieldMask 32 3 16 = dmac512CtrlDfbBMask := dmac512CtrlDfbBMask_eq.symm
  have hmode : fieldMask 32 2 8 = dmac512CtrlDmacModeMask := dmac512CtrlDmacModeMask_eq.symm
  rw [hdob, hdfb, hmode]
  rfl

theorem configure_totalXferCnt (init : Dmac512Init) :
    (r.configure init).totalXferCnt =
      putField (fieldMask 32 24 0) 0 r.totalXferCnt init.xferCount := by
  have hcount : fieldMask 32 24 0 = dmac512TotalXferCntMask := dmac512TotalXferCntMask_eq.symm
  rw [hcount]
  rfl

theorem configure_srcAddr (init : Dmac512Init) : (r.configure init).srcAddr = init.srcAddr :=
  setDmac512SrcAddr_eq _ _

theorem configure_dstAddr (init : Dmac512Init) : (r.configure init).dstAddr = init.dstAddr :=
  setDmac512DstAddr_eq _ _

/-- The control register bit by bit: the three fields are apart. -/
theorem getLsbD_configure_control (init : Dmac512Init) {i : ℕ} (hi : i < 32) :
    (r.configure init).control.getLsbD i =
      if 8 ≤ i ∧ i < 8 + 2 then init.dmacMode.code.getLsbD (i - 8)
      else if 16 ≤ i ∧ i < 16 + 3 then init.dfbBeat.code.getLsbD (i - 16)
      else if 20 ≤ i ∧ i < 20 + 3 then init.dobBeat.code.getLsbD (i - 20)
      else r.control.getLsbD i := by
  rw [configure_control, getLsbD_putField init.dmacMode.code_lt hi,
    getLsbD_putField init.dfbBeat.code_lt hi, getLsbD_putField init.dobBeat.code_lt hi]

theorem holds_configure (init : ChannelInit) : (r.configure init).Holds init where
  dobB := by
    rw [configure_control, extractLsb'_putField_of_apart init.1.dmacMode.code_lt (by decide),
      extractLsb'_putField_of_apart init.1.dfbBeat.code_lt (by decide)]
    exact setWidth_extractLsb'_putField (by decide) init.1.dobBeat.code_lt
  dfbB := by
    rw [configure_control, extractLsb'_putField_of_apart init.1.dmacMode.code_lt (by decide)]
    exact setWidth_extractLsb'_putField (by decide) init.1.dfbBeat.code_lt
  mode := by
    rw [configure_control]
    exact setWidth_extractLsb'_putField (by decide) init.1.dmacMode.code_lt
  srcAddr := r.configure_srcAddr init
  dstAddr := r.configure_dstAddr init
  xferCount := by
    rw [configure_totalXferCnt]
    exact setWidth_extractLsb'_putField (by decide) init.xferCount_lt

theorem sameElsewhere_configure (init : ChannelInit) : r.SameElsewhere (r.configure init) where
  control i hdob hdfb hmode := by
    rw [configure_control, getLsbD_putField_of_not_mem init.1.dmacMode.code_lt hmode,
      getLsbD_putField_of_not_mem init.1.dfbBeat.code_lt hdfb,
      getLsbD_putField_of_not_mem init.1.dobBeat.code_lt hdob]
  totalXferCnt i hi := by
    rw [configure_totalXferCnt, getLsbD_putField_of_not_mem init.xferCount_lt (by omega)]

/-- A configuration leaves nothing of the one before it. -/
theorem configure_configure (first second : ChannelInit) :
    (r.configure first).configure second = r.configure second := by
  ext1
  · refine BitVec.eq_of_getLsbD_eq fun i hi => ?_
    rw [getLsbD_configure_control _ _ hi, getLsbD_configure_control _ _ hi,
      getLsbD_configure_control _ _ hi]
    split_ifs <;> rfl
  · rw [configure_srcAddr, configure_srcAddr]
  · rw [configure_dstAddr, configure_dstAddr]
  · rw [configure_totalXferCnt, configure_totalXferCnt, configure_totalXferCnt,
      putField_putField first.xferCount_lt second.xferCount_lt]

end Configure

/-! ### A sequence of configurations -/

/-- A call on the contents of the registers: it answers 0. -/
def configureStep (r : Dmac512Regs) (init : ChannelInit) : ℤ × Dmac512Regs :=
  (0, r.configure init)

/-- What earlier calls did is gone behind one more. -/
theorem configure_runState (r : Dmac512Regs) (inits : List ChannelInit) (last : ChannelInit) :
    (runState configureStep r inits).configure last = r.configure last := by
  induction inits generalizing r with
  | nil => rfl
  | cons init rest ih =>
    rw [runState_cons, ih]
    exact configure_configure r init last

/-! ### The calls on memory -/

section Load

variable {m : Mem} {regs : Ptr Buffer} {r : Dmac512Regs}

theorem load_eq_some_iff :
    load m regs = some r ↔
      m.load32 Buffer.size (regs.add dmacControl) = some r.control ∧
      m.load64 Buffer.size (regs.add dmacSrcAddr) = some r.srcAddr ∧
      m.load64 Buffer.size (regs.add dmacDstAddr) = some r.dstAddr ∧
      m.load32 Buffer.size (regs.add dmacTotalXferCnt) = some r.totalXferCnt := by
  simp only [load, Option.bind_eq_bind, Option.bind_eq_some_iff, Option.some.injEq]
  constructor
  · rintro ⟨control, hcontrol, srcAddr, hsrc, dstAddr, hdst, count, hcount, rfl⟩
    exact ⟨hcontrol, hsrc, hdst, hcount⟩
  · rintro ⟨hcontrol, hsrc, hdst, hcount⟩
    exact ⟨_, hcontrol, _, hsrc, _, hdst, _, hcount, rfl⟩

theorem exists_load (within : regs.Within Buffer.size dmac512RegSize) (m : Mem) :
    ∃ r, load m regs = some r := by
  have hcontrol : (regs.add dmacControl).Within Buffer.size 4 := within.sub (by decide)
  have hsrc : (regs.add dmacSrcAddr).Within Buffer.size 8 := within.sub (by decide)
  have hdst : (regs.add dmacDstAddr).Within Buffer.size 8 := within.sub (by decide)
  have hcount : (regs.add dmacTotalXferCnt).Within Buffer.size 4 := within.sub (by decide)
  exact ⟨⟨_, _, _, _⟩, load_eq_some_iff.mpr
    ⟨if_pos hcontrol, if_pos hsrc, if_pos hdst, if_pos hcount⟩⟩

/-- The six updates of memory, read as updates of the registers. -/
theorem load_configured (within : regs.Within Buffer.size dmac512RegSize)
    (loaded : load m regs = some r) (init : Dmac512Init) :
    load (configured regs init m) regs = some (r.configure init) := by
  have hblock : regs.block ≠ none := within.block_ne_none
  have hsrc : (regs.add dmacSrcAddr).Within Buffer.size 8 := within.sub (by decide)
  have hdst : (regs.add dmacDstAddr).Within Buffer.size 8 := within.sub (by decide)
  obtain ⟨hcontrol, -, -, hcount⟩ := load_eq_some_iff.mp loaded
  refine load_eq_some_iff.mpr ⟨?_, ?_, ?_, ?_⟩
  all_goals simp only [configured]
  · rw [Memory.load32_setBits_of_apart hblock _ _ (by decide),
      Memory.load32_put_of_apart hblock _ (by decide),
      Memory.load32_put_of_apart hblock _ (by decide)]
    exact Memory.load32_setBits (Memory.load32_setBits (Memory.load32_setBits hcontrol _ _) _ _) _ _
  · rw [Memory.load64_setBits_of_apart hblock _ _ (by decide),
      Memory.load64_put_of_apart hblock _ (by decide), Memory.load64_put hsrc, configure_srcAddr]
  · rw [Memory.load64_setBits_of_apart hblock _ _ (by decide), Memory.load64_put hdst,
      configure_dstAddr]
  · refine Memory.load32_setBits ?_ _ _
    rw [Memory.load32_put_of_apart hblock _ (by decide),
      Memory.load32_put_of_apart hblock _ (by decide),
      Memory.load32_setBits_of_apart hblock _ _ (by decide),
      Memory.load32_setBits_of_apart hblock _ _ (by decide),
      Memory.load32_setBits_of_apart hblock _ _ (by decide), hcount]

end Load

end Dmac512Regs

/-- A call of `HAL_DMAC512ConfigureChannel` on a handle of the engine at `regs`. -/
def configureChannel (regs : Ptr Buffer) (m : Mem) (init : ChannelInit) : Option (ℤ × Mem) :=
  halDmac512ConfigureChannel { inst := regs, init := init } m

/-- A call is defined, answers 0 and configures the registers. -/
theorem configureChannel_refines {regs : Ptr Buffer}
    (within : regs.Within Buffer.size dmac512RegSize) (m : Mem) (r : Dmac512Regs)
    (init : ChannelInit) (loaded : Dmac512Regs.load m regs = some r) :
    ∃ m', configureChannel regs m init = some ((r.configureStep init).1, m') ∧
      Dmac512Regs.load m' regs = some (r.configureStep init).2 :=
  ⟨_, halDmac512ConfigureChannel_eq { inst := regs, init := init } m within,
    Dmac512Regs.load_configured within loaded init⟩

/-- From any contents of the registers, every sequence of calls is defined and ends with the
fields of the last `Init`; no call reaches a bit outside them. -/
theorem configureChannels_last {regs : Ptr Buffer}
    (within : regs.Within Buffer.size dmac512RegSize) (m : Mem) (inits : List ChannelInit)
    (last : ChannelInit) :
    ∃ before answers m' after, Dmac512Regs.load m regs = some before ∧
      tryRun (configureChannel regs) m (inits ++ [last]) = some (answers, m') ∧
      Dmac512Regs.load m' regs = some after ∧ after.Holds last ∧ before.SameElsewhere after := by
  obtain ⟨before, hbefore⟩ := Dmac512Regs.exists_load within m
  have hkept : ∀ init ∈ inits ++ [last], True := fun _ _ => trivial
  obtain ⟨m', hrun, hafter⟩ := tryRun_refines (R := fun m r => Dmac512Regs.load m regs = some r)
    (fun m r init _ loaded => configureChannel_refines within m r init loaded) hbefore hkept
  rw [runState_append] at hafter
  -- the history of the registers is gone behind the last call
  have hlast : (runState Dmac512Regs.configureStep before inits).configure last =
      before.configure last := Dmac512Regs.configure_runState before inits last
  change _ = some ((runState Dmac512Regs.configureStep before inits).configure last) at hafter
  rw [hlast] at hafter
  exact ⟨before, _, m', _, hbefore, hrun, hafter, before.holds_configure last,
    before.sameElsewhere_configure last⟩

/-- Two calls for the engine of tile 0, from zeroed registers. -/
theorem configureChannels_last_tile0 :
    ∃ before answers m' after,
      Dmac512Regs.load zeroMem ⟨some (.dlm1_512 0), 0x7000⟩ = some before ∧
      tryRun (configureChannel ⟨some (.dlm1_512 0), 0x7000⟩) zeroMem
        ([⟨{ dobBeat := .axiTrans64, srcAddr := 0x8000 }, by decide⟩] ++
          [⟨{ dstAddr := 0x10000000, xferCount := 64 }, by decide⟩]) = some (answers, m') ∧
      Dmac512Regs.load m' ⟨some (.dlm1_512 0), 0x7000⟩ = some after ∧
      after.Holds { dstAddr := 0x10000000, xferCount := 64 } ∧ before.SameElsewhere after :=
  configureChannels_last (by decide) zeroMem
    [⟨{ dobBeat := .axiTrans64, srcAddr := 0x8000 }, by decide⟩]
    ⟨{ dstAddr := 0x10000000, xferCount := 64 }, by decide⟩

end MeshNoc
