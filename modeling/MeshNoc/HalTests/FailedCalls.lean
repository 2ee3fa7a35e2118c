import MeshNoc.HalTests.HalTransfer

/-!
# Failed calls of the HAL

Every data function of `g_hal` makes its checks before it writes anything, through all the
layers below it: a call that returns a negative value has changed nothing but the mutex,
which it has released again.

## Main result

* `failed_call_unchanged` — a negative result means an unchanged system
-/

namespace MeshNoc

open Lib

/-- A call has changed nothing that its caller or another thread can see, and has released
the mutex once. -/
structure CallUnchanged (call : HalCall) (answer : HalAnswer) (st st' : HalSystem) : Prop where
  mem : st'.mem = st.mem
  dma : st'.dma = st.dma
  noc : st'.noc = st.noc
  buffer : answer.buffer = call.buffer
  mutex : st'.halMutex = { held := false, released := st.halMutex.released + 1 }

section Checks

variable {p : MeshPlatform} {m m' : Mem} {srcAddr dstAddr size : Addr} {result : ℤ}

theorem intOfSize_nonneg (small : size.toNat < 2 ^ 31) : 0 ≤ intOfSize size := by
  have hwidth : (size.setWidth 32).toNat = size.toNat := by
    rw [BitVec.toNat_setWidth, Nat.mod_eq_of_lt (by omega)]
  rw [intOfSize, BitVec.toInt_eq_toNat_of_lt (by omega), hwidth]
  exact Int.natCast_nonneg _

/-- A module copy that fails has copied nothing. -/
theorem dmemCopy_failed (ran : dmemCopy p m srcAddr dstAddr size = some (result, m'))
    (failed : result < 0) : m' = m := by
  simp only [dmemCopy, Option.bind_eq_bind] at ran
  split_ifs at ran with hregions hvalid hnull
  · exact (Prod.mk.inj (Option.some.inj ran)).2.symm
  · exact (Prod.mk.inj (Option.some.inj ran)).2.symm
  · exact (Prod.mk.inj (Option.some.inj ran)).2.symm
  -- behind the copy the result is zero
  · obtain ⟨copied, -, hresult⟩ := Option.bind_eq_some_iff.mp ran
    have hzero := (Prod.mk.inj (Option.some.inj hresult)).1
    omega

/-- Configuring an engine does not fail. -/
theorem halDmac512ConfigureChannel_result {handle : Dmac512Handle}
    (ran : halDmac512ConfigureChannel handle m = some (result, m')) : result = 0 := by
  simp only [halDmac512ConfigureChannel, Option.bind_eq_bind, Option.bind_eq_some_iff] at ran
  obtain ⟨_, -, _, -, _, -, _, -, _, -, _, -, hresult⟩ := ran
  exact (Prod.mk.inj (Option.some.inj hresult)).1.symm

/-- A transfer that fails has neither configured the engine nor copied. -/
theorem halDmac512Transfer_failed {handle handle' : Dmac512Handle}
    (small : size.toNat < 2 ^ 31)
    (ran : halDmac512Transfer p handle m srcAddr dstAddr size = some (result, handle', m'))
    (failed : result < 0) : handle' = handle ∧ m' = m := by
  simp only [halDmac512Transfer, Option.bind_eq_bind] at ran
  split_ifs at ran with hsize hvalid
  · simp only [Option.some.injEq, Prod.mk.injEq] at ran
    exact ⟨ran.2.1.symm, ran.2.2.symm⟩
  · simp only [Option.some.injEq, Prod.mk.injEq] at ran
    exact ⟨ran.2.1.symm, ran.2.2.symm⟩
  -- the engine is configured, so the size is returned
  · obtain ⟨⟨configResult, configuredMem⟩, hconfigure, hrest⟩ := Option.bind_eq_some_iff.mp ran
    have hzero := halDmac512ConfigureChannel_result hconfigure
    subst hzero
    simp only [ne_eq, not_true_eq_false, if_false, Option.bind_eq_some_iff] at hrest
    obtain ⟨_, -, _, -, hresult⟩ := hrest
    have hnonneg := intOfSize_nonneg small
    rw [intOfSize, (Prod.mk.inj (Option.some.inj hresult)).1] at hnonneg
    omega

/-- A local transfer that fails leaves the driver and memory as they were, when the engines
are initialised. -/
theorem dmaLocalTransfer_failed {driver driver' : DmaDriver} {tileId : ℤ}
    (initialized : ∀ tile < 8, driver.initialized tile = true) (small : size.toNat < 2 ^ 31)
    (ran : dmaLocalTransfer p driver m tileId srcAddr dstAddr size = some (result, driver', m'))
    (failed : result < 0) : driver' = driver ∧ m' = m := by
  simp only [dmaLocalTransfer, Option.bind_eq_bind] at ran
  split_ifs at ran with htile hvalid
  · simp only [Option.some.injEq, Prod.mk.injEq] at ran
    exact ⟨ran.2.1.symm, ran.2.2.symm⟩
  · simp only [Option.some.injEq, Prod.mk.injEq] at ran
    exact ⟨ran.2.1.symm, ran.2.2.symm⟩
  by_cases hrange : tileId < 0 ∨ 8 ≤ tileId
  -- an address of no tile has the id `-1`, which passes the comparison of the ids
  · simp only [dmaTileGetHandle, if_pos hrange, Option.bind_some] at ran
    simp only [ne_eq, neg_eq_zero, one_ne_zero, not_false_eq_true, if_true, Option.some.injEq,
      Prod.mk.injEq] at ran
    exact ⟨ran.2.1.symm, ran.2.2.symm⟩
  · obtain ⟨tile, rfl⟩ := Int.eq_ofNat_of_zero_le (show 0 ≤ tileId by omega)
    have hlt : tile < 8 := by omega
    rw [dmaTileGetHandle_eq hlt (initialized tile hlt), Option.bind_some] at ran
    simp only [ne_eq, not_true_eq_false, if_false, Option.bind_eq_some_iff] at ran
    obtain ⟨⟨transferred, handle, mem⟩, htransfer, hresult⟩ := ran
    simp only [Option.some.injEq, Prod.mk.injEq] at hresult
    obtain ⟨hvalue, hdriver, hmem⟩ := hresult
    obtain ⟨hhandle, hsame⟩ :=
      halDmac512Transfer_failed small htransfer (hvalue.symm ▸ failed)
    refine ⟨?_, hmem ▸ hsame⟩
    -- the table gets back the handle that was taken from it
    rw [← hdriver, hhandle, Function.update_eq_self]

end Checks

/-! ### The functions of the HAL -/

section Functions

variable {st st' locked : HalState} {answer : HalAnswer} {srcAddr dstAddr size : Addr}

theorem HalState.lock_eq_some (locking : st.lock = some locked) :
    locked = { st with halMutex.held := true } := by
  unfold HalState.lock at locking
  split_ifs at locking
  exact (Option.some.inj locking).symm

/-- A call that gives the mutex back and has done nothing else. -/
theorem HalState.unlock_of_lock (locking : st.lock = some locked) :
    locked.unlock = st.unlock := by
  rw [HalState.lock_eq_some locking]
  rfl

/-- A call that ends at one of its checks. -/
theorem HalState.refused {refusal : HalAnswer} (locking : st.lock = some locked)
    (returned : some (refusal, locked.unlock) = some (answer, st')) :
    answer.buffer = refusal.buffer ∧ st' = st.unlock := by
  obtain ⟨rfl, rfl⟩ := Prod.mk.inj (Option.some.inj returned)
  exact ⟨rfl, HalState.unlock_of_lock locking⟩

theorem refCpuLocalMove_failed
    (ran : refCpuLocalMove srcAddr dstAddr size st = some (answer, st'))
    (failed : answer.result < 0) : answer.buffer = none ∧ st' = st.unlock := by
  simp only [refCpuLocalMove, Option.bind_eq_bind] at ran
  obtain ⟨locked, hlock, hrest⟩ := Option.bind_eq_some_iff.mp ran
  split_ifs at hrest with hnull hvalid
  · exact HalState.refused hlock hrest
  · exact HalState.refused hlock hrest
  · obtain ⟨mem, -, hresult⟩ := Option.bind_eq_some_iff.mp hrest
    obtain ⟨rfl, -⟩ := Prod.mk.inj (Option.some.inj hresult)
    exact absurd failed (by decide)

theorem refDmemToDmemTransfer_failed
    (ran : refDmemToDmemTransfer srcAddr dstAddr size st = some (answer, st'))
    (failed : answer.result < 0) : answer.buffer = none ∧ st' = st.unlock := by
  simp only [refDmemToDmemTransfer, Option.bind_eq_bind] at ran
  obtain ⟨locked, hlock, hrest⟩ := Option.bind_eq_some_iff.mp ran
  split_ifs at hrest with hplatform hvalid hregions
  · exact HalState.refused hlock hrest
  · exact HalState.refused hlock hrest
  · exact HalState.refused hlock hrest
  · obtain ⟨⟨result, mem⟩, hcopy, hresult⟩ := Option.bind_eq_some_iff.mp hrest
    obtain ⟨rfl, rfl⟩ := Prod.mk.inj (Option.some.inj hresult)
    have hsame := dmemCopy_failed hcopy failed
    subst hsame
    exact ⟨rfl, HalState.unlock_of_lock hlock⟩

theorem refDmaLocalTransfer_failed {tileId : ℤ}
    (initialized : ∀ tile < 8, st.dma.initialized tile = true) (small : size.toNat < 2 ^ 31)
    (ran : refDmaLocalTransfer tileId srcAddr dstAddr size st = some (answer, st'))
    (failed : answer.result < 0) : answer.buffer = none ∧ st' = st.unlock := by
  simp only [refDmaLocalTransfer, Option.bind_eq_bind] at ran
  obtain ⟨locked, hlock, hrest⟩ := Option.bind_eq_some_iff.mp ran
  obtain ⟨⟨result, driver, mem⟩, htransfer, hresult⟩ := Option.bind_eq_some_iff.mp hrest
  obtain ⟨rfl, rfl⟩ := Prod.mk.inj (Option.some.inj hresult)
  have hlocked := HalState.lock_eq_some hlock
  subst hlocked
  obtain ⟨rfl, rfl⟩ := dmaLocalTransfer_failed initialized small htransfer failed
  exact ⟨rfl, rfl⟩

/-- The functions that access one range: whatever the access, it comes behind the last
check. -/
theorem memoryAccess_failed {argumentsOk : Bool} {addr : Addr} {buffer : Option (List Byte)}
    {access : Ptr Buffer → Mem → Option (Option (List Byte) × Mem)}
    (small : size.toNat < 2 ^ 31)
    (ran : memoryAccess argumentsOk addr size buffer access st = some (answer, st'))
    (failed : answer.result < 0) : answer.buffer = buffer ∧ st' = st.unlock := by
  simp only [memoryAccess, Option.bind_eq_bind] at ran
  obtain ⟨locked, hlock, hrest⟩ := Option.bind_eq_some_iff.mp ran
  split_ifs at hrest with harguments hvalid hnull
  · exact HalState.refused hlock hrest
  · exact HalState.refused hlock hrest
  · exact HalState.refused hlock hrest
  · obtain ⟨⟨out, mem⟩, -, hresult⟩ := Option.bind_eq_some_iff.mp hrest
    obtain ⟨rfl, -⟩ := Prod.mk.inj (Option.some.inj hresult)
    exact absurd failed (not_lt.mpr (intOfSize_nonneg small))

end Functions

section Calls

variable {st st' : HalSystem} {answer : HalAnswer}

theorem refDmaRemoteTransfer_failed {srcAddr dstAddr size : Addr} (small : size.toNat < 2 ^ 31)
    (ran : refDmaRemoteTransfer srcAddr dstAddr size st = some (answer, st'))
    (failed : answer.result < 0) :
    answer.buffer = none ∧ st' = { st with toHalState := st.toHalState.unlock } := by
  simp only [refDmaRemoteTransfer, Option.bind_eq_bind] at ran
  obtain ⟨locked, hlock, hrest⟩ := Option.bind_eq_some_iff.mp ran
  have hunlock := HalState.unlock_of_lock hlock
  split_ifs at hrest with hplatform hvalid hregions
  · obtain ⟨rfl, rfl⟩ := Prod.mk.inj (Option.some.inj hrest)
    exact ⟨rfl, by rw [hunlock]⟩
  · obtain ⟨rfl, rfl⟩ := Prod.mk.inj (Option.some.inj hrest)
    exact ⟨rfl, by rw [hunlock]⟩
  -- the packet is sent, so the size is returned
  · obtain ⟨⟨routed, mem, noc⟩, -, hresult⟩ := Option.bind_eq_some_iff.mp hrest
    obtain ⟨rfl, -⟩ := Prod.mk.inj (Option.some.inj hresult)
    exact absurd failed (not_lt.mpr (intOfSize_nonneg small))
  · obtain ⟨rfl, rfl⟩ := Prod.mk.inj (Option.some.inj hrest)
    exact ⟨rfl, by rw [hunlock]⟩

/-- A function of the lower state that has only given the mutex back. -/
theorem CallUnchanged.of_onHal {call : HalCall}
    {f : HalState → Option (HalAnswer × HalState)} (ran : st.onHal f = some (answer, st'))
    (unchanged : ∀ hal, f st.toHalState = some (answer, hal) →
      answer.buffer = call.buffer ∧ hal = st.toHalState.unlock) :
    CallUnchanged call answer st st' := by
  simp only [HalSystem.onHal, Option.bind_eq_bind] at ran
  obtain ⟨⟨result, hal⟩, hf, hresult⟩ := Option.bind_eq_some_iff.mp ran
  obtain ⟨rfl, rfl⟩ := Prod.mk.inj (Option.some.inj hresult)
  obtain ⟨hbuffer, rfl⟩ := unchanged hal hf
  exact ⟨rfl, rfl, rfl, hbuffer, rfl⟩

/-- A call of the HAL that returns a negative value leaves memory, the engines and their
handles, the arbitration and the caller's buffer as they were, and releases the mutex. -/
theorem failed_call_unchanged (ready : HalReady st) {call : HalCall}
    (small : call.size.toNat < 2 ^ 31) (ran : call.exec st = some (answer, st'))
    (failed : answer.result < 0) : CallUnchanged call answer st st' := by
  cases call with
  | cpuLocalMove srcAddr dstAddr size =>
    exact .of_onHal ran fun hal h => refCpuLocalMove_failed h failed
  | dmaLocalTransfer tileId srcAddr dstAddr size =>
    exact .of_onHal ran fun hal h =>
      refDmaLocalTransfer_failed ready.initialized small h failed
  | dmaRemoteTransfer srcAddr dstAddr size =>
    obtain ⟨hbuffer, rfl⟩ := refDmaRemoteTransfer_failed small ran failed
    exact ⟨rfl, rfl, rfl, hbuffer, rfl⟩
  | dmemToDmemTransfer srcAddr dstAddr size =>
    exact .of_onHal ran fun hal h => refDmemToDmemTransfer_failed h failed
  | memoryRead addr buffer size =>
    exact .of_onHal ran fun hal h => memoryAccess_failed small h failed
  | memoryWrite addr buffer size =>
    exact .of_onHal ran fun hal h => memoryAccess_failed small h failed
  | memoryFill addr value size =>
    exact .of_onHal ran fun hal h => memoryAccess_failed small h failed
  | memorySet addr value size =>
    exact .of_onHal ran fun hal h => memoryAccess_failed small h failed

/-- A local transfer on a tile that is not the one of its addresses. -/
theorem failed_call_unchanged_other_tile : ∃ st answer st', HalReady st ∧
    HalCall.exec st (.dmaLocalTransfer 1 0x0 0x100 16) = some (answer, st') ∧
      CallUnchanged (.dmaLocalTransfer 1 0x0 0x100 16) answer st st' := by
  have hrejected : ∀ st : HalSystem, st.halMutex.held = false →
      HalCall.exec st (.dmaLocalTransfer 1 0x0 0x100 16) =
        some ({ result := -1 }, { st with toHalState := st.toHalState.unlock }) := by
    intro st hfree
    have htile : getTileIdFromAddress 0x0 ≠ 1 := by decide +kernel
    simp only [HalCall.exec, HalSystem.onHal, refDmaLocalTransfer, HalState.lock, hfree,
      dmaLocalTransfer, if_pos (Or.inl htile), Option.bind_eq_bind]
    rfl
  have ready := halReady_afterSetup platformSetup_eq
  have ran := hrejected _ ready.unlocked
  exact ⟨_, _, _, ready, ran, failed_call_unchanged ready (by decide) ran (by decide)⟩

end Calls

end MeshNoc
