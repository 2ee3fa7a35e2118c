import MeshNoc.C0Master.HalRun
import MeshNoc.HalTests.GatherDistribute

/-!
# The functions the tiles call

What the test functions of the tasks do: the wrappers of `c0_master/c0_controller.c` call
the tests of `hal_tests/`, and `tile_to_c0_transfer_task` finds out on which tile's thread
it runs. Each returns the value that is expected of it from every ready state, whatever
memory holds.

## Main results

* `testClient_spec` — the test functions of the distributed run, on any tile
* `run_all_tests_passes` — the tests run one after the other by `run_all_tests`
* `runAlignmentCase_spec` — the alignment test at every pair of ranges
* `c0_tests_spec` — what gather and distribute do to memory
-/

namespace MeshNoc

open Lib
open HalRequest (flatStep)

/-- The test functions by name, as they run on the thread of a tile. -/
def testFunctions (u : Uninitialised) (p : MeshPlatform) (currentTileId : Option ℕ) :
    List (TestFunc × HalClient ℤ) :=
  [("tile_to_c0_transfer_task", tileToC0TransferTask currentTileId),
    ("hal_test_cpu_local_move_wrapper", testCpuLocalMove u),
    ("hal_test_dma_local_transfer_wrapper", testDmaLocalTransfer u),
    ("hal_test_dma_remote_transfer_wrapper", testDmaRemoteTransfer u),
    ("hal_test_noc_bandwidth_wrapper", testNocBandwidth),
    ("hal_test_noc_latency_wrapper", testNocLatency),
    ("hal_test_random_dma_remote_wrapper", testRandomDmaRemote p),
    ("hal_test_dmem_basic_functionality_wrapper", testDmemBasicFunctionality u),
    ("hal_test_dmem_large_transfers_wrapper", testDmemLargeTransfers u),
    ("hal_test_dmem_address_validation_wrapper", testDmemAddressValidation),
    ("hal_test_dmem_data_integrity_wrapper", testDmemDataIntegrity u),
    ("hal_test_dmem_concurrent_access_wrapper", testDmemConcurrentAccess u),
    ("hal_test_dmem_boundary_conditions_wrapper", testDmemBoundaryConditions),
    ("hal_test_dmem_error_handling_wrapper", testDmemErrorHandling),
    ("hal_test_dmem_performance_basic_wrapper", testDmemPerformanceBasic),
    ("hal_test_dmem_cross_module_transfers_wrapper", testDmemCrossModuleTransfers u),
    ("hal_test_dmem_alignment_testing_wrapper", testDmemAlignmentTesting u)]

/-- What a test function does on a tile of the platform. -/
def testClient (u : Uninitialised) (tile : ℕ) (func : TestFunc) : HalClient ℤ :=
  ((testFunctions u platformAfterSetup (some tile)).lookup func).getD .undefined

/-- The value a test function is to return: the bytes sent, or a verdict. -/
def expectedValue (func : TestFunc) : ℤ :=
  if func = "tile_to_c0_transfer_task" then 512 else 1

variable {u : Uninitialised} {mem : FlatMemory} {st : HalSystem}

theorem wp_testFunctions (allocates : u.Allocates) (tile : Fin 8) :
    ∀ f ∈ testFunctions u platformAfterSetup (some tile), ∀ mem : FlatMemory,
      f.2.wp flatStep (fun value _ => value = expectedValue f.1) mem := by
  have hpasses {func : TestFunc} {c : HalClient ℤ} (hexpected : expectedValue func = 1)
      (h : ∀ mem : FlatMemory, c.wp flatStep (fun value _ => value = 1) mem) (mem : FlatMemory) :
      c.wp flatStep (fun value _ => value = expectedValue func) mem := by
    rw [hexpected]
    exact h mem
  simp only [testFunctions, List.forall_mem_cons]
  refine ⟨fun mem => wp_tileToC0TransferTask tile,
    hpasses (by decide) fun _ => wp_testCpuLocalMove,
    hpasses (by decide) fun _ => wp_testDmaLocalTransfer,
    hpasses (by decide) fun _ => wp_testDmaRemoteTransfer,
    hpasses (by decide) fun _ => wp_testNocBandwidth,
    hpasses (by decide) fun _ => wp_testNocLatency,
    hpasses (by decide) fun _ => wp_testRandomDmaRemote,
    hpasses (by decide) fun _ => wp_testDmemBasicFunctionality,
    hpasses (by decide) fun _ => wp_testDmemLargeTransfers allocates,
    hpasses (by decide) fun _ => wp_testDmemAddressValidation,
    hpasses (by decide) fun _ => wp_testDmemDataIntegrity,
    hpasses (by decide) fun _ => wp_testDmemConcurrentAccess,
    hpasses (by decide) fun _ => wp_testDmemBoundaryConditions,
    hpasses (by decide) fun _ => wp_testDmemErrorHandling,
    hpasses (by decide) fun _ => wp_testDmemPerformanceBasic,
    hpasses (by decide) fun _ => wp_testDmemCrossModuleTransfers,
    hpasses (by decide) fun _ => wp_testDmemAlignmentTesting allocates, ?_⟩
  exact fun f hf => absurd hf List.not_mem_nil

/-- The names of the test functions. -/
def testNames : List TestFunc := "tile_to_c0_transfer_task" :: halTests.map Prod.fst

/-- On every tile, whatever memory holds, a test function of the distributed run is defined,
returns the value expected of it and leaves the platform ready, as long as `malloc` succeeds. -/
theorem testClient_spec (ready : HalReady st) (allocates : u.Allocates) (tile : Fin 8)
    {func : TestFunc} (known : func ∈ testNames) :
    (testClient u tile func).wp HalRequest.exec
      (fun value st' => value = expectedValue func ∧ HalReady st') st := by
  have hnames : (testFunctions u platformAfterSetup (some tile)).map Prod.fst = testNames := rfl
  have hsome : ((testFunctions u platformAfterSetup (some tile)).lookup func).isSome := by
    obtain ⟨f, hf, hfunc⟩ := List.mem_map.mp (hnames ▸ known)
    exact List.lookup_isSome_iff.mpr ⟨f, hf, beq_iff_eq.mpr hfunc.symm⟩
  obtain ⟨c, hc⟩ := Option.isSome_iff_exists.mp hsome
  obtain ⟨before, after, hlist, -⟩ := List.lookup_eq_some_iff.mp hc
  have hmem : (func, c) ∈ testFunctions u platformAfterSetup (some tile) := by
    rw [hlist]
    exact List.mem_append_right _ List.mem_cons_self
  rw [testClient, hc, Option.getD_some]
  refine Client.wp_mono (ready.wp (wp_testFunctions allocates tile _ hmem _)) ?_
  rintro value st' ⟨mem, holds, hvalue⟩
  exact ⟨hvalue, holds.ready⟩

theorem testClient_spec_tile3 : ∃ st, HalReady st ∧
    (testClient .zeroed 3 "hal_test_dma_remote_transfer_wrapper").wp HalRequest.exec
      (fun value st' => value = expectedValue "hal_test_dma_remote_transfer_wrapper" ∧
        HalReady st') st := by
  have ready := halReady_afterSetup platformSetup_eq
  exact ⟨_, ready, testClient_spec ready Uninitialised.allocates_zeroed 3 (by decide)⟩

/-! ### The tests of the C0 master -/

/-- Bytes that are represented can be read. -/
theorem chunkAt_of_holds {a : Addr} (holds : HalHolds st mem) (inside : InRegion a chunkSize) :
    FlatMemory.chunkAt (regionByte st.mem) a = mem.chunkAt a := by
  obtain ⟨r, hr⟩ := inside.contains (by decide)
  exact FlatMemory.bytes_congr fun i hi =>
    regionByte_of_represents holds.represents (hr.covers_add hi)

/-- What a test of the C0 master leaves behind: its verdict, the patterns of the slices and
of the modules, and every other byte of the address space as it was. -/
structure Placed (slicePattern modulePattern : ℕ → Byte) (st : HalSystem) (value : ℤ)
    (st' : HalSystem) : Prop where
  passed : value = 1
  ready : HalReady st'
  slices : ∀ d < 8, FlatMemory.chunkAt (regionByte st'.mem) (slices d) =
    filledChunk (slicePattern d)
  modules : ∀ d < 8, FlatMemory.chunkAt (regionByte st'.mem) (modules d) =
    filledChunk (modulePattern d)
  others : ∀ r : Region, ∀ a : Addr, r.Covers a →
    (∀ d < 8, ¬ ((MeshNoc.slices d).toNat ≤ a.toNat ∧
        a.toNat < (MeshNoc.slices d).toNat + chunk) ∧
      ¬ ((MeshNoc.modules d).toNat ≤ a.toNat ∧
        a.toNat < (MeshNoc.modules d).toNat + chunk)) →
    regionByte st'.mem a = regionByte st.mem a

/-- From the flat memory to the platform. -/
theorem wp_placed (ready : HalReady st) {c : HalClient ℤ} {slicePattern modulePattern : ℕ → Byte}
    (h : c.wp flatStep (fun value mem' => value = 1 ∧ OnlyChunks (regionByte st.mem) mem' ∧
      ∀ d < 8, mem'.chunkAt (slices d) = filledChunk (slicePattern d) ∧
        mem'.chunkAt (modules d) = filledChunk (modulePattern d)) (regionByte st.mem)) :
    c.wp HalRequest.exec (Placed slicePattern modulePattern st) st := by
  refine Client.wp_mono (ready.wp h) ?_
  rintro value st' ⟨mem, holds, hvalue, honly, hchunks⟩
  refine ⟨hvalue, holds.ready, fun d hd => ?_, fun d hd => ?_, fun r a covers outside => ?_⟩
  · rw [chunkAt_of_holds holds (inRegion_slices d hd), (hchunks d hd).1]
  · rw [chunkAt_of_holds holds (inRegion_modules d hd), (hchunks d hd).2]
  · rw [regionByte_of_represents holds.represents covers, honly a outside]

/-- From every ready state, whatever memory holds, the gather fills the first chunk of every
module and copies it to its slice of node 0; the distribution fills the slices and copies the
first one to every module; and neither touches another byte of the address space. -/
theorem c0_tests_spec (ready : HalReady st) :
    (testC0Gather u platformAfterSetup).wp HalRequest.exec
        (Placed (fun d => 0x10 ||| BitVec.ofNat 8 d) (fun d => 0x10 ||| BitVec.ofNat 8 d) st) st ∧
      (testC0Distribute u platformAfterSetup).wp HalRequest.exec
        (Placed (fun d => 0xE0 ||| BitVec.ofNat 8 d) (fun _ => 0xE0) st) st :=
  ⟨wp_placed ready wp_testC0Gather, wp_placed ready wp_testC0Distribute⟩

theorem c0_tests_spec_afterSetup : ∃ st, HalReady st ∧
    (testC0Gather .zeroed platformAfterSetup).wp HalRequest.exec
        (Placed (fun d => 0x10 ||| BitVec.ofNat 8 d) (fun d => 0x10 ||| BitVec.ofNat 8 d) st) st ∧
      (testC0Distribute .zeroed platformAfterSetup).wp HalRequest.exec
        (Placed (fun d => 0xE0 ||| BitVec.ofNat 8 d) (fun _ => 0xE0) st) st := by
  have ready := halReady_afterSetup platformSetup_eq
  exact ⟨_, ready, c0_tests_spec ready⟩

/-! ### The tests one after the other -/

/-- All eight tests pass. -/
theorem wp_runAllTests {u : ℕ → Uninitialised} :
    (runAllTests u platformAfterSetup).wp flatStep (fun count _ => count = (8, 8)) mem := by
  have hgather {u : Uninitialised} (mem : FlatMemory) :
      (testC0Gather u platformAfterSetup).wp flatStep (fun value _ => value = 1) mem :=
    Client.wp_mono wp_testC0Gather fun _ _ h => h.1
  have hdistribute {u : Uninitialised} (mem : FlatMemory) :
      (testC0Distribute u platformAfterSetup).wp flatStep (fun value _ => value = 1) mem :=
    Client.wp_mono wp_testC0Distribute fun _ _ h => h.1
  -- the tests that are left pass, and so did those that are done
  let I (rest : List (HalClient ℤ)) (count : ℤ × ℤ) (_ : FlatMemory) : Prop :=
    rest.length ≤ 8 ∧ count = (8 - (rest.length : ℤ), 8 - (rest.length : ℤ)) ∧
      ∀ test ∈ rest, ∀ mem : FlatMemory, test.wp flatStep (fun value _ => value = 1) mem
  have hloop : (runAllTests u platformAfterSetup).wp flatStep (I []) mem := by
    refine Client.wp_foldlM ⟨le_rfl, rfl, ?_⟩ ?_
    · simp only [List.forall_mem_cons]
      exact ⟨fun _ => wp_testCpuLocalMove, fun _ => wp_testDmaLocalTransfer,
        fun _ => wp_testDmaRemoteTransfer, hgather, hdistribute, fun _ => wp_testNocBandwidth,
        fun _ => wp_testNocLatency, fun _ => wp_testRandomDmaRemote,
        fun test htest => absurd htest List.not_mem_nil⟩
    · rintro test rest count mem ⟨hlength, rfl, hpass⟩
      refine Client.wp_bind.mpr (Client.wp_mono (hpass test List.mem_cons_self mem)
        fun passed _ hpassed => ?_)
      rw [List.length_cons] at hlength
      refine ⟨by omega, ?_, fun test htest => hpass test (List.mem_cons_of_mem _ htest)⟩
      rw [hpassed, List.length_cons]
      simp only [Prod.mk.injEq]
      omega
  exact Client.wp_mono hloop fun count _ h => h.2.1

/-- `run_all_tests` passes all of its tests from every ready state, whatever memory and the
uninitialised buffers hold, and leaves the platform ready. -/
theorem run_all_tests_passes (ready : HalReady st) (u : ℕ → Uninitialised) :
    (runAllTests u platformAfterSetup).wp HalRequest.exec
      (fun count st' => count = (8, 8) ∧ HalReady st') st := by
  refine Client.wp_mono (ready.wp wp_runAllTests) ?_
  rintro count st' ⟨mem, holds, hcount⟩
  exact ⟨hcount, holds.ready⟩

theorem run_all_tests_passes_afterSetup : ∃ st, HalReady st ∧
    (runAllTests (fun _ => .zeroed) platformAfterSetup).wp HalRequest.exec
      (fun count st' => count = (8, 8) ∧ HalReady st') st := by
  have ready := halReady_afterSetup platformSetup_eq
  exact ⟨_, ready, run_all_tests_passes ready fun _ => .zeroed⟩

/-- `run_alignment_case`, when its `malloc` succeeds, passes for the ranges that lie in modules
and are not empty, and for no others, whatever the alignment of the two addresses. -/
theorem runAlignmentCase_spec (ready : HalReady st) (allocates : u.Allocates) (k : ℕ)
    {src dst bytes : Addr} (hsrc : InRegion src bytes) (hdst : InRegion dst bytes)
    (apart : ¬ RangesMeet src bytes dst bytes) :
    (runAlignmentCase u k src dst bytes).wp HalRequest.exec
      (fun value st' => HalReady st' ∧ (value = 0 ∨ value = 1) ∧ (value = 1 ↔ bytes ≠ 0 ∧
        getAddressRegion src = .dmem512 ∧ getAddressRegion dst = .dmem512)) st := by
  refine Client.wp_mono (ready.wp (wp_runAlignmentCase allocates hsrc hdst apart)) ?_
  rintro value st' ⟨mem, holds, rfl⟩
  refine ⟨holds.ready, ?_⟩
  by_cases haccepted : (Transfer.mk .dmemToDmemTransfer src dst bytes).Accepted
  · rw [decide_eq_true haccepted]
    exact ⟨Or.inr rfl, iff_of_true rfl haccepted⟩
  · rw [decide_eq_false haccepted]
    exact ⟨Or.inl rfl, iff_of_false (by decide) haccepted⟩

/-- Both addresses are odd, and the ranges lie in different modules. -/
theorem runAlignmentCase_spec_odd : ∃ st, HalReady st ∧
    (runAlignmentCase .zeroed 0 0x10000001 0x10400003 100).wp HalRequest.exec
      (fun value st' => HalReady st' ∧ (value = 0 ∨ value = 1) ∧ (value = 1 ↔ (100 : Addr) ≠ 0 ∧
        getAddressRegion 0x10000001 = .dmem512 ∧ getAddressRegion 0x10400003 = .dmem512)) st := by
  have ready := halReady_afterSetup platformSetup_eq
  exact ⟨_, ready, runAlignmentCase_spec ready Uninitialised.allocates_zeroed 0
    ⟨.dmem 0, by decide⟩ ⟨.dmem 1, by decide⟩ (by decide)⟩

end MeshNoc
