import MeshNoc.HalTests.FlatPrograms

/-!
# The HAL tests pass

Each test of `hal_tests/` passes from every ready state of the platform, whatever memory
holds, and leaves the platform ready for the next one.
-/

namespace MeshNoc

open Lib
open HalRequest (flatStep)

variable {mem : FlatMemory} {u : Uninitialised} {src dst size : Addr}

/-- A shorter range with the same start. -/
theorem InRegion.shorten {n : Addr} (inside : InRegion src size) (le : n.toNat ≤ size.toNat) :
    InRegion src n := by
  obtain ⟨r, hlow, hhigh⟩ := inside
  exact ⟨r, hlow, by omega⟩

theorem Region.Contains.inRegion {r : Region} (h : r.Contains src size) : InRegion src size :=
  ⟨r, h.2⟩

theorem inRegion_dmem512Base (id : Fin 8) (fits : size.toNat ≤ 0x40000) :
    InRegion (dmem512Base id) size := by
  have hbase : ∀ id : Fin 8, (dmem512Base id).toNat = (Region.dmem id).base := by decide
  exact ⟨.dmem id, (hbase id).ge, by rw [hbase id]; exact Nat.add_le_add_left fits _⟩

/-! ### The basic tests -/

/-- A basic test passes with every call that copies its source to its destination. -/
theorem wp_basicTest {pattern : Byte} {transfer : Addr → HalCall} (hsrc : InRegion src 256)
    (hdst : InRegion dst 256) (copies : Copies src dst 256 (transfer 256)) :
    (basicTest u src dst pattern transfer).wp flatStep (fun value _ => value = 1) mem := by
  have hshownSrc : InRegion src 32 := hsrc.shorten (by decide)
  have hshownDst : InRegion dst 32 := hdst.shorten (by decide)
  have harray (k n : ℕ) : n ≤ (u.array k n).length := (u.length_array k n).ge
  rw [basicTest]
  refine Client.wp_bind.mpr (wp_invoke ⟨hsrc, trivial⟩ ?_)
  refine Client.wp_bind.mpr (wp_invoke ⟨hdst, trivial⟩ ?_)
  refine Client.wp_bind.mpr (wp_readBack hshownSrc (harray 0 32) fun _ b hb => ?_)
  refine Client.wp_bind.mpr (wp_readBack hshownDst (harray 1 32) fun _ c hc => ?_)
  refine Client.wp_bind.mpr (wp_invoke copies.contract ?_)
  refine Client.wp_bind.mpr (wp_readBack hshownSrc (hb ▸ harray 0 32) fun _ _ _ => ?_)
  refine Client.wp_bind.mpr (wp_readBack hshownDst (hc ▸ harray 1 32) fun _ _ _ => ?_)
  refine Client.wp_bind.mpr (wp_readsEqual hsrc hdst (by decide) (harray 2 256) (harray 3 256) ?_)
  rw [copies.bytes_src, copies.bytes_dst, decide_eq_true rfl]
  rfl

theorem wp_testCpuLocalMove :
    (testCpuLocalMove u).wp flatStep (fun value _ => value = 1) mem := by
  let t : Transfer := ⟨.cpuLocalMove, tileDlm1_512Base 0, tileDlm1_512Base 0 + 256, 256⟩
  have hsrc : InRegion t.srcAddr 256 := ⟨.dlm1_512 0, by decide⟩
  have hdst : InRegion t.dstAddr 256 := ⟨.dlm1_512 0, by decide⟩
  have hwhole : t.Whole := ⟨hsrc, hdst, by decide, by decide, by decide⟩
  exact wp_basicTest hsrc hdst hwhole.copies

theorem wp_testDmaLocalTransfer :
    (testDmaLocalTransfer u).wp flatStep (fun value _ => value = 1) mem := by
  have hsrc : InRegion (tileDlm1_512Base 1) 256 := ⟨.dlm1_512 1, by decide⟩
  have hdst : InRegion (tileDlm1_512Base 1 + 256) 256 := ⟨.dlm1_512 1, by decide⟩
  -- the registers of the engine are `0x7000` bytes above the start of the tile's DLM1_512
  exact wp_basicTest hsrc hdst (copies_dmaLocalTransfer 1 hsrc hdst (by decide)
    (by decide) (by decide) (by decide))

theorem wp_testDmaRemoteTransfer :
    (testDmaRemoteTransfer u).wp flatStep (fun value _ => value = 1) mem := by
  let t : Transfer := ⟨.dmaRemoteTransfer, tileDlm1_512Base 2, dmem512Base 5, 256⟩
  have hsrc : InRegion t.srcAddr 256 := ⟨.dlm1_512 2, by decide⟩
  have hdst : InRegion t.dstAddr 256 := ⟨.dmem 5, by decide⟩
  have hwhole : t.Whole := ⟨hsrc, hdst, by decide, by decide, by decide⟩
  exact wp_basicTest hsrc hdst hwhole.copies

/-! ### The performance tests -/

theorem wp_testNocBandwidth : testNocBandwidth.wp flatStep (fun value _ => value = 1) mem := by
  refine Client.wp_bind.mpr (wp_invoke ⟨⟨⟨.dlm1_512 0, by decide⟩, ⟨.dlm1_512 0, by decide⟩⟩,
    trivial⟩ rfl)

theorem wp_testNocLatency : testNocLatency.wp flatStep (fun value _ => value = 1) mem := by
  refine Client.wp_bind.mpr (wp_invoke ⟨⟨⟨.dlm1_512 0, by decide⟩, ⟨.dmem 0, by decide⟩⟩,
    trivial⟩ rfl)

/-! ### The DMEM tests -/

section Dmem

variable {i j : Fin 8}

/-- A range that starts in a module lies in it. -/
theorem exists_dmem_contains (inside : InRegion src size) (nonempty : size ≠ 0)
    (module : getAddressRegion src = .dmem512) : ∃ i, (Region.dmem i).Contains src size := by
  obtain ⟨r, hr⟩ := inside.contains nonempty
  obtain ⟨i, hi⟩ := exists_dmem_covers module
  obtain rfl : r = .dmem i := hr.covers.unique hi
  exact ⟨i, hr⟩

theorem accepted_dmem (hsrc : (Region.dmem i).Contains src size)
    (hdst : (Region.dmem j).Contains dst size) :
    (Transfer.mk .dmemToDmemTransfer src dst size).Accepted :=
  ⟨hsrc.1, getAddressRegion_of_covers hsrc.covers, getAddressRegion_of_covers hdst.covers⟩

/-- A transfer between modules that is carried out returns zero. -/
theorem result_dmem (hsrc : (Region.dmem i).Contains src size)
    (hdst : (Region.dmem j).Contains dst size) :
    (HalCall.answer mem (.dmemToDmemTransfer src dst size)).result = 0 := by
  rw [HalCall.answer, Transfer.answer, if_pos (accepted_dmem hsrc hdst)]

theorem copies_dmem (hsrc : (Region.dmem i).Contains src size)
    (hdst : (Region.dmem j).Contains dst size) (apart : ¬ RangesMeet src size dst size) :
    Copies src dst size (.dmemToDmemTransfer src dst size) :=
  let t : Transfer := ⟨.dmemToDmemTransfer, src, dst, size⟩
  have whole : t.Whole := ⟨hsrc.inRegion, hdst.inRegion, accepted_dmem hsrc hdst,
    if_pos (accepted_dmem hsrc hdst), apart⟩
  whole.copies

theorem wp_testDmemBasicFunctionality :
    (testDmemBasicFunctionality u).wp flatStep (fun value _ => value = 1) mem := by
  have hsrc : (Region.dmem 0).Contains (dmem512Base 0) 256 := by decide
  have hdst : (Region.dmem 1).Contains (dmem512Base 1) 256 := by decide
  have hcopies := copies_dmem hsrc hdst (by decide)
  refine Client.wp_bind.mpr (wp_invoke ⟨hsrc.inRegion, trivial⟩ ?_)
  refine Client.wp_bind.mpr (wp_invoke ⟨hdst.inRegion, trivial⟩ ?_)
  refine Client.wp_bind.mpr (wp_invoke hcopies.contract ?_)
  refine Client.wp_bind.mpr (wp_readsEqual hsrc.inRegion hdst.inRegion (by decide)
    (u.length_array 0 256).ge (u.length_array 1 256).ge ?_)
  rw [hcopies.bytes_src, hcopies.bytes_dst, result_dmem hsrc hdst]
  simp [truth]

/-- What the answer of a transfer between modules says about it. -/
theorem result_dmem_eq_zero_iff :
    (HalCall.answer mem (.dmemToDmemTransfer src dst size)).result = 0 ↔
      (Transfer.mk .dmemToDmemTransfer src dst size).Accepted := by
  rw [HalCall.answer, Transfer.answer]
  split_ifs with h
  · exact iff_of_true rfl h
  · exact iff_of_false (by decide) h

/-- A case of a prepared transfer passes exactly when the transfer is one the driver
accepts: between two modules, and of at least one byte. -/
theorem wp_allocatedCase (allocates : u.Allocates) {k : ℕ} {pattern : Byte}
    (hsrc : InRegion src size) (hdst : InRegion dst size) (apart : ¬ RangesMeet src size dst size) :
    (allocatedCase u k pattern src dst size).wp flatStep
      (fun ok _ => ok = decide (Transfer.mk .dmemToDmemTransfer src dst size).Accepted) mem := by
  obtain ⟨srcVerify, hsrcVerify⟩ := Option.ne_none_iff_exists'.mp (allocates (2 * k) size.toNat)
  obtain ⟨dstVerify, hdstVerify⟩ := Option.ne_none_iff_exists'.mp (allocates (2 * k + 1) size.toNat)
  have hcontract : (HalCall.dmemToDmemTransfer src dst size).InContract :=
    ⟨⟨hsrc, hdst⟩, fun onto => apart onto.2.2⟩
  rw [allocatedCase, hsrcVerify, hdstVerify]
  refine Client.wp_bind.mpr (wp_invoke ⟨hsrc, trivial⟩ ?_)
  refine Client.wp_bind.mpr (wp_invoke ⟨hdst, trivial⟩ ?_)
  refine Client.wp_bind.mpr (wp_invoke hcontract ?_)
  by_cases haccepted : (Transfer.mk .dmemToDmemTransfer src dst size).Accepted
  · obtain ⟨hsize, hregions⟩ := haccepted
    obtain ⟨i, hi⟩ := exists_dmem_contains hsrc hsize hregions.1
    obtain ⟨j, hj⟩ := exists_dmem_contains hdst hsize hregions.2
    have hcopies := copies_dmem hi hj apart
    refine Client.wp_bind.mpr
      (wp_readInto hsrc hsize (u.length_heap _ _ _ hsrcVerify).ge fun _ _ => ?_)
    refine Client.wp_bind.mpr
      (wp_readInto hdst hsize (u.length_heap _ _ _ hdstVerify).ge fun _ _ => ?_)
    refine wp_andThen (fun _ => wp_memcmpEq_read rfl ?_) fun hfailed =>
      absurd (result_dmem hi hj) (of_decide_eq_false hfailed)
    rw [hcopies.bytes_src, hcopies.bytes_dst]
    exact (decide_eq_true rfl).trans (decide_eq_true ⟨hsize, hregions⟩).symm
  · refine Client.wp_bind.mpr (wp_readBack hsrc (u.length_heap _ _ _ hsrcVerify).ge fun _ _ _ => ?_)
    refine Client.wp_bind.mpr (wp_readBack hdst (u.length_heap _ _ _ hdstVerify).ge fun _ _ _ => ?_)
    exact wp_andThen (fun hok => absurd (result_dmem_eq_zero_iff.mp (of_decide_eq_true hok))
      haccepted) fun _ => (decide_eq_false haccepted).symm

/-- `run_alignment_case` at every pair of ranges that stay apart. -/
theorem wp_runAlignmentCase (allocates : u.Allocates) {k : ℕ} (hsrc : InRegion src size)
    (hdst : InRegion dst size) (apart : ¬ RangesMeet src size dst size) :
    (runAlignmentCase u k src dst size).wp flatStep (fun value _ => value =
      truth (decide (Transfer.mk .dmemToDmemTransfer src dst size).Accepted)) mem :=
  Client.wp_bind.mpr (Client.wp_mono (wp_allocatedCase allocates hsrc hdst apart)
    fun _ _ hok => congrArg truth hok)

theorem wp_testDmemLargeTransfers (allocates : u.Allocates) :
    (testDmemLargeTransfers u).wp flatStep (fun value _ => value = 1) mem :=
  Client.wp_bind.mpr (Client.wp_mono (wp_allocatedCase allocates ⟨.dmem 0, by decide⟩
    ⟨.dmem 1, by decide⟩ (by decide)) fun _ _ hok => (congrArg truth hok).trans (by decide))

theorem wp_testDmemAlignmentTesting (allocates : u.Allocates) :
    (testDmemAlignmentTesting u).wp flatStep (fun value _ => value = 1) mem := by
  refine Client.wp_bind.mpr (Client.wp_mono (wp_runAlignmentCase allocates
    ⟨.dmem 0, by decide⟩ ⟨.dmem 1, by decide⟩ (by decide)) fun ok1 _ h1 => ?_)
  refine Client.wp_bind.mpr (Client.wp_mono (wp_runAlignmentCase allocates
    ⟨.dmem 0, by decide⟩ ⟨.dmem 1, by decide⟩ (by decide)) fun ok2 _ h2 => ?_)
  refine Client.wp_bind.mpr (Client.wp_mono (wp_runAlignmentCase allocates
    ⟨.dmem 0, by decide⟩ ⟨.dmem 1, by decide⟩ (by decide)) fun ok3 _ h3 => ?_)
  rw [h1, h2, h3, Client.wp_pure]
  decide

theorem wp_testDmemAddressValidation :
    testDmemAddressValidation.wp flatStep (fun value _ => value = 1) mem := by
  have h0 : (Region.dmem 0).Contains (dmem512Base 0) 1024 := by decide
  have h1 : (Region.dmem 1).Contains (dmem512Base 1) 1024 := by decide
  have h7 : (Region.dmem 7).Contains (dmem512Base 7) 1024 := by decide
  refine Client.wp_bind.mpr (wp_invoke (copies_dmem h0 h1 (by decide)).contract ?_)
  refine Client.wp_bind.mpr (wp_invoke (copies_dmem h0 h7 (by decide)).contract ?_)
  refine Client.wp_bind.mpr (wp_request _ trivial ?_)
  refine Client.wp_bind.mpr (wp_request _ trivial ?_)
  refine Client.wp_bind.mpr (wp_request _ trivial ?_)
  have hstatus : statusOf (dmem512Base 0) = 0 ∧ statusOf (dmem512Base 1) = 0 ∧
      statusOf (dmem512Base 7) = 0 := by decide
  obtain ⟨hs0, hs1, hs7⟩ := hstatus
  rw [result_dmem h0 h1, result_dmem h0 h7]
  simp [HalRequest.answer, hs0, hs1, hs7, truth]

theorem wp_testDmemDataIntegrity :
    (testDmemDataIntegrity u).wp flatStep (fun value _ => value = 1) mem := by
  have hsrc : (Region.dmem 0).Contains (dmem512Base 0) 1024 := by decide
  have hdst : (Region.dmem 1).Contains (dmem512Base 1) 1024 := by decide
  have hcopies := copies_dmem hsrc hdst (by decide)
  rw [testDmemDataIntegrity]
  generalize hpattern : (List.range 1024).map (fun i => BitVec.ofNat 8 (i % 256)) = pattern
  have hlength : (1024 : Addr).toNat ≤ pattern.length := by simp [← hpattern]
  refine Client.wp_bind.mpr (wp_invoke
    ⟨hsrc.inRegion, fun bytes hbytes => Option.some.inj hbytes ▸ hlength⟩ ?_)
  refine Client.wp_bind.mpr (wp_invoke ⟨hdst.inRegion, trivial⟩ ?_)
  refine Client.wp_bind.mpr (wp_invoke hcopies.contract ?_)
  refine Client.wp_bind.mpr (wp_readInto hdst.inRegion (by decide)
    (u.length_array 0 1024).ge fun _ _ => ?_)
  refine Client.wp_bind.mpr (wp_andThen (fun _ => wp_memcmpEq hlength (by simp) ?_) fun hfailed =>
    absurd (result_dmem hsrc hdst) (of_decide_eq_false hfailed))
  -- the module of the source is cleared by nobody
  rw [FlatMemory.take_bytes_append, hcopies.bytes_dst,
    HalCall.bytes_effect_of_apart rfl hsrc.inRegion (by decide),
    HalCall.bytes_memoryWrite hsrc.inRegion hlength, decide_eq_true rfl]
  rfl

/-- Two ranges stay equal under a call whose target meets neither. -/
theorem bytes_eq_effect (call : HalCall) (other : call.isLocal = false)
    (equal : mem.bytes src size.toNat = mem.bytes dst size.toNat) (hsrc : InRegion src size)
    (hdst : InRegion dst size) (src_apart : ¬ RangesMeet src size call.target call.size)
    (dst_apart : ¬ RangesMeet dst size call.target call.size) :
    (call.effect mem).bytes src size.toNat = (call.effect mem).bytes dst size.toNat := by
  rw [HalCall.bytes_effect_of_apart other hsrc src_apart,
    HalCall.bytes_effect_of_apart other hdst dst_apart, equal]

theorem Copies.bytes_eq {call : HalCall} (copies : Copies src dst size call) :
    (call.effect mem).bytes src size.toNat = (call.effect mem).bytes dst size.toNat :=
  (copies.bytes_src mem).trans (copies.bytes_dst mem).symm

theorem wp_testDmemBoundaryConditions :
    testDmemBoundaryConditions.wp flatStep (fun value _ => value = 1) mem := by
  have hfirst : (Region.dmem 0).Contains (dmem512Base 0) 1 := by decide
  have hfirst' : (Region.dmem 1).Contains (dmem512Base 1) 1 := by decide
  have hlast : (Region.dmem 0).Contains (dmem512Base 0 + dmem512Size - 256) 256 := by decide
  have hlast' : (Region.dmem 1).Contains (dmem512Base 1) 256 := by decide
  refine Client.wp_bind.mpr (wp_invoke (copies_dmem hfirst hfirst' (by decide)).contract ?_)
  refine Client.wp_bind.mpr (wp_invoke (copies_dmem hlast hlast' (by decide)).contract ?_)
  rw [result_dmem hfirst hfirst', result_dmem hlast hlast']
  exact (by decide : truth (decide ((0 : ℤ) = 0) && decide ((0 : ℤ) = 0)) = 1)

/-- Both calls of the error test are refused. -/
theorem wp_testDmemErrorHandling :
    testDmemErrorHandling.wp flatStep (fun value _ => value = 1) mem := by
  have hcontract : (HalCall.memoryRead (dmem512Base 0) none 256).InContract :=
    ⟨⟨.dmem 0, by decide⟩, fun bytes hbytes => absurd hbytes.symm (Option.some_ne_none bytes)⟩
  refine Client.wp_bind.mpr (wp_invoke ⟨⟨⟨.dmem 0, by decide⟩, ⟨.dmem 1, by decide⟩⟩,
    by decide⟩ ?_)
  refine Client.wp_bind.mpr (Client.wp_bind.mpr (wp_request (.data _) hcontract ?_))
  exact (by decide : truth ((-1 : ℤ) != 0 && (-1 : ℤ) != 0) = 1)

theorem wp_testDmemPerformanceBasic :
    testDmemPerformanceBasic.wp flatStep (fun value _ => value = 1) mem := by
  have hsrc : (Region.dmem 0).Contains (dmem512Base 0) 65536 := by decide
  have hdst : (Region.dmem 1).Contains (dmem512Base 1) 65536 := by decide
  refine Client.wp_bind.mpr (wp_invoke (copies_dmem hsrc hdst (by decide)).contract ?_)
  rw [result_dmem hsrc hdst]
  rfl

theorem wp_concurrentChecks (nonempty : size ≠ 0) (short : size.toNat ≤ 1024)
    (equal1 : mem.bytes (dmem512Base 0) size.toNat = mem.bytes (dmem512Base 1) size.toNat)
    (equal2 : mem.bytes (dmem512Base 2) size.toNat = mem.bytes (dmem512Base 3) size.toNat) :
    (concurrentChecks u size 0 0).wp flatStep (fun value _ => value = 1) mem := by
  have hread (id : Fin 8) : InRegion (dmem512Base id) size :=
    inRegion_dmem512Base id (by omega)
  have hlong (k : ℕ) : size.toNat ≤ (u.array k 1024).length :=
    short.trans (u.length_array k 1024).ge
  refine Client.wp_bind.mpr (wp_readInto (hread 0) nonempty (hlong 0) fun _ _ => ?_)
  refine Client.wp_bind.mpr (wp_readInto (hread 1) nonempty (hlong 1) fun _ _ => ?_)
  refine Client.wp_bind.mpr (wp_readInto (hread 2) nonempty (hlong 2) fun _ _ => ?_)
  refine Client.wp_bind.mpr (wp_readInto (hread 3) nonempty (hlong 3) fun _ _ => ?_)
  refine Client.wp_bind.mpr (wp_andThen (fun _ => wp_memcmpEq_read rfl ?_)
    fun hfailed => absurd hfailed (by decide))
  rw [decide_eq_true equal1]
  refine Client.wp_bind.mpr (wp_andThen (fun _ => wp_memcmpEq_read rfl ?_)
    fun hfailed => absurd hfailed (by decide))
  rw [decide_eq_true equal2]
  rfl

theorem wp_testDmemConcurrentAccess :
    (testDmemConcurrentAccess u).wp flatStep (fun value _ => value = 1) mem := by
  have h0 : (Region.dmem 0).Contains (dmem512Base 0) 1024 := by decide
  have h1 : (Region.dmem 1).Contains (dmem512Base 1) 1024 := by decide
  have h2 : (Region.dmem 2).Contains (dmem512Base 2) 1024 := by decide
  have h3 : (Region.dmem 3).Contains (dmem512Base 3) 1024 := by decide
  let first : HalCall := .dmemToDmemTransfer (dmem512Base 0) (dmem512Base 1) 1024
  let second : HalCall := .dmemToDmemTransfer (dmem512Base 2) (dmem512Base 3) 1024
  have hfirst : Copies _ _ _ first := copies_dmem h0 h1 (by decide)
  have hsecond : Copies _ _ _ second := copies_dmem h2 h3 (by decide)
  refine Client.wp_bind.mpr (wp_invoke ⟨h0.inRegion, trivial⟩ ?_)
  refine Client.wp_bind.mpr (wp_invoke ⟨h2.inRegion, trivial⟩ ?_)
  refine Client.wp_bind.mpr (wp_invoke ⟨h1.inRegion, trivial⟩ ?_)
  refine Client.wp_bind.mpr (wp_invoke ⟨h3.inRegion, trivial⟩ ?_)
  -- either thread's transfer leaves the modules of the other one alone
  refine Client.wp_bind.mpr ⟨?_, ?_⟩
  · refine Client.wp_bind.mpr (wp_invoke hfirst.contract ?_)
    refine Client.wp_bind.mpr (wp_invoke hsecond.contract ?_)
    rw [result_dmem h0 h1, result_dmem h2 h3]
    refine wp_concurrentChecks h0.1 le_rfl ?_ hsecond.bytes_eq
    exact bytes_eq_effect second rfl hfirst.bytes_eq h0.inRegion h1.inRegion (by decide) (by decide)
  · refine Client.wp_bind.mpr (wp_invoke hsecond.contract ?_)
    refine Client.wp_bind.mpr (wp_invoke hfirst.contract ?_)
    rw [result_dmem h0 h1, result_dmem h2 h3]
    refine wp_concurrentChecks h0.1 le_rfl hfirst.bytes_eq ?_
    exact bytes_eq_effect first rfl hsecond.bytes_eq h2.inRegion h3.inRegion (by decide) (by decide)

/-- Both buffers have 1024 bytes, whatever has been read into them. -/
theorem wp_crossModuleChecks {n1 n2 n3 : Addr} (nonempty : n1 ≠ 0 ∧ n2 ≠ 0 ∧ n3 ≠ 0)
    (short : n1.toNat ≤ 1024 ∧ n2.toNat ≤ 1024 ∧ n3.toNat ≤ 1024)
    (equal1 : mem.bytes (dmem512Base 0) n1.toNat = mem.bytes (dmem512Base 3) n1.toNat)
    (equal2 : mem.bytes (dmem512Base 1) n2.toNat = mem.bytes (dmem512Base 6) n2.toNat)
    (equal3 : mem.bytes (dmem512Base 2) n3.toNat = mem.bytes (dmem512Base 7) n3.toNat) :
    (crossModuleChecks u n1 n2 n3 0 0 0).wp flatStep (fun value _ => value = 1) mem := by
  have hread (id : Fin 8) (n : Addr) (hn : n.toNat ≤ 1024) : InRegion (dmem512Base id) n :=
    inRegion_dmem512Base id (by omega)
  have hlong (k : ℕ) (n : Addr) (hn : n.toNat ≤ 1024) : n.toNat ≤ (u.array k 1024).length :=
    hn.trans (u.length_array k 1024).ge
  obtain ⟨hpos1, hpos2, hpos3⟩ := nonempty
  obtain ⟨h1, h2, h3⟩ := short
  refine Client.wp_bind.mpr (wp_readInto (hread 0 n1 h1) hpos1 (hlong 0 n1 h1) fun _ ha => ?_)
  refine Client.wp_bind.mpr (wp_readInto (hread 3 n1 h1) hpos1 (hlong 1 n1 h1) fun _ hb => ?_)
  refine Client.wp_bind.mpr (wp_memcmpEq_read rfl ?_)
  refine Client.wp_bind.mpr
    (wp_readInto (hread 1 n2 h2) hpos2 (ha ▸ hlong 0 n2 h2) fun _ ha' => ?_)
  refine Client.wp_bind.mpr
    (wp_readInto (hread 6 n2 h2) hpos2 (hb ▸ hlong 1 n2 h2) fun _ hb' => ?_)
  refine Client.wp_bind.mpr (wp_memcmpEq_read rfl ?_)
  refine Client.wp_bind.mpr
    (wp_readInto (hread 2 n3 h3) hpos3 (ha' ▸ ha ▸ hlong 0 n3 h3) fun _ _ => ?_)
  refine Client.wp_bind.mpr
    (wp_readInto (hread 7 n3 h3) hpos3 (hb' ▸ hb ▸ hlong 1 n3 h3) fun _ _ => ?_)
  refine Client.wp_bind.mpr (wp_memcmpEq_read rfl ?_)
  rw [decide_eq_true equal1, decide_eq_true equal2, decide_eq_true equal3]
  rfl

theorem wp_testDmemCrossModuleTransfers :
    (testDmemCrossModuleTransfers u).wp flatStep (fun value _ => value = 1) mem := by
  have h0 : (Region.dmem 0).Contains (dmem512Base 0) 256 := by decide
  have h3 : (Region.dmem 3).Contains (dmem512Base 3) 256 := by decide
  have h1 : (Region.dmem 1).Contains (dmem512Base 1) 512 := by decide
  have h6 : (Region.dmem 6).Contains (dmem512Base 6) 512 := by decide
  have h2 : (Region.dmem 2).Contains (dmem512Base 2) 1024 := by decide
  have h7 : (Region.dmem 7).Contains (dmem512Base 7) 1024 := by decide
  let second : HalCall := .dmemToDmemTransfer (dmem512Base 1) (dmem512Base 6) 512
  let third : HalCall := .dmemToDmemTransfer (dmem512Base 2) (dmem512Base 7) 1024
  have hfirst := copies_dmem h0 h3 (by decide)
  have hsecond : Copies _ _ _ second := copies_dmem h1 h6 (by decide)
  have hthird : Copies _ _ _ third := copies_dmem h2 h7 (by decide)
  refine Client.wp_bind.mpr (wp_invoke ⟨h0.inRegion, trivial⟩ ?_)
  refine Client.wp_bind.mpr (wp_invoke ⟨h1.inRegion, trivial⟩ ?_)
  refine Client.wp_bind.mpr (wp_invoke ⟨h2.inRegion, trivial⟩ ?_)
  refine Client.wp_bind.mpr (wp_invoke hfirst.contract ?_)
  refine Client.wp_bind.mpr (wp_invoke hsecond.contract ?_)
  refine Client.wp_bind.mpr (wp_invoke hthird.contract ?_)
  rw [result_dmem h0 h3, result_dmem h1 h6, result_dmem h2 h7]
  -- the later transfers leave what the earlier ones have copied
  refine wp_crossModuleChecks ⟨h0.1, h1.1, h2.1⟩ (by decide) ?_ ?_ hthird.bytes_eq
  · refine bytes_eq_effect third rfl ?_ h0.inRegion h3.inRegion (by decide) (by decide)
    exact bytes_eq_effect second rfl hfirst.bytes_eq h0.inRegion h3.inRegion (by decide) (by decide)
  · exact bytes_eq_effect third rfl hsecond.bytes_eq h1.inRegion h6.inRegion (by decide) (by decide)

end Dmem

/-! ### The random test -/

theorem length_seedPattern (len : ℕ) (seed : Byte) : (seedPattern len seed).length = len := by
  rw [seedPattern, List.length_map, List.length_range]

/-- A case between any tile and any module, prepared and compared through the pointers. -/
theorem wp_randomDmaCase (tile id : Fin 8) (seed : Byte) :
    (randomDmaCase platformAfterSetup tile id seed).wp flatStep (fun ok _ => ok = true) mem := by
  have hptrs : ∀ k : Fin 8,
      (platformAfterSetup.nodes.getD k {}).dlm1_512Ptr =
        addrToPtr platformAfterSetup (tileDlm1_512Base k) ∧
      (platformAfterSetup.dmems.getD k {}).dmemPtr =
        addrToPtr platformAfterSetup (dmem512Base k) := by decide +kernel
  have hranges : ∀ k : Fin 8, (Region.dlm1_512 k).Contains (tileDlm1_512Base k) 256 ∧
      (Region.dlm1_512 k).Contains (tileDlm1_512Base k) 32 ∧
      (Region.dmem k).Contains (dmem512Base k) 256 ∧
      (Region.dmem k).Contains (dmem512Base k) 32 := by decide
  have hwhole : ∀ i j : Fin 8,
      (Transfer.mk .dmaRemoteTransfer (tileDlm1_512Base i) (dmem512Base j) 256).Accepted ∧
      ¬ RangesMeet (tileDlm1_512Base i) 256 (dmem512Base j) 256 := by decide +kernel
  obtain ⟨hsrcPtr, -⟩ := hptrs tile
  obtain ⟨-, hdstPtr⟩ := hptrs id
  obtain ⟨hsrc, hshownSrc, -⟩ := hranges tile
  obtain ⟨-, -, hdst, hshownDst⟩ := hranges id
  obtain ⟨haccepted, hapart⟩ := hwhole tile id
  let t : Transfer := ⟨.dmaRemoteTransfer, tileDlm1_512Base tile, dmem512Base id, 256⟩
  have hcopies : Copies _ _ _ t.call := Transfer.Whole.copies
    ⟨hsrc.inRegion, hdst.inRegion, haccepted, if_pos haccepted, hapart⟩
  refine Client.wp_bind.mpr (wp_store hsrc hsrcPtr (length_seedPattern 256 seed) ?_)
  refine Client.wp_bind.mpr (wp_store hdst hdstPtr List.length_replicate ?_)
  refine Client.wp_bind.mpr (wp_load hshownSrc hsrcPtr rfl ?_)
  refine Client.wp_bind.mpr (wp_load hshownDst hdstPtr rfl ?_)
  refine Client.wp_bind.mpr (wp_invoke hcopies.contract ?_)
  refine Client.wp_bind.mpr (wp_load hshownSrc hsrcPtr rfl ?_)
  refine Client.wp_bind.mpr (wp_load hshownDst hdstPtr rfl ?_)
  refine Client.wp_bind.mpr (wp_load hsrc hsrcPtr rfl ?_)
  refine Client.wp_bind.mpr (wp_load hdst hdstPtr rfl ?_)
  refine wp_memcmpEq (FlatMemory.length_bytes _).ge (FlatMemory.length_bytes _).ge ?_
  exact decide_eq_true (congrArg (List.take 256) hcopies.bytes_eq)

theorem wp_testRandomDmaRemote :
    (testRandomDmaRemote platformAfterSetup).wp flatStep (fun value _ => value = 1) mem := by
  refine Client.wp_bind.mpr (Client.wp_mono (Q := fun passCnt _ => passCnt = 2) ?_
    fun passCnt _ hcount => ?_)
  · refine Client.wp_bind.mpr (Client.wp_bind.mpr (Client.wp_mono (wp_randomDmaCase 0 5 0xA5)
      fun ok _ hok => ?_))
    refine Client.wp_bind.mpr (Client.wp_bind.mpr (Client.wp_mono (wp_randomDmaCase 4 7 0x5A)
      fun ok' _ hok' => ?_))
    rw [hok, hok']
    rfl
  · rw [hcount]
    rfl

/-! ### The tasks of the parallel test -/

/-- The task returns the number of bytes it has sent. -/
theorem wp_tileToC0TransferTask (tile : Fin 8) :
    (tileToC0TransferTask (some tile)).wp flatStep (fun value _ => value = 512) mem := by
  have hsrc : ∀ k : Fin 8, (Region.dlm1_512 k).Contains (tileDlm1_512Base k) 512 := by decide
  have hdst : (Region.dmem 0).Contains (dmem512Base 0 + 8192) 512 := by decide
  have haccepted : ∀ k : Fin 8, (Transfer.mk .dmaRemoteTransfer (tileDlm1_512Base k)
      (dmem512Base 0 + 8192) 512).Accepted := by decide +kernel
  refine Client.wp_bind.mpr (wp_invoke ⟨(hsrc tile).inRegion, trivial⟩ ?_)
  refine wp_invoke ⟨⟨(hsrc tile).inRegion, hdst.inRegion⟩, trivial⟩ ?_
  rw [HalCall.answer, Transfer.answer, if_pos (haccepted tile)]
  rfl

theorem wp_clearParallelDestination :
    clearParallelDestination.wp flatStep (fun _ _ => True) mem :=
  wp_invoke ⟨⟨.dmem 0, by decide⟩, trivial⟩ trivial

end MeshNoc
