import MeshNoc.HalTests.HalInterface
import MeshNoc.Lib.Client

/-!
# The HAL tests

The test functions of `hal_tests/`, as clients of the HAL. Every call of `g_hal` is one
step; what the functions print, and how long they take, is left out. The arrays they read
into are uninitialised, and `malloc` may return `NULL`.
-/

namespace MeshNoc

open Lib

/-- A program that uses the HAL. -/
abbrev HalClient := Client HalRequest HalAnswer

/-- What a test finds in the memory it reads into: its `k`-th array, of `n` bytes, and what
its `k`-th `malloc` returns. -/
structure Uninitialised where
  array : ℕ → ℕ → List Byte
  heap : ℕ → ℕ → Option (List Byte)
  length_array : ∀ k n, (array k n).length = n
  length_heap : ∀ k n block, heap k n = some block → block.length = n

/-- Every `malloc` succeeds. -/
def Uninitialised.Allocates (u : Uninitialised) : Prop := ∀ k n, u.heap k n ≠ none

/-- Memory that happens to be zero. -/
def Uninitialised.zeroed : Uninitialised where
  array _ n := List.replicate n 0
  heap _ n := some (List.replicate n 0)
  length_array _ n := List.length_replicate
  length_heap _ n block h := by
    rw [← Option.some.inj h]
    exact List.length_replicate

theorem Uninitialised.allocates_zeroed : Uninitialised.zeroed.Allocates := fun _ _ =>
  Option.some_ne_none _

/-! ### Calls -/

/-- A call whose answer is its result. -/
def invoke (call : HalCall) : HalClient ℤ := do
  let answer ← Client.ask (.data call)
  pure answer.result

/-- `g_hal.memory_read`: its result, and the buffer behind it. -/
def readInto (addr : Addr) (buffer : Option (List Byte)) (size : Addr) :
    HalClient (ℤ × Option (List Byte)) := do
  let answer ← Client.ask (.data (.memoryRead addr buffer size))
  pure (answer.result, answer.buffer)

/-- `memcmp(a, b, n) == 0`. -/
def memcmpEq (a b : Option (List Byte)) (n : ℕ) : HalClient Bool :=
  match a, b with
  | some a, some b =>
    if n ≤ a.length ∧ n ≤ b.length then pure (decide (a.take n = b.take n)) else .undefined
  | _, _ => .undefined

/-- Two ranges are read into two buffers and compared. -/
def readsEqual (srcAddr dstAddr : Addr) (srcVerify dstVerify : Option (List Byte))
    (bytes : Addr) : HalClient Bool := do
  let (_, srcVerify) ← readInto srcAddr srcVerify bytes
  let (_, dstVerify) ← readInto dstAddr dstVerify bytes
  memcmpEq srcVerify dstVerify bytes.toNat

/-- `a && b`: `b` is not evaluated when `a` is false. -/
def andThen (a : Bool) (b : HalClient Bool) : HalClient Bool := if a then b else pure false

/-- An `int` that is a truth value. -/
def truth (ok : Bool) : ℤ := ok.toNat

/-- `TILEk_DLM1_512_BASE`. -/
def tileDlm1_512Base (k : ℕ) : Addr := tileBases.getD k 0 + dlm1_512Offset

/-- `DMEMk_512_BASE`. -/
def dmem512Base (k : ℕ) : Addr := dmemBases.getD k 0

/-! ### `basic_tests.c` -/

/-- What the three basic tests do, but for the addresses, the pattern and the transfer. -/
def basicTest (u : Uninitialised) (srcAddr dstAddr : Addr) (pattern : Byte)
    (transfer : Addr → HalCall) : HalClient ℤ := do
  let bytes : Addr := 256
  let _ ← invoke (.memoryFill srcAddr pattern bytes)
  let _ ← invoke (.memorySet dstAddr 0 bytes)
  -- the first bytes are read to be shown, before and after the transfer
  let (_, srcBuffer) ← readInto srcAddr (some (u.array 0 32)) 32
  let (_, dstBuffer) ← readInto dstAddr (some (u.array 1 32)) 32
  let _ ← invoke (transfer bytes)
  let _ ← readInto srcAddr srcBuffer 32
  let _ ← readInto dstAddr dstBuffer 32
  let ok ← readsEqual srcAddr dstAddr (some (u.array 2 256)) (some (u.array 3 256)) bytes
  pure (truth ok)

/-- `test_cpu_local_move`. -/
def testCpuLocalMove (u : Uninitialised) : HalClient ℤ :=
  let (srcAddr, dstAddr) := (tileDlm1_512Base 0, tileDlm1_512Base 0 + 256)
  basicTest u srcAddr dstAddr 0x55 (.cpuLocalMove srcAddr dstAddr)

/-- `test_dma_local_transfer`. -/
def testDmaLocalTransfer (u : Uninitialised) : HalClient ℤ :=
  let (srcAddr, dstAddr) := (tileDlm1_512Base 1, tileDlm1_512Base 1 + 256)
  basicTest u srcAddr dstAddr 0xAA (.dmaLocalTransfer 1 srcAddr dstAddr)

/-- `test_dma_remote_transfer`. -/
def testDmaRemoteTransfer (u : Uninitialised) : HalClient ℤ :=
  let (srcAddr, dstAddr) := (tileDlm1_512Base 2, dmem512Base 5)
  basicTest u srcAddr dstAddr 0x5A (.dmaRemoteTransfer srcAddr dstAddr)

/-! ### `c0_tests.c` -/

/-- `CHUNK`. -/
def chunk : ℕ := 256

/-- The bytes behind a destination, if they are shown before the transfer. -/
def showDst (array : List Byte) (showsDst : Bool) (dstAddr : Addr) :
    HalClient (Option (List Byte)) :=
  if showsDst then do
    let (_, dstBuffer) ← readInto dstAddr (some array) 32
    pure dstBuffer
  else pure (some array)

/-- Round `d` of the loops of the C0 tests: a remote transfer of a chunk, and whether the
two ranges are equal behind it. The gather shows the destination before, too. -/
def chunkRound (u : Uninitialised) (d : ℕ) (showsDst : Bool) (srcAddr dstAddr : Addr) :
    HalClient Bool := do
  let size : Addr := BitVec.ofNat 64 chunk
  let _ ← readInto srcAddr (some (u.array (4 * d) 32)) 32
  let dstBuffer ← showDst (u.array (4 * d + 1) 32) showsDst dstAddr
  let _ ← invoke (.dmaRemoteTransfer srcAddr dstAddr size)
  let _ ← readInto dstAddr dstBuffer 32
  readsEqual srcAddr dstAddr (some (u.array (4 * d + 2) chunk)) (some (u.array (4 * d + 3) chunk))
    size

/-- The loop over the modules: how many rounds pass. -/
def chunkRounds (u : Uninitialised) (showsDst : Bool) (srcAddr dstAddr : ℕ → Addr) :
    HalClient ℤ :=
  (List.range 8).foldlM (fun pass d => do
    let equal ← chunkRound u d showsDst (srcAddr d) (dstAddr d)
    pure (pass + truth equal)) 0

/-- The address of slice `d` of node 0. -/
def sliceAddr (p : MeshPlatform) (d : ℕ) : Addr :=
  (p.nodes.getD 0 {}).dlm1_512BaseAddr + BitVec.ofNat 64 (d * chunk)

/-- The address of module `d`. -/
def moduleAddr (p : MeshPlatform) (d : ℕ) : Addr := (p.dmems.getD d {}).dmemBaseAddr

/-- The loop that fills eight chunks, chunk `d` with the pattern from `base | d` on. -/
def seedChunks (base : Byte) (addr : ℕ → Addr) : HalClient Unit :=
  (List.range 8).foldlM (fun _ d => do
    let _ ← invoke (.memoryFill (addr d) (base ||| BitVec.ofNat 8 d) (BitVec.ofNat 64 chunk))
    pure ()) ()

/-- `test_c0_gather`. -/
def testC0Gather (u : Uninitialised) (p : MeshPlatform) : HalClient ℤ := do
  let _ ← seedChunks 0x10 (moduleAddr p)
  let pass ← chunkRounds u true (moduleAddr p) (sliceAddr p)
  pure (truth (pass = 8))

/-- `test_c0_distribute`. Every module gets the first slice. -/
def testC0Distribute (u : Uninitialised) (p : MeshPlatform) : HalClient ℤ := do
  let _ ← seedChunks 0xE0 (sliceAddr p)
  let pass ← chunkRounds u false (fun _ => (p.nodes.getD 0 {}).dlm1_512BaseAddr) (moduleAddr p)
  pure (truth (pass = 8))

/-! ### `performance_tests.c` and `stress_tests.c` -/

/-- `test_noc_bandwidth`. -/
def testNocBandwidth : HalClient ℤ := do
  let bytes : Addr := 64 * 1024
  let srcAddr := tileDlm1_512Base 0
  let _ ← invoke (.cpuLocalMove srcAddr (srcAddr + bytes) bytes)
  pure 1

/-- `test_noc_latency`. -/
def testNocLatency : HalClient ℤ := do
  let _ ← invoke (.dmaRemoteTransfer (tileDlm1_512Base 0) (dmem512Base 0) 64)
  pure 1

/-! ### `random_dma_tests.c` -/

/-- `fill`, of `random_dma_tests.c`. -/
def seedPattern (len : ℕ) (seed : Byte) : List Byte :=
  (List.range len).map fun i => seed ^^^ BitVec.ofNat 8 i

/-- One case: memory is prepared and compared through the pointers of the platform. -/
def randomDmaCase (p : MeshPlatform) (src dst : ℕ) (seed : Byte) : HalClient Bool := do
  let bytes := 256
  let srcPtr := (p.nodes.getD src {}).dlm1_512Ptr
  let dstPtr := (p.dmems.getD dst {}).dmemPtr
  let _ ← Client.ask (.store srcPtr (seedPattern bytes seed))
  let _ ← Client.ask (.store dstPtr (List.replicate bytes 0))
  -- both are shown, before and after
  let _ ← Client.ask (.load srcPtr 32)
  let _ ← Client.ask (.load dstPtr 32)
  let _ ← invoke (.dmaRemoteTransfer (tileDlm1_512Base src) (dmem512Base dst)
    (BitVec.ofNat 64 bytes))
  let _ ← Client.ask (.load srcPtr 32)
  let _ ← Client.ask (.load dstPtr 32)
  let srcBytes ← Client.ask (.load srcPtr bytes)
  let dstBytes ← Client.ask (.load dstPtr bytes)
  memcmpEq srcBytes.buffer dstBytes.buffer bytes

/-- `test_random_dma_remote`. -/
def testRandomDmaRemote (p : MeshPlatform) : HalClient ℤ := do
  let passCnt ← [(0, 5, 0xA5), (4, 7, 0x5A)].foldlM (fun passCnt case => do
    let ok ← randomDmaCase p case.1 case.2.1 case.2.2
    pure (passCnt + truth ok)) 0
  pure (truth (passCnt = 2))

/-! ### `dmem_tests.c` -/

/-- `test_dmem_basic_functionality`. -/
def testDmemBasicFunctionality (u : Uninitialised) : HalClient ℤ := do
  let bytes : Addr := 256
  let (srcAddr, dstAddr) := (dmem512Base 0, dmem512Base 1)
  let _ ← invoke (.memoryFill srcAddr 0xAA bytes)
  let _ ← invoke (.memorySet dstAddr 0 bytes)
  let result ← invoke (.dmemToDmemTransfer srcAddr dstAddr bytes)
  let buffersEqual ← readsEqual srcAddr dstAddr (some (u.array 0 256)) (some (u.array 1 256)) bytes
  pure (truth (result = 0 && buffersEqual))

/-- A transfer between modules that is prepared, made and compared through buffers from
`malloc`: case `k` of the alignment test, and with another pattern the large transfer. -/
def allocatedCase (u : Uninitialised) (k : ℕ) (pattern : Byte) (src dst bytes : Addr) :
    HalClient Bool := do
  let _ ← invoke (.memoryFill src pattern bytes)
  let _ ← invoke (.memorySet dst 0 bytes)
  let result ← invoke (.dmemToDmemTransfer src dst bytes)
  let (_, srcVerify) ← readInto src (u.heap (2 * k) bytes.toNat) bytes
  let (_, dstVerify) ← readInto dst (u.heap (2 * k + 1) bytes.toNat) bytes
  andThen (result = 0) (memcmpEq srcVerify dstVerify bytes.toNat)

/-- `test_dmem_large_transfers`. -/
def testDmemLargeTransfers (u : Uninitialised) : HalClient ℤ := do
  let ok ← allocatedCase u 0 0x55 (dmem512Base 0) (dmem512Base 1) 262144
  pure (truth ok)

/-- `test_dmem_address_validation`. -/
def testDmemAddressValidation : HalClient ℤ := do
  let r1 ← invoke (.dmemToDmemTransfer (dmem512Base 0) (dmem512Base 1) 1024)
  let r2 ← invoke (.dmemToDmemTransfer (dmem512Base 0) (dmem512Base 7) 1024)
  let s0 ← Client.ask (.getDmemStatus (dmem512Base 0))
  let s1 ← Client.ask (.getDmemStatus (dmem512Base 1))
  let s7 ← Client.ask (.getDmemStatus (dmem512Base 7))
  pure (truth (r1 = 0 && r2 = 0 && s0.result = 0 && s1.result = 0 && s7.result = 0))

/-- `test_dmem_data_integrity`. -/
def testDmemDataIntegrity (u : Uninitialised) : HalClient ℤ := do
  let bytes : Addr := 1024
  let pattern : List Byte := (List.range 1024).map fun i => BitVec.ofNat 8 (i % 256)
  let _ ← invoke (.memoryWrite (dmem512Base 0) (some pattern) bytes)
  let _ ← invoke (.memorySet (dmem512Base 1) 0 bytes)
  let result ← invoke (.dmemToDmemTransfer (dmem512Base 0) (dmem512Base 1) bytes)
  let (_, dstVerify) ← readInto (dmem512Base 1) (some (u.array 0 1024)) bytes
  let ok ← andThen (result = 0) (memcmpEq (some pattern) dstVerify bytes.toNat)
  pure (truth ok)

/-- The checks of `test_dmem_concurrent_access`, its threads having been joined. -/
def concurrentChecks (u : Uninitialised) (bytes : Addr) (r1 r2 : ℤ) : HalClient ℤ := do
  let (_, v1Src) ← readInto (dmem512Base 0) (some (u.array 0 1024)) bytes
  let (_, v1Dst) ← readInto (dmem512Base 1) (some (u.array 1 1024)) bytes
  let (_, v2Src) ← readInto (dmem512Base 2) (some (u.array 2 1024)) bytes
  let (_, v2Dst) ← readInto (dmem512Base 3) (some (u.array 3 1024)) bytes
  let equal1 ← andThen (r1 = 0 && r2 = 0) (memcmpEq v1Src v1Dst bytes.toNat)
  let ok ← andThen equal1 (memcmpEq v2Src v2Dst bytes.toNat)
  pure (truth ok)

/-- `test_dmem_concurrent_access`. Either thread may make its transfer first. -/
def testDmemConcurrentAccess (u : Uninitialised) : HalClient ℤ := do
  let bytes : Addr := 1024
  let first := HalCall.dmemToDmemTransfer (dmem512Base 0) (dmem512Base 1) bytes
  let second := HalCall.dmemToDmemTransfer (dmem512Base 2) (dmem512Base 3) bytes
  let _ ← invoke (.memoryFill (dmem512Base 0) 0xCC bytes)
  let _ ← invoke (.memoryFill (dmem512Base 2) 0x33 bytes)
  let _ ← invoke (.memorySet (dmem512Base 1) 0 bytes)
  let _ ← invoke (.memorySet (dmem512Base 3) 0 bytes)
  let (r1, r2) ← Client.race
    (do let r1 ← invoke first
        let r2 ← invoke second
        pure (r1, r2))
    (do let r2 ← invoke second
        let r1 ← invoke first
        pure (r1, r2))
  concurrentChecks u bytes r1 r2

/-- `test_dmem_boundary_conditions`. -/
def testDmemBoundaryConditions : HalClient ℤ := do
  let rFirstByte ← invoke (.dmemToDmemTransfer (dmem512Base 0) (dmem512Base 1) 1)
  let nearEndSrc := dmem512Base 0 + dmem512Size - 256
  let rLastChunk ← invoke (.dmemToDmemTransfer nearEndSrc (dmem512Base 1) 256)
  pure (truth (rFirstByte = 0 && rLastChunk = 0))

/-- `test_dmem_error_handling`. -/
def testDmemErrorHandling : HalClient ℤ := do
  let rZeroSize ← invoke (.dmemToDmemTransfer (dmem512Base 0) (dmem512Base 1) 0)
  let (rNullRead, _) ← readInto (dmem512Base 0) none 256
  pure (truth (rZeroSize != 0 && rNullRead != 0))

/-- `test_dmem_performance_basic`. -/
def testDmemPerformanceBasic : HalClient ℤ := do
  let result ← invoke (.dmemToDmemTransfer (dmem512Base 0) (dmem512Base 1) 65536)
  pure (truth (result = 0))

/-- The checks of `test_dmem_cross_module_transfers`, of three transfers with these sizes and
results. The two buffers are used for all three. -/
def crossModuleChecks (u : Uninitialised) (n1 n2 n3 : Addr) (r1 r2 r3 : ℤ) : HalClient ℤ := do
  let (_, vSrc) ← readInto (dmem512Base 0) (some (u.array 0 1024)) n1
  let (_, vDst) ← readInto (dmem512Base 3) (some (u.array 1 1024)) n1
  let ok1 ← memcmpEq vSrc vDst n1.toNat
  let (_, vSrc) ← readInto (dmem512Base 1) vSrc n2
  let (_, vDst) ← readInto (dmem512Base 6) vDst n2
  let ok2 ← memcmpEq vSrc vDst n2.toNat
  let (_, vSrc) ← readInto (dmem512Base 2) vSrc n3
  let (_, vDst) ← readInto (dmem512Base 7) vDst n3
  let ok3 ← memcmpEq vSrc vDst n3.toNat
  pure (truth (r1 = 0 && r2 = 0 && r3 = 0 && ok1 && ok2 && ok3))

/-- `test_dmem_cross_module_transfers`. -/
def testDmemCrossModuleTransfers (u : Uninitialised) : HalClient ℤ := do
  let _ ← invoke (.memoryFill (dmem512Base 0) 0x11 256)
  let _ ← invoke (.memoryFill (dmem512Base 1) 0x22 512)
  let _ ← invoke (.memoryFill (dmem512Base 2) 0x33 1024)
  let r1 ← invoke (.dmemToDmemTransfer (dmem512Base 0) (dmem512Base 3) 256)
  let r2 ← invoke (.dmemToDmemTransfer (dmem512Base 1) (dmem512Base 6) 512)
  let r3 ← invoke (.dmemToDmemTransfer (dmem512Base 2) (dmem512Base 7) 1024)
  crossModuleChecks u 256 512 1024 r1 r2 r3

/-- `run_alignment_case`, in its `k`-th call. -/
def runAlignmentCase (u : Uninitialised) (k : ℕ) (src dst bytes : Addr) : HalClient ℤ := do
  let ok ← allocatedCase u k 0x5A src dst bytes
  pure (truth ok)

/-- `test_dmem_alignment_testing`. -/
def testDmemAlignmentTesting (u : Uninitialised) : HalClient ℤ := do
  let ok1 ← runAlignmentCase u 0 (dmem512Base 0 + 1) (dmem512Base 1 + 1) 255
  let ok2 ← runAlignmentCase u 1 (dmem512Base 0 + 3) (dmem512Base 1 + 3) 253
  let ok3 ← runAlignmentCase u 2 (dmem512Base 0 + 7) (dmem512Base 1 + 7) 249
  pure (truth (ok1 != 0 && ok2 != 0 && ok3 != 0))

/-! ### `parallel_noc_tests.c` and `test_framework.c` -/

/-- `tile_to_c0_transfer_task`; `currentTileId` is the tile whose thread it runs on, if there
is one. -/
def tileToC0TransferTask (currentTileId : Option ℕ) : HalClient ℤ :=
  match currentTileId with
  | none => pure 0
  | some tile => do
    let srcAddr := tileDlm1_512Base tile
    let destAddr := dmem512Base 0 + 8192
    let _ ← invoke (.memoryFill srcAddr (0x10 + BitVec.ofNat 8 tile) 512)
    invoke (.dmaRemoteTransfer srcAddr destAddr 512)

/-- What `test_parallel_c0_access` does before it creates its tasks. -/
def clearParallelDestination : HalClient ℤ := invoke (.memorySet (dmem512Base 0 + 8192) 0 1024)

/-- `run_all_tests`: the tests passed, and their number. -/
def runAllTests (u : ℕ → Uninitialised) (p : MeshPlatform) : HalClient (ℤ × ℤ) :=
  [testCpuLocalMove (u 0), testDmaLocalTransfer (u 1), testDmaRemoteTransfer (u 2),
    testC0Gather (u 3) p, testC0Distribute (u 4) p, testNocBandwidth, testNocLatency,
    testRandomDmaRemote p].foldlM
    (fun count test => do
      let passed ← test
      pure (count.1 + passed, count.2 + 1)) (0, 0)

end MeshNoc
