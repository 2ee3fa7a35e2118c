import MeshNoc.PlatformInit.AddressManager
import MeshNoc.Lib.WordRow
import MeshNoc.Lib.Transducer
import MeshNoc.Lib.Loop
import MeshNoc.Lib.RunningMax
import MeshNoc.Lib.FirstMatch
import MeshNoc.Lib.Placement
import MeshNoc.Lib.Locks
import MeshNoc.Lib.Refinement
import MeshNoc.Lib.Accumulate
import MeshNoc.Hal.Dmac512
import MeshNoc.Hal.Dmac512Transfer
import MeshNoc.Lib.BitField
import MeshNoc.Hal.RegisterFields
import MeshNoc.Hal.ChannelConfiguration
import MeshNoc.PlatformInit.SystemSetup
import MeshNoc.Tile.TileDma
import MeshNoc.Noc.MeshRouter
import MeshNoc.PlatformInit.Region
import MeshNoc.Noc.DestinationArbitration
import MeshNoc.PlatformInit.Translation
import MeshNoc.PlatformInit.Validation
import MeshNoc.Noc.PacketDelivery
import MeshNoc.Dmem.ModuleAccess
import MeshNoc.HalTests.HalReference
import MeshNoc.HalTests.HalTransfer
import MeshNoc.HalTests.FailedCalls
import MeshNoc.HalTests.FlatMemory
import MeshNoc.HalTests.Transfers
import MeshNoc.HalTests.RemoteTransfer
import MeshNoc.HalTests.LocalTransfer
import MeshNoc.HalTests.EngineIdle
import MeshNoc.HalTests.IndependentTransfers
import MeshNoc.HalTests.MemcpyRanges
import MeshNoc.Interrupt.Arbitration
import MeshNoc.Interrupt.Setup
import MeshNoc.Interrupt.System
import MeshNoc.Interrupt.Delivery
import MeshNoc.Interrupt.Deliverable
import MeshNoc.Interrupt.Switches
import MeshNoc.Interrupt.Priorities
import MeshNoc.Lib.Drain
import MeshNoc.Lib.Handout
import MeshNoc.C0Master.Tasks
import MeshNoc.C0Master.Dispatch
import MeshNoc.C0Master.Execution
import MeshNoc.C0Master.ActiveTasks
import MeshNoc.C0Master.HalRun
import MeshNoc.C0Master.Batch
import MeshNoc.C0Master.Interrupts
import MeshNoc.C0Master.Drain
import MeshNoc.C0Master.Signalling
import MeshNoc.C0Master.Finishing
import MeshNoc.C0Master.SourceIds
import MeshNoc.Lib.EveryState
import MeshNoc.Lib.RingBuffer
import MeshNoc.C0Master.TaskQueue
import MeshNoc.Lib.RoundRobin
import MeshNoc.C0Master.RoundRobin
import MeshNoc.C0Master.StorageSlots
import MeshNoc.C0Master.CompletionCounts
import MeshNoc.C0Master.InterruptStatistics
import MeshNoc.PlatformInit.ReverseTranslation
import MeshNoc.Dmem.RegisterAccess
import MeshNoc.HalTests.MeshRoute
import MeshNoc.Lib.Client
import MeshNoc.Lib.Session
import MeshNoc.HalTests.HalInterface
import MeshNoc.HalTests.FlatInterface
import MeshNoc.HalTests.TestPrograms
import MeshNoc.HalTests.FlatPrograms
import MeshNoc.HalTests.TestsPass
import MeshNoc.HalTests.GatherDistribute
import MeshNoc.C0Master.TestFunctions
import MeshNoc.C0Master.SuiteRun
import MeshNoc.C0Master.SuiteInvariants
import MeshNoc.C0Master.Progress
import MeshNoc.C0Master.SuitePasses
import MeshNoc.C0Master.SuiteFinishes
import MeshNoc.C0Master.TestSuite
import MeshNoc.C0Master.RowTiles
import MeshNoc.C0Master.SuiteThreads
import MeshNoc.C0Master.SuiteSignals
import MeshNoc.Lib.Rounds
import MeshNoc.C0Master.SuiteWaits
import MeshNoc.C0Master.SuiteReturns
import MeshNoc.C0Master.ExecutionReport
