import OsModel.Lib.Run
import OsModel.Lib.Span
import OsModel.Lib.Bytes
import OsModel.Utils
import OsModel.MemoryStick
import OsModel.KernelMemory.State
import OsModel.KernelMemory.MemoryAccess
import OsModel.KernelMemory.Layout
import OsModel.KernelMemory.Holes
import OsModel.KernelMemory.Compaction
import OsModel.KernelMemory.Segments
import OsModel.KernelMemory.Swap
import OsModel.KernelMemory.Operations
import OsModel.KernelMemory.LayoutRuns
import OsModel.KernelMemory.SwapBlocks
import OsModel.KernelMemory.Transparency
import OsModel.KernelMemory.Relocation
import OsModel.KernelMemory.SegmentCreation
import OsModel.KernelMemory.Termination
import OsModel.KernelMemory.Threads
import OsModel.KernelMemory.CompactionProgress
import OsModel.KernelMemory.Requests
import OsModel.KernelMemory.Coordination
import OsModel.KernelMemory.ThreadRuns
import OsModel.Cpu.Registers
import OsModel.Cpu.Mmu
import OsModel.Cpu.Instructions
import OsModel.Cpu.Isolation
import OsModel.Lib.Tokens
import OsModel.Lib.Tracks
import OsModel.Lib.Located
import OsModel.KernelMemory.CpuHandler
import OsModel.System.Contexts
import OsModel.System.ContextFreshness
import OsModel.System.Stdin
import OsModel.System.StdinDelivery
import OsModel.System.AddressMap
import OsModel.System.LogicalMemory
import OsModel.System.SegmentIds
import OsModel.Dispatch.State
import OsModel.Dispatch.Threads
import OsModel.Dispatch.Connections
import OsModel.Dispatch.Places
import OsModel.Dispatch.Executions
import OsModel.Dispatch.Evictions
import OsModel.Dispatch.CompactionGate
import OsModel.Dispatch.Orders
import OsModel.KernelScheduler.State
import OsModel.KernelScheduler.Processes
import OsModel.KernelScheduler.Managers
import OsModel.KernelScheduler.Schedulers
import OsModel.KernelScheduler.Handlers
import OsModel.KernelScheduler.Connections
import OsModel.KernelScheduler.Places
import OsModel.KernelScheduler.Coherence
import OsModel.KernelScheduler.ReadyQueues
import OsModel.KernelScheduler.Board
import OsModel.KernelScheduler.Moves
import OsModel.KernelScheduler.Ownership
import OsModel.KernelScheduler.Syscalls
import OsModel.KernelScheduler.SegmentResults
import OsModel.KernelScheduler.Suspension
import OsModel.KernelScheduler.SuspensionPass
import OsModel.KernelMemory.ChunkRequests
import OsModel.KernelMemory.CompactionMoves
import OsModel.KernelMemory.SwapSafety
import OsModel.KernelMemory.Replies
import OsModel.Cpu.Threads
import OsModel.Cpu.InstructionFlow
import OsModel.Cpu.MalformedLines
import OsModel.Cpu.Confirmations
import OsModel.Lib.Simulation
import OsModel.System.Slices
import OsModel.System.SliceRuns
import OsModel.System.SliceSchedules
import OsModel.Lib.History
import OsModel.KernelScheduler.Records
import OsModel.KernelScheduler.Books
import OsModel.KernelScheduler.Mutexes
import OsModel.KernelScheduler.Terminations
import OsModel.KernelScheduler.Wakeups
import OsModel.KernelScheduler.WorkConservation
import OsModel.KernelScheduler.Preemption
import OsModel.Lib.Edges
import OsModel.KernelScheduler.Priorities
import OsModel.KernelScheduler.Inheritance
import OsModel.KernelScheduler.QueuePlacement
import OsModel.KernelScheduler.Admission
import OsModel.Lib.Codec
import OsModel.Net.Packages
import OsModel.Net.Decoders
import OsModel.Lib.Text
import OsModel.Net.Strings
import OsModel.Net.SafeStrings
import OsModel.KernelMemory.SwapChunks
import OsModel.System.StickRequests
import OsModel.KernelScheduler.SwapWaits
import OsModel.System.SwapRequests
import OsModel.System.SwapTriggers
import OsModel.KernelScheduler.IoSections
import OsModel.KernelScheduler.IoBooks
import OsModel.KernelScheduler.IoRequests
import OsModel.Lib.Queues
import OsModel.KernelScheduler.EvictionOrder
import OsModel.KernelScheduler.QueuePreemption
import OsModel.KernelScheduler.Spares
import OsModel.KernelScheduler.FirstQueues
import OsModel.Cpu.NextInstruction
import OsModel.System.Fetches
import OsModel.System.FetchBounds
import OsModel.Lib.Locks
import OsModel.KernelScheduler.Locks
import OsModel.KernelMemory.Locks
import OsModel.Lib.Channel
import OsModel.System.Wires
import OsModel.System.CpuWires
import OsModel.Swap
import OsModel.System.SwapSession
import OsModel.Lib.Exchange
import OsModel.System.StickSessions
import OsModel.System.StickAccesses
import OsModel.System.Stdout
import OsModel.System.StdinWrite
import OsModel.Lib.Worker
import OsModel.System.IoWires
import OsModel.Lib.Interference
import OsModel.Cpu.PlainLines
import OsModel.System.Scripts
import OsModel.System.CountedLoops
import OsModel.KernelScheduler.Ends
import OsModel.Lib.Refinement
import OsModel.System.MemoryRefinement
import OsModel.System.SchedulerSections
import OsModel.System.SchedulerRefinement
