import LettuceKernel.Lib.Run
import LettuceKernel.Lib.Unwinding
import LettuceKernel.Lib.ArrayStack
import LettuceKernel.Lib.PackedWord
import LettuceKernel.Lib.TableFold
import LettuceKernel.Lib.SlotHandle
import LettuceKernel.Lib.Generations
import LettuceKernel.Lib.Translation
import LettuceKernel.Lib.TranslationCache
import LettuceKernel.Lib.Ring
import LettuceKernel.Lib.FirstMin
import LettuceKernel.Lib.ByteMemory
import LettuceKernel.Lib.A64
import LettuceKernel.Lib.VirtualMemory
import LettuceKernel.Types
import LettuceKernel.Capability
import LettuceKernel.CapabilityRefinement
import LettuceKernel.CapabilityStale
import LettuceKernel.Registry
import LettuceKernel.Gates
import LettuceKernel.Provenance
import LettuceKernel.Task
import LettuceKernel.TaskIds
import LettuceKernel.Policy
import LettuceKernel.Scheduler
import LettuceKernel.SchedulerDecision
import LettuceKernel.SchedulerVisibility
import LettuceKernel.SchedulerContext
import LettuceKernel.SingleRunning
import LettuceKernel.SleepingTask
import LettuceKernel.RoundRobin
import LettuceKernel.EevdfChoice
import LettuceKernel.EevdfStep
import LettuceKernel.EevdfClock
import LettuceKernel.TaskSlices
import LettuceKernel.EevdfBypass
import LettuceKernel.EevdfFairness
import LettuceKernel.EevdfDeadlines
import LettuceKernel.EevdfProgress
import LettuceKernel.Mmu
import LettuceKernel.Cpu
import LettuceKernel.ElevatorPaths
import LettuceKernel.CallUnwinding
import LettuceKernel.Excursions
import LettuceKernel.CallFrames
import LettuceKernel.TaskIdentity
import LettuceKernel.GateContext
import LettuceKernel.RegistryMap
import LettuceKernel.CallPaths
import LettuceKernel.AuthorityLifetime
import LettuceKernel.Memory
import LettuceKernel.MemoryBlocks
import LettuceKernel.MemoryStale
import LettuceKernel.MemoryFirstFit
import LettuceKernel.DynamicArray
import LettuceKernel.CapabilityHistory
import LettuceKernel.SharedBuffer
import LettuceKernel.SharedBufferHandles
import LettuceKernel.SharedBufferPayload
import LettuceKernel.SharedBufferAccess
import LettuceKernel.PageTables
import LettuceKernel.AddressSpaces
import LettuceKernel.Posix
import LettuceKernel.PosixPointers
import LettuceKernel.PosixTime
import LettuceKernel.Syscalls
import LettuceKernel.KernelAccesses
import LettuceKernel.Board
import LettuceKernel.BoardInvariant
import LettuceKernel.BoardIsolation
import LettuceKernel.AuthorityClosure
import LettuceKernel.HostRefinement
import LettuceKernel.Exceptions
import LettuceKernel.Interrupts
import LettuceKernel.SchedulerCounters
import LettuceKernel.PosixClient
import LettuceKernel.SyncExceptions
import LettuceKernel.Console
import LettuceKernel.ContextSwitch
import LettuceKernel.SleepQueue
import LettuceKernel.Boot
import LettuceKernel.Lib.InsertionSort
import LettuceKernel.SleepMs
import LettuceKernel.TestReport
import LettuceKernel.BenchReport
import LettuceKernel.GicSetup
