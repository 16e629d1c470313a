import MonolithicKernel.Foundation.Runs
import MonolithicKernel.Foundation.Simulation
import MonolithicKernel.Foundation.ParentChain
import MonolithicKernel.Foundation.Ownership
import MonolithicKernel.Foundation.PagedMemory
import MonolithicKernel.Foundation.RoundRobin
import MonolithicKernel.Foundation.BoundedLoops
import MonolithicKernel.Foundation.Numerals
import MonolithicKernel.Foundation.WordRanges
import MonolithicKernel.Foundation.X86
import MonolithicKernel.Foundation.BitFields
import MonolithicKernel.Foundation.WordMemory
import MonolithicKernel.Foundation.PageWalk
import MonolithicKernel.Foundation.Descriptors
import MonolithicKernel.Foundation.ByteStack
import MonolithicKernel.Foundation.StackMachine
import MonolithicKernel.Foundation.CmosClock
import MonolithicKernel.Foundation.InterruptController
import MonolithicKernel.Lib.Strings
import MonolithicKernel.Lib.Itoa
import MonolithicKernel.Lib.Printf
import MonolithicKernel.Lib.FormatEnd
import MonolithicKernel.Lib.Numbers
import MonolithicKernel.Lib.MemoryRoutines
import MonolithicKernel.FileSystem.Image
import MonolithicKernel.FileSystem.ReadData
import MonolithicKernel.FileSystem.Lookup
import MonolithicKernel.FileSystem.ExactLookup
import MonolithicKernel.FileSystem.ReadSlice
import MonolithicKernel.FileSystem.Descriptors
import MonolithicKernel.FileSystem.Dispatch
import MonolithicKernel.FileSystem.RoundTrip
import MonolithicKernel.FileSystem.Enumeration
import MonolithicKernel.FileSystem.ChunkedRead
import MonolithicKernel.Syscall.UserPointers
import MonolithicKernel.Process.Kernel
import MonolithicKernel.Process.Fields
import MonolithicKernel.Process.DescriptorTable
import MonolithicKernel.Process.RtcSlots
import MonolithicKernel.Process.Launch
import MonolithicKernel.Process.CommandLine
import MonolithicKernel.Process.Stacks
import MonolithicKernel.Process.Effects
import MonolithicKernel.Process.Machine
import MonolithicKernel.Process.Frames
import MonolithicKernel.Process.Fairness
import MonolithicKernel.Process.TableInvariant
import MonolithicKernel.Process.TableRuns
import MonolithicKernel.Process.Bracketing
import MonolithicKernel.Process.Coherence
import MonolithicKernel.Process.Loading
import MonolithicKernel.Process.FailedExecute
import MonolithicKernel.Process.ExecuteResult
import MonolithicKernel.Process.VirtualRtc
import MonolithicKernel.Process.Preemption
import MonolithicKernel.Process.PathInvariant
import MonolithicKernel.Process.PathSteps
import MonolithicKernel.Process.LaunchSteps
import MonolithicKernel.Process.Scheduling
import MonolithicKernel.Input.Keyboard
import MonolithicKernel.Input.LineBounds
import MonolithicKernel.Input.Isolation
import MonolithicKernel.Input.LineEditor
import MonolithicKernel.Input.LineDiscipline
import MonolithicKernel.Input.ScanCodes
import MonolithicKernel.Input.Modifiers
import MonolithicKernel.Screen.Video
import MonolithicKernel.Screen.PrivateScreen
import MonolithicKernel.Screen.Drawing
import MonolithicKernel.Screen.Isolation
import MonolithicKernel.Screen.Writes
import MonolithicKernel.Screen.ShownLine
import MonolithicKernel.Input.Echo
import MonolithicKernel.Syscall.Arguments
import MonolithicKernel.Paging.Tables
import MonolithicKernel.Paging.Mappings
import MonolithicKernel.Paging.Protection
import MonolithicKernel.Process.MemoryIsolation
import MonolithicKernel.Paging.Realization
import MonolithicKernel.Interrupts.DescriptorTables
import MonolithicKernel.Interrupts.Pic
import MonolithicKernel.Interrupts.Delivery
import MonolithicKernel.Interrupts.InService
import MonolithicKernel.Interrupts.Clock
import MonolithicKernel.Interrupts.Wrappers
import MonolithicKernel.Interrupts.SystemCalls
import MonolithicKernel.Interrupts.KernelText
import MonolithicKernel.Interrupts.Transparency
import MonolithicKernel.Interrupts.Exceptions
import MonolithicKernel.Interrupts.UserEntry
import MonolithicKernel.Interrupts.RealTimeClock
