import MonolithicKernel.Foundation.RoundRobin
import MonolithicKernel.Process.Fields
import MonolithicKernel.Process.Launch
import MonolithicKernel.Process.Machine

/-!
Owns the scheduler's turns. Only a tick at which `rtc_count` comes down to 0
decides, and only such a tick moves `current_index`; a decision is a round-robin
scan for the next terminal whose process waits. Calls and terminal switches
between decisions change who waits and leave the ring where it is.

Does not own what a switch does to the processes.
-/

namespace MonolithicKernel.Process

open MonolithicKernel.FileSystem
open MonolithicKernel.Foundation

/-- The terminal has a process that is not the running one. -/
def Kernel.waits (kernel : Kernel) (terminal : Terminal) : Bool :=
  match kernel.terminalPids terminal with
  | none => false
  | some pid => decide (some pid ≠ kernel.currentPid)

/-- Ticks at which `rtc_handler` finds `rtc_count` at 0 after its decrement. -/
def Kernel.decides (kernel : Kernel) : Call → Bool
  | .tick => kernel.rtcCount - 1 = 0
  | _ => false

section Steps

variable {image : Image} {kernel kernel' : Kernel} {call : Call}

end Steps

end MonolithicKernel.Process
