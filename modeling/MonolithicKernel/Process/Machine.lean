import MonolithicKernel.Foundation.Runs
import MonolithicKernel.Syscall.UserPointers

/-!
Owns the machine whose steps are whole system calls of the running process,
terminal switches and timer ticks.

What a read stores in the user page is stored to the frame of the running process. What it
stores elsewhere faults, or reaches memory that is not owned here. Does not own what user
programs compute: every sequence of calls is a run.
-/

namespace MonolithicKernel.Process

open MonolithicKernel.FileSystem
open MonolithicKernel.Foundation
open MonolithicKernel.Lib
open MonolithicKernel.Syscall (inUserPage)

inductive Call where
  | execute (command staleArgs : Bytes)
  | halt (status : UInt32)
  | open (filename : Bytes)
  | close (fd : Int)
  | read (fd : Int) (buf : Nat) (nbytes : Int) (line : TerminalLine)
  | write (fd : Int) (buf : Option Bytes) (nbytes : Int)
  | switchTerminal (termId : Terminal)
  | tick

/-- A byte goes to the frame behind the user page. -/
def Kernel.store (offset : Nat) (byte : UInt8) (kernel : Kernel) : Kernel :=
  { kernel with
    frames := fun pid =>
      if kernel.userFrame = 2 + pid.val then Function.update (kernel.frames pid) offset byte
      else kernel.frames pid }

/-- The kernel stores bytes from a pointer of the running process on. -/
def Kernel.storeFrom : Nat → Bytes → Kernel → Kernel
  | _, [], kernel => kernel
  | pointer, byte :: bytes, kernel =>
      storeFrom (pointer + 1) bytes
        (if inUserPage (pointer % 2 ^ 32) then
          kernel.store (pointer % 2 ^ 32 - 0x08000000) byte
        else kernel)

/-- The running process uses its descriptor table. -/
def useFileDescriptors (kernel : Kernel) (use : FdTable → Option (Int × FdTable)) :
    Option (Kernel × Resumption) :=
  (withFileDescriptors kernel use).map fun used => (used.2, .back used.1)

/-- What `read_handler` makes of a read of the running process. -/
def Kernel.readResult (image : Image) (fd : Int) (buf : Nat) (nbytes : Int) (line : TerminalLine)
    (kernel : Kernel) : Option ReadResult :=
  kernel.fileDescriptors.bind fun owner =>
    readHandler image line (kernel.pcb owner).fileDescriptors fd buf nbytes

/-- One step of the machine and what the processor does after it. -/
def Kernel.call (image : Image) (kernel : Kernel) : Call → Option (Kernel × Resumption)
  | .execute command staleArgs => executeHandler image command staleArgs kernel
  | .halt status => haltHandler image status kernel
  | .open filename => useFileDescriptors kernel fun fds =>
      some (openReturn (openHandler image fds filename).1, (openHandler image fds filename).2)
  | .close fd => useFileDescriptors kernel fun fds => closeHandler fds fd
  | .read fd buf nbytes line =>
      (withFileDescriptors kernel fun fds =>
        (readHandler image line fds fd buf nbytes).map fun result => (result, result.fds)).map
          fun used => (used.2.storeFrom buf used.1.stored, .back used.1.ret)
  | .write fd buf nbytes => useFileDescriptors kernel fun fds => writeHandler fds fd buf nbytes
  | .switchTerminal termId => switchTerminal image termId kernel
  | .tick => some (rtcHandler kernel)

def Kernel.step (image : Image) : Step Kernel Call :=
  fun kernel call => (kernel.call image call).map Prod.fst

end MonolithicKernel.Process
