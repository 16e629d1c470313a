import MonolithicKernel.FileSystem.Descriptors

/-!
Owns the process tables and the functions that change them: `process_create`,
`process_start`, `process_switch`, `execute_handler`, `halt_handler`, the
process side of `switch_terminal`, and `rtc_handler`. Each function runs without
interruption here. `process_create` is cut into the pieces between which the
code enables interrupts, so that an interleaved machine can run the same pieces.

A PCB pointer is the pid whose PCB it is, and a null pointer is `none`; -1 as a
pid is `none`. A saved `kernel_esp` and `kernel_ebp` pair is the place the stack
returns to. A function has no result when it dereferences a null jump table or
leaves the pages that are present.

Does not own the screen, the line buffers or the order of interrupts.
-/

namespace MonolithicKernel.Process

open MonolithicKernel.FileSystem
open MonolithicKernel.Lib

abbrev Pid := Fin 6

abbrev Terminal := Fin 3

instance neZero_pids : NeZero 6 := ⟨by decide⟩

instance neZero_terminals : NeZero 3 := ⟨by decide⟩

/-- An entry of `active_pids`: -1, 0 and 1. -/
inductive PidStatus where
  | unused
  | created
  | active
deriving DecidableEq, Repr

/-- Where a saved kernel stack returns to. `process_create` points a new stack
at its top; `process_start` and `process_switch` save the stack they run on. -/
inductive Context where
  | stackTop
  | inBoot
  | inExecute
  | inHalt
  | inSwitchTerminal
  | inTick
deriving DecidableEq, Repr

/-- `pcb_t`. -/
structure Pcb where
  fileDescriptors : FdTable
  kernelContext : Context
  pid : Pid
  parentPcb : Option Pid
  terminalId : Terminal
  args : Bytes

/-- A 4MB user page, by offset. -/
abbrev Frame := Nat → UInt8

structure Kernel where
  activePids : Pid → PidStatus
  terminalPids : Terminal → Option Pid
  currentPid : Option Pid
  pcb : Pid → Pcb
  /-- The PCB whose table `file_descriptors` points at. -/
  fileDescriptors : Option Pid
  /-- `page_directory[32].pd_4mb.address_31_22`. -/
  userFrame : Nat
  /-- `tss.esp0`. -/
  esp0 : Nat
  frames : Pid → Frame
  terminalActive : Terminal → Bool
  currentTerminal : Terminal
  rtcCount : Nat
  currentIndex : Terminal

/-- What the processor does when a function is over. -/
inductive Resumption where
  /-- The function returns to its caller. -/
  | back (value : Int)
  /-- `iret` to the entry point of a new process. -/
  | started (pid : Pid) (entryPoint : Nat)
  /-- `process_switch` returns on the stack of another process. -/
  | switched (pid : Pid) (context : Context)
  /-- `halt_handler` returns its status on the stack of the parent. -/
  | returned (pid : Pid) (context : Context) (status : UInt32)
deriving DecidableEq, Repr

/-- The function returns `value` when it returns to its caller at all. -/
def Resumption.withValue (value : Int) : Resumption → Resumption
  | .back _ => .back value
  | other => other

namespace Kernel

/-- `processes_init`. -/
def processesInit (kernel : Kernel) : Kernel :=
  { kernel with
    activePids := fun _ => .unused
    terminalPids := fun _ => none
    currentPid := none }

/-- `get_free_pid`. -/
def getFreePid (kernel : Kernel) : Option Pid :=
  (List.finRange 6).find? fun pid => kernel.activePids pid = .unused

/-- `get_pcb_pointer`. -/
def getPcbPointer (pid : Pid) : Nat := 0x800000 - 0x2000 * (1 + pid.val)

/-- `get_kernel_start_esp`. -/
def getKernelStartEsp (pid : Pid) : Nat := 0x800000 - 0x2000 * pid.val - 0x4

/-- `set_paging_for_process`. -/
def setPagingForProcess (kernel : Kernel) (pid : Pid) : Kernel :=
  { kernel with userFrame := 2 + pid.val }

/-- Replace one PCB. -/
def setPcb (kernel : Kernel) (pid : Pid) (pcb : Pcb) : Kernel :=
  { kernel with pcb := Function.update kernel.pcb pid pcb }

@[simp] theorem setPcb_pcb_self (kernel : Kernel) (pid : Pid) (pcb : Pcb) :
    (kernel.setPcb pid pcb).pcb pid = pcb :=
  Function.update_self ..

theorem setPcb_pcb_of_ne {pid other : Pid} (ne : other ≠ pid) (kernel : Kernel) (pcb : Pcb) :
    (kernel.setPcb pid pcb).pcb other = kernel.pcb other :=
  Function.update_of_ne ne ..

/-- Replace one entry of `active_pids`. -/
def setActive (kernel : Kernel) (pid : Pid) (status : PidStatus) : Kernel :=
  { kernel with activePids := Function.update kernel.activePids pid status }

end Kernel

/-! ### `process_create` -/

/-- The command scan of `process_create`: `file_name` and `file_args`. Without a
space or a NUL in the first 32 bytes `file_args` stays as the stack left it. -/
def scanCommand (staleArgs : Bytes) : Nat → Bytes → Bytes × Bytes
  | 0, _ => ([], staleArgs)
  | room + 1, command =>
      if command.headD 0 = 0 then ([], [0])
      else if command.headD 0 = 0x20 then ([], strncpy command.tail 128)
      else
        let scanned := scanCommand staleArgs room command.tail
        (command.headD 0 :: scanned.1, scanned.2)

/-- The C string "ELF". -/
def elfName : Bytes := [0x45, 0x4C, 0x46]

/-- The part of `process_create` before interrupts are enabled: the inode of the
executable, or `none` for -1. -/
def findExecutable (image : Image) (fileName : Bytes) : Option Nat :=
  match readDentryByName image (some fileName) with
  | none => none
  | some dentry =>
      if dentry.fileType ≠ 2 then none
      else
        let fileStartBytes := readData image dentry.inode 0 4
        if fileStartBytes.length ≠ 4 then none
        else if strncmp (fileStartBytes.drop 1) elfName 3 = 0 ∧ fileStartBytes.headD 0 = 0x7F then
          some dentry.inode
        else none

/-- The load loop of `process_create` from `file_pos` on. A store behind the
user page faults. The page has room for 952 rounds, so the rounds never run out
first. -/
def loadLoop (image : Image) (inode : Nat) : Nat → Nat → Frame → Option Frame
  | 0, _, _ => none
  | rounds + 1, filePos, frame =>
      let bytes := readData image inode filePos 4096
      let memoryPos := 0x00048000 + filePos
      if bytes.length = 0 then some frame
      else if memoryPos + bytes.length > 0x400000 then none
      else
        loadLoop image inode rounds (filePos + 4096) fun offset =>
          if memoryPos ≤ offset ∧ offset < memoryPos + bytes.length then
            bytes.getD (offset - memoryPos) 0
          else frame offset

/-- The descriptor table that `process_create` leaves: the terminal on 0 and 1,
and the other slots free with what the PCB held before. -/
def newFileDescriptors (old : FdTable) : FdTable := fun slot =>
  if slot = 0 ∨ slot = 1 then
    { old slot with fileTablePtr := some .terminal, inode := terminalInode }
  else { old slot with inode := freeInode }

/-- What `process_create` writes for a pid whose frame is loaded. -/
def setUpProcess (fileArgs : Bytes) (terminal : Terminal) (hasParent : Bool) (kernel : Kernel)
    (pid : Pid) (frame : Frame) : Kernel :=
  { kernel.setPagingForProcess pid with
    frames := Function.update kernel.frames pid frame
    pcb := Function.update kernel.pcb pid
      { fileDescriptors := newFileDescriptors (kernel.pcb pid).fileDescriptors
        kernelContext := .stackTop
        pid := pid
        parentPcb := if hasParent then kernel.currentPid else none
        terminalId := terminal
        args := strncpy fileArgs 128 } }

/-- `process_create` from its `cli` on, for a pid that it has claimed. -/
def finishCreate (image : Image) (inode : Nat) (fileArgs : Bytes) (terminal : Terminal)
    (hasParent : Bool) (kernel : Kernel) (pid : Pid) : Option Kernel :=
  (loadLoop image inode 953 0 (kernel.frames pid)).map
    (setUpProcess fileArgs terminal hasParent kernel pid)

/-- `process_create`: the pid, or `none` for -1. -/
def processCreate (image : Image) (command staleArgs : Bytes) (terminal : Terminal)
    (hasParent : Bool) (kernel : Kernel) : Option (Option Pid × Kernel) :=
  let scanned := scanCommand staleArgs 32 command
  match findExecutable image scanned.1 with
  | none => some (none, kernel)
  | some inode =>
      match kernel.getFreePid with
      | none => some (none, kernel)
      | some pid =>
          (finishCreate image inode scanned.2 terminal hasParent (kernel.setActive pid .created)
            pid).map fun kernel => (some pid, kernel)

/-! ### `process_start` and `process_switch` -/

/-- The current process, if there is one, gets its kernel stack saved. -/
def saveContext (context : Context) (kernel : Kernel) : Kernel :=
  { kernel with
    pcb := fun pid =>
      if kernel.currentPid = some pid then { kernel.pcb pid with kernelContext := context }
      else kernel.pcb pid }

/-- The 32-bit word at an offset of a frame. -/
def frameWord (frame : Frame) (offset : Nat) : Nat :=
  (frame offset).toNat + 256 * (frame (offset + 1)).toNat + 65536 * (frame (offset + 2)).toNat +
    16777216 * (frame (offset + 3)).toNat

/-- `process_start` after its checks. -/
def enterProcess (caller : Context) (kernel : Kernel) (pid : Pid) : Kernel :=
  let kernel := saveContext caller ((kernel.setActive pid .active).setPagingForProcess pid)
  { kernel with
    currentPid := some pid
    fileDescriptors := some pid
    terminalPids := Function.update kernel.terminalPids (kernel.pcb pid).terminalId (some pid)
    esp0 := Kernel.getKernelStartEsp pid }

/-- What `process_create` returns, converted to the `uint8_t` of `process_start`. -/
def pidArgument (result : Option Pid) : UInt8 :=
  UInt8.ofInt (match result with
    | none => -1
    | some pid => pid.val)

/-- The first check of `process_start`. -/
def argumentPid (argument : UInt8) : Option Pid :=
  if valid : argument.toNat < 6 then some ⟨argument.toNat, valid⟩ else none

/-- The conversion keeps every pid, and makes none of -1. -/
@[simp] theorem argumentPid_pidArgument (result : Option Pid) :
    argumentPid (pidArgument result) = result := by
  cases result with
  | none => decide
  | some pid =>
      revert pid
      decide

/-- `process_start` of what `process_create` returned, called from the place `caller`. -/
def processStart (caller : Context) (kernel : Kernel) (result : Option Pid) : Kernel × Resumption :=
  match argumentPid (pidArgument result) with
  | none => (kernel, .back (-1))
  | some pid =>
      if kernel.activePids pid ≠ .created then (kernel, .back (-1))
      else
        (enterProcess caller kernel pid,
          .started pid (frameWord (kernel.frames pid) (0x00048000 + 24)))

theorem processStart_some (caller : Context) (kernel : Kernel) (pid : Pid) :
    processStart caller kernel (some pid) =
      if kernel.activePids pid ≠ .created then (kernel, .back (-1))
      else
        (enterProcess caller kernel pid,
          .started pid (frameWord (kernel.frames pid) (0x00048000 + 24))) := by
  rw [processStart, argumentPid_pidArgument]

/-- `process_switch`. -/
def processSwitch (kernel : Kernel) (pid : Pid) : Kernel × Resumption :=
  let kernel := saveContext .inTick kernel
  ({ kernel with
      esp0 := Kernel.getKernelStartEsp pid
      currentPid := some pid
      fileDescriptors := some pid }.setPagingForProcess pid,
    .switched pid (kernel.pcb pid).kernelContext)

/-! ### System calls -/

/-- `execute_handler` of the current process. -/
def executeHandler (image : Image) (command staleArgs : Bytes) (kernel : Kernel) :
    Option (Kernel × Resumption) :=
  kernel.currentPid.bind fun current =>
    (processCreate image command staleArgs (kernel.pcb current).terminalId true kernel).map
      fun created => processStart .inExecute created.2 created.1

/-- The C string "shell". -/
def shellName : Bytes := [0x73, 0x68, 0x65, 0x6C, 0x6C]

/-- `process_start(process_create("shell", terminal, -1))`. -/
def startShell (image : Image) (caller : Context) (terminal : Terminal) (kernel : Kernel) :
    Option (Kernel × Resumption) :=
  (processCreate image shellName [] terminal false kernel).map fun created =>
    processStart caller created.2 created.1

/-- One round of the loop of `halt_handler` that closes descriptors. -/
def closeRound (fds : FdTable) (i : Fin 8) : Option FdTable :=
  if (fds i).inode = freeInode then some fds
  else (fds i).fileTablePtr.map fun table => (table.close fds i.val).2

/-- That loop: descriptors 2 to 7. -/
def closeAll (fds : FdTable) : Option FdTable := [2, 3, 4, 5, 6, 7].foldlM closeRound fds

/-- Use the table that `file_descriptors` points at. -/
def withFileDescriptors {result : Type} (kernel : Kernel) (use : FdTable → Option (result × FdTable)) :
    Option (result × Kernel) :=
  kernel.fileDescriptors.bind fun owner =>
    (use (kernel.pcb owner).fileDescriptors).map fun used =>
      (used.1, kernel.setPcb owner { kernel.pcb owner with fileDescriptors := used.2 })

/-- `halt_handler` closes the descriptors of the table in use. -/
def closeDescriptors (kernel : Kernel) : Option Kernel :=
  (withFileDescriptors kernel fun fds => (closeAll fds).map fun fds => ((), fds)).map Prod.snd

/-- `halt_handler` after its descriptors are closed: back to the parent. -/
def returnToParent (kernel : Kernel) (pid parent : Pid) (status : UInt32) : Kernel × Resumption :=
  let parentPid := (kernel.pcb parent).pid
  (({ kernel with
      esp0 := Kernel.getKernelStartEsp parentPid
      fileDescriptors := some parent
      currentPid := some parentPid
      terminalPids :=
        Function.update kernel.terminalPids (kernel.pcb parent).terminalId (some parentPid)
    }.setActive pid .unused).setPagingForProcess parentPid,
    .returned parent (kernel.pcb parent).kernelContext status)

/-- `halt_handler` of the current process. -/
def haltHandler (image : Image) (status : UInt32) (kernel : Kernel) :
    Option (Kernel × Resumption) :=
  kernel.currentPid.bind fun pid =>
    (closeDescriptors kernel).bind fun kernel =>
      match (kernel.pcb pid).parentPcb with
      | none =>
          (startShell image .inHalt (kernel.pcb pid).terminalId
            ({ kernel with currentPid := none }.setActive pid .unused)).map
              fun started => (started.1, started.2.withValue 0)
      | some parent => some (returnToParent kernel pid parent status)

/-! ### Interrupts -/

/-- The process side of `switch_terminal`. -/
def switchTerminal (image : Image) (termId : Terminal) (kernel : Kernel) :
    Option (Kernel × Resumption) :=
  if termId = kernel.currentTerminal then some (kernel, .back 0)
  else if kernel.getFreePid = none ∧ kernel.terminalActive termId = false then
    some (kernel, .back 0)
  else
    let kernel := { kernel with currentTerminal := termId }
    if kernel.terminalActive termId = false then
      (startShell image .inSwitchTerminal termId
        { kernel with terminalActive := Function.update kernel.terminalActive termId true }).map
          fun started => (started.1, started.2.withValue 0)
    else some (kernel, .back 0)

/-- The counters of the RTC slots of one table, moved one tick on. -/
def tickCounters (fds : FdTable) : FdTable := fun slot =>
  if 2 ≤ slot ∧ (fds slot).fileTablePtr = some .rtc ∧ 0 < (fds slot).filePos then
    { fds slot with filePos := (fds slot).filePos - 1 }
  else fds slot

/-- One round of the counter loop of `rtc_handler`. -/
def updateCounters (kernel : Kernel) (terminal : Terminal) : Kernel :=
  match kernel.terminalPids terminal with
  | none => kernel
  | some pid => kernel.setPcb pid { kernel.pcb pid with
      fileDescriptors := tickCounters (kernel.pcb pid).fileDescriptors }

/-- The scheduling loop of `rtc_handler`, with the rounds it has left. -/
def scheduleLoop : Nat → Kernel → Kernel × Resumption
  | 0, kernel => (kernel, .back 0)
  | rounds + 1, kernel =>
      let kernel := { kernel with currentIndex := kernel.currentIndex + 1 }
      match kernel.terminalPids kernel.currentIndex with
      | none => scheduleLoop rounds kernel
      | some pid =>
          if some pid ≠ kernel.currentPid then processSwitch kernel pid
          else scheduleLoop rounds kernel

/-- `rtc_handler`. -/
def rtcHandler (kernel : Kernel) : Kernel × Resumption :=
  let kernel := (List.finRange 3).foldl updateCounters kernel
  let kernel := { kernel with rtcCount := kernel.rtcCount - 1 }
  if kernel.rtcCount = 0 then scheduleLoop 3 { kernel with rtcCount := 8 }
  else (kernel, .back 0)

/-! ### Boot -/

/-- The kernel that `entry` hands to its first `process_start`: statics as the C
file initialises them, the user page where `paging_init` points it, and PCBs and frames as the
memory happened to be. -/
def bootKernel (pcb : Pid → Pcb) (frames : Pid → Frame) : Kernel :=
  { activePids := fun _ => .created
    terminalPids := fun _ => some 0
    currentPid := some 0
    pcb := pcb
    fileDescriptors := none
    userFrame := 0xFF
    esp0 := 0x800000
    frames := frames
    terminalActive := fun terminal => terminal = 0
    currentTerminal := 0
    rtcCount := 0
    currentIndex := 0 : Kernel }.processesInit

/-- The end of `entry`: the first shell, on terminal 0. -/
def boot (image : Image) (pcb : Pid → Pcb) (frames : Pid → Frame) : Option Kernel :=
  (startShell image .inBoot 0 (bootKernel pcb frames)).map Prod.fst

end MonolithicKernel.Process
