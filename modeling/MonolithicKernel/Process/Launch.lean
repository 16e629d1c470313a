import MonolithicKernel.FileSystem.Dispatch
import MonolithicKernel.Process.Fields

/-!
Owns what a successful `process_create` followed by `process_start` leaves: the
changed fields of the tables, one by one, and the fact that a shell which loads
without a fault always starts while a pid is free.

Does not own what the tables mean as a whole.
-/

namespace MonolithicKernel.Process

open MonolithicKernel.FileSystem
open MonolithicKernel.Lib

/-! ### Free pids -/

theorem unused_of_getFreePid {kernel : Kernel} {pid : Pid} (found : kernel.getFreePid = some pid) :
    kernel.activePids pid = .unused := by
  simpa using List.find?_some found

theorem exists_getFreePid {kernel : Kernel} {pid : Pid} (unused : kernel.activePids pid = .unused) :
    ∃ found, kernel.getFreePid = some found := by
  apply Option.isSome_iff_exists.mp
  rw [Kernel.getFreePid, List.find?_isSome]
  exact ⟨pid, List.mem_finRange pid, by simpa using unused⟩

/-! ### Loading -/

/-- A file that fits behind the program's start offset is loaded without a
fault. Every round but the last reads a whole page. -/
theorem exists_loadLoop {image : Image} {inode : Nat} (fits : image.fileLength inode ≤ 0x3B8000) :
    ∀ (rounds filePos : Nat) (frame : Frame), filePos < image.fileLength inode + 4096 →
      image.fileLength inode + 4096 ≤ filePos + 4096 * rounds →
      ∃ loaded, loadLoop image inode rounds filePos frame = some loaded := by
  intro rounds
  induction rounds with
  | zero =>
      intro filePos frame near enough
      omega
  | succ rounds inductionHypothesis =>
      intro filePos frame near enough
      have count := length_readData image inode filePos (show 4096 < 2 ^ 32 by omega)
      rw [if_pos (by omega)] at count
      unfold loadLoop
      dsimp only
      split_ifs with finished behind
      · exact ⟨frame, rfl⟩
      · omega
      · apply inductionHypothesis
        · omega
        · omega

/-- The image holds an executable shell that fits into its page. -/
def LoadableShell (image : Image) : Prop :=
  ∃ inode, findExecutable image shellName = some inode ∧ image.fileLength inode ≤ 0x3B8000

/-- The shell is found, and its load ends without a fault. -/
def StartableShell (image : Image) : Prop :=
  ∃ inode, findExecutable image shellName = some inode ∧
    ∀ frame, ∃ loaded, loadLoop image inode 953 0 frame = some loaded

theorem LoadableShell.startable {image : Image} (shell : LoadableShell image) :
    StartableShell image := by
  rcases shell with ⟨inode, found, fits⟩
  exact ⟨inode, found, fun frame => exists_loadLoop fits _ _ frame (by omega) (by omega)⟩

/-- Whether a load faults does not depend on what the page held. -/
theorem exists_loadLoop_of_eq_some {image : Image} {inode : Nat} :
    ∀ {rounds filePos : Nat} {frame loaded : Frame} (other : Frame),
      loadLoop image inode rounds filePos frame = some loaded →
      ∃ loaded', loadLoop image inode rounds filePos other = some loaded' := by
  intro rounds
  induction rounds with
  | zero =>
      intro filePos frame loaded other done
      cases done
  | succ rounds inductionHypothesis =>
      intro filePos frame loaded other done
      unfold loadLoop at done ⊢
      dsimp only at done ⊢
      split_ifs at done ⊢
      · exact ⟨other, rfl⟩
      · exact inductionHypothesis _ done

/-- One executable of four bytes, called "shell", inode 0. -/
def shellImage : Image :=
  .ofCells [(0, 1), (4, 1), (8, 1), (64, 0x73), (65, 0x68), (66, 0x65), (67, 0x6C), (68, 0x6C),
    (96, 2), (4096, 4), (8192, 0x7F), (8193, 0x45), (8194, 0x4C), (8195, 0x46)]

theorem shellImage_loadable : LoadableShell shellImage := ⟨0, by decide, by decide⟩

/-- A PCB as zeroed memory. -/
def zeroPcb : Pcb := ⟨fun _ => ⟨none, 0, 0, 0⟩, .stackTop, 0, none, 0, []⟩

/-! ### Creating and starting -/

/-- A process `pid` launched on `terminal`: the one kernel and the next. -/
structure Launched (caller : Context) (terminal : Terminal) (parent : Option Pid)
    (kernel kernel' : Kernel) (pid : Pid) : Prop where
  activePids : kernel'.activePids = Function.update kernel.activePids pid .active
  terminalPids : kernel'.terminalPids = Function.update kernel.terminalPids terminal (some pid)
  currentPid : kernel'.currentPid = some pid
  parentPcb : (kernel'.pcb pid).parentPcb = parent
  terminalId : (kernel'.pcb pid).terminalId = terminal
  pidField : (kernel'.pcb pid).pid = pid
  dispatchable : Dispatchable (kernel'.pcb pid).fileDescriptors
  saved : ∀ current, kernel.currentPid = some current →
    kernel'.pcb current = { kernel.pcb current with kernelContext := caller }
  others : ∀ other, other ≠ pid → kernel.currentPid ≠ some other →
    kernel'.pcb other = kernel.pcb other
  fileDescriptors : kernel'.fileDescriptors = some pid
  userFrame : kernel'.userFrame = 2 + pid.val
  esp0 : kernel'.esp0 = Kernel.getKernelStartEsp pid
  terminalActive : kernel'.terminalActive = kernel.terminalActive
  currentTerminal : kernel'.currentTerminal = kernel.currentTerminal

theorem dispatchable_newFileDescriptors (old : FdTable) :
    Dispatchable (newFileDescriptors old) := by
  intro slot used
  unfold newFileDescriptors at used ⊢
  split_ifs at used ⊢
  · exact ⟨.terminal, rfl⟩
  · exact absurd rfl used

section Launch

variable {image : Image} {command staleArgs : Bytes} {terminal : Terminal} {hasParent : Bool}
  {kernel : Kernel} {caller : Context}

theorem processStart_created {pid : Pid} (created : kernel.activePids pid = .created) :
    processStart caller kernel (some pid) =
      (enterProcess caller kernel pid,
        .started pid (frameWord (kernel.frames pid) (0x00048000 + 24))) := by
  rw [processStart_some, if_neg (not_not.mpr created)]

/-- Starting the process that `finishCreate` has set up for a claimed pid. -/
theorem launched_of_finishCreate (caller : Context) {inode : Nat} {fileArgs : Bytes}
    {created : Kernel} {pid : Pid}
    (claimed : kernel.activePids pid = .created) (notCurrent : kernel.currentPid ≠ some pid)
    (finished : finishCreate image inode fileArgs terminal hasParent kernel pid = some created) :
    ∃ entryPoint, processStart caller created (some pid) =
        (enterProcess caller created pid, .started pid entryPoint) ∧
      Launched caller terminal (if hasParent then kernel.currentPid else none) kernel
        (enterProcess caller created pid) pid := by
  rcases Option.map_eq_some_iff.mp finished with ⟨frame, -, rfl⟩
  refine ⟨_, processStart_created claimed, ?_⟩
  unfold enterProcess saveContext setUpProcess Kernel.setActive Kernel.setPagingForProcess
  constructor
  case saved =>
    intro current isCurrent
    have other : current ≠ pid := fun same => notCurrent (same ▸ isCurrent)
    simp [isCurrent, other]
  case others =>
    intro other notPid notCurrent
    simp [notPid, notCurrent]
  all_goals simp [notCurrent, dispatchable_newFileDescriptors]

/-- The store that claims the pid may be counted to the launch. -/
theorem Launched.of_claimed {parent : Option Pid} {kernel' : Kernel} {pid : Pid}
    (launched : Launched caller terminal parent (kernel.setActive pid .created) kernel' pid) :
    Launched caller terminal parent kernel kernel' pid :=
  { launched with activePids := launched.activePids.trans (Function.update_idem ..) }

/-- `process_create` and `process_start` either fail together or launch a process. -/
theorem launch_cases {kernel' : Kernel} {resumption : Resumption}
    (running : ∀ current, kernel.currentPid = some current → kernel.activePids current = .active)
    (done : (processCreate image command staleArgs terminal hasParent kernel).map
      (fun created => processStart caller created.2 created.1) = some (kernel', resumption)) :
    (kernel' = kernel ∧ resumption = .back (-1)) ∨
      ∃ pid entryPoint, resumption = .started pid entryPoint ∧
        kernel.activePids pid = .unused ∧
        Launched caller terminal (if hasParent then kernel.currentPid else none) kernel kernel'
          pid := by
  rcases Option.map_eq_some_iff.mp done with ⟨⟨result, created⟩, createdEq, started⟩
  rcases processCreate_eq_some createdEq with
    ⟨rfl, rfl⟩ | ⟨inode, pid, -, isFree, rfl, finished⟩
  · cases started
    exact .inl ⟨rfl, rfl⟩
  · have unused := unused_of_getFreePid isFree
    have notCurrent : (kernel.setActive pid .created).currentPid ≠ some pid := by
      intro isCurrent
      cases unused.symm.trans (running pid isCurrent)
    rcases launched_of_finishCreate caller (Function.update_self ..) notCurrent
      finished with ⟨entryPoint, resumed, launched⟩
    cases resumed.symm.trans started
    exact .inr ⟨pid, entryPoint, rfl, unused, launched.of_claimed⟩

/-- A shell that can be loaded starts whenever a pid is free. -/
theorem exists_startShell (shell : StartableShell image) (caller : Context) (terminal : Terminal)
    (kernel : Kernel) {free : Pid}
    (unused : kernel.activePids free = .unused)
    (running : ∀ current, kernel.currentPid = some current → kernel.activePids current = .active) :
    ∃ kernel' pid entryPoint,
      startShell image caller terminal kernel = some (kernel', .started pid entryPoint) ∧
        kernel.activePids pid = .unused ∧ Launched caller terminal none kernel kernel' pid := by
  rcases shell with ⟨inode, found, loads⟩
  rcases exists_getFreePid unused with ⟨pid, freePid⟩
  rcases loads (kernel.frames pid) with ⟨frame, loaded⟩
  have scanned : scanCommand [] 32 shellName = (shellName, [0]) := by decide
  have created : ∃ created, finishCreate image inode [0] terminal false
      (kernel.setActive pid .created) pid = some created := by
    rw [finishCreate, Kernel.setActive, loaded]
    exact ⟨_, rfl⟩
  rcases created with ⟨created, finished⟩
  have pidUnused := unused_of_getFreePid freePid
  have notCurrent : (kernel.setActive pid .created).currentPid ≠ some pid := by
    intro isCurrent
    cases pidUnused.symm.trans (running pid isCurrent)
  rcases launched_of_finishCreate caller (Function.update_self ..) notCurrent
    finished with ⟨entryPoint, resumed, launched⟩
  refine ⟨_, pid, entryPoint, ?_, pidUnused, launched.of_claimed⟩
  rw [startShell, processCreate, scanned]
  dsimp only
  rw [found, freePid]
  dsimp only
  rw [finished, Option.map_some, Option.map_some, resumed]

/-- A shell that has started once can always start. -/
theorem startableShell_of_startShell {kernel' : Kernel} {pid : Pid} {entryPoint : Nat}
    (started : startShell image caller terminal kernel = some (kernel', .started pid entryPoint)) :
    StartableShell image := by
  have scanned : scanCommand [] 32 shellName = (shellName, [0]) := by decide
  rcases Option.map_eq_some_iff.mp started with ⟨⟨result, created⟩, createdEq, resumed⟩
  rcases processCreate_eq_some createdEq with ⟨rfl, rfl⟩ | ⟨inode, pid, found, -, -, finished⟩
  · cases resumed
  · rw [scanned] at found
    rcases Option.map_eq_some_iff.mp finished with ⟨loaded, loadedEq, -⟩
    exact ⟨inode, found, fun frame => exists_loadLoop_of_eq_some frame loadedEq⟩

end Launch

end MonolithicKernel.Process
