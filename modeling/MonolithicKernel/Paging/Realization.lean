import MonolithicKernel.Foundation.Simulation
import MonolithicKernel.Paging.Protection
import MonolithicKernel.Process.MemoryIsolation

/-!
Owns the step from the process tables to physical memory: a kernel that keeps one
frame for each process is realized by the machine with tables in memory. Each function
that sets paging up, shows a terminal or stores for a process has its operations there,
in the order of its source. After them the tables point where the kernel has its user
page, and memory holds the frames.

Does not own what the kernel stores into its own 4 MB, nor the screens.
-/

namespace MonolithicKernel.Paging

open MonolithicKernel.FileSystem (Image readData)
open MonolithicKernel.Foundation
open MonolithicKernel.Lib (Bytes)
open MonolithicKernel.Process
open MonolithicKernel.Syscall (inUserPage RangeInside)
open PageWalk WordRanges X86

/-! ### Frames in physical memory -/

/-- Where a byte of a frame is: 8 MB, and 4 MB for each process before it. -/
def frameAddress (pid : Pid) (offset : Nat) : Word :=
  BitVec.ofNat 32 (0x800000 + 0x400000 * pid.val + offset)

/-- Physical memory holds the frames. -/
def Holds (frames : Pid → Frame) (memory : Memory) : Prop :=
  ∀ pid offset, offset < 0x400000 →
    memory (frameAddress pid offset) = (frames pid offset).toBitVec

/-- The frames that are in physical memory. -/
def framesOf (memory : Memory) : Pid → Frame := fun pid offset =>
  UInt8.ofBitVec (memory (frameAddress pid offset))

theorem toNat_frameAddress {pid : Pid} {offset : Nat} (inside : offset < 0x400000) :
    (frameAddress pid offset).toNat = 0x800000 + 0x400000 * pid.val + offset := by
  unfold frameAddress
  rw [BitVec.toNat_ofNat, Nat.mod_eq_of_lt (by omega)]

theorem frameAddress_injective {pid other : Pid} {offset offset' : Nat} (inside : offset < 0x400000)
    (inside' : offset' < 0x400000) (same : frameAddress pid offset = frameAddress other offset') :
    pid = other ∧ offset = offset' := by
  have numbers := congrArg BitVec.toNat same
  rw [toNat_frameAddress inside, toNat_frameAddress inside'] at numbers
  exact ⟨Fin.ext (by omega), by omega⟩

theorem inFrame_frameAddress {pid : Pid} {offset : Nat} (inside : offset < 0x400000) :
    InFrame pid (frameAddress pid offset) := by
  rw [InFrame, toNat_frameAddress inside]
  omega

/-! ### Operations of the kernel's functions -/

/-- Stores of bytes from a pointer on. -/
def storeOps : Nat → Bytes → List Op
  | _, [] => []
  | pointer, byte :: bytes =>
      .pointerStore (BitVec.ofNat 32 pointer) byte.toBitVec :: storeOps (pointer + 1) bytes

/-- The load loop of `process_create` from `file_pos` on. -/
def loadOps (image : Image) (inode : Nat) : Nat → Nat → List Op
  | 0, _ => []
  | rounds + 1, filePos =>
      let bytes := readData image inode filePos 4096
      if bytes.length = 0 then []
      else storeOps (0x08048000 + filePos) bytes ++ loadOps image inode rounds (filePos + 4096)

/-- `process_create`. -/
def createOps (image : Image) (command staleArgs : Bytes) (kernel : Kernel) : List Op :=
  match findExecutable image (scanCommand staleArgs 32 command).1 with
  | none => []
  | some inode =>
      match kernel.getFreePid with
      | none => []
      | some pid => .setPagingForProcess pid :: loadOps image inode 953 0

/-- `process_start`. -/
def startOps (kernel : Kernel) (result : Option Pid) : List Op :=
  match argumentPid (pidArgument result) with
  | none => []
  | some pid => if kernel.activePids pid ≠ .created then [] else [.setPagingForProcess pid]

/-- `process_start(process_create(...))`. -/
def launchOps (image : Image) (command staleArgs : Bytes) (terminal : Terminal) (hasParent : Bool)
    (kernel : Kernel) : List Op :=
  createOps image command staleArgs kernel ++
    match processCreate image command staleArgs terminal hasParent kernel with
    | none => []
    | some (result, created) => startOps created result

/-- `halt_handler` of a process, after its descriptors are closed. -/
def haltOps (image : Image) (pid : Pid) (kernel : Kernel) : List Op :=
  match (kernel.pcb pid).parentPcb with
  | none =>
      launchOps image shellName [] (kernel.pcb pid).terminalId false
        ({ kernel with currentPid := none }.setActive pid .unused)
  | some parent => [.setPagingForProcess (kernel.pcb parent).pid]

/-- `switch_terminal`. -/
def switchOps (image : Image) (termId : Terminal) (kernel : Kernel) : List Op :=
  if termId = kernel.currentTerminal then []
  else if kernel.getFreePid = none ∧ kernel.terminalActive termId = false then []
  else
    .switchTerminal termId ::
      if kernel.terminalActive termId = false then
        launchOps image shellName [] termId false
          { kernel with
            currentTerminal := termId
            terminalActive := Function.update kernel.terminalActive termId true }
      else []

/-- The scheduling loop of `rtc_handler`. -/
def scheduleOps : Nat → Kernel → List Op
  | 0, _ => []
  | rounds + 1, kernel =>
      let kernel := { kernel with currentIndex := kernel.currentIndex + 1 }
      match kernel.terminalPids kernel.currentIndex with
      | none => scheduleOps rounds kernel
      | some pid =>
          if some pid ≠ kernel.currentPid then [.setPagingForProcess pid]
          else scheduleOps rounds kernel

/-- `rtc_handler`. -/
def tickOps (kernel : Kernel) : List Op :=
  let kernel := (List.finRange 3).foldl updateCounters kernel
  if kernel.rtcCount - 1 = 0 then scheduleOps 3 { kernel with rtcCount := 8 } else []

def callOps (image : Image) (kernel : Kernel) : Call → List Op
  | .execute command staleArgs =>
      match kernel.currentPid with
      | none => []
      | some current =>
          launchOps image command staleArgs (kernel.pcb current).terminalId true kernel
  | .halt _ =>
      match kernel.currentPid, closeDescriptors kernel with
      | some pid, some closed => haltOps image pid closed
      | _, _ => []
  | .read fd buf nbytes line =>
      match kernel.readResult image fd buf nbytes line with
      | none => []
      | some result => storeOps buf result.stored
  | .switchTerminal termId => switchOps image termId kernel
  | .tick => tickOps kernel
  | .open _ => []
  | .close _ => []
  | .write _ _ _ => []

/-- What an action does to memory. User programs store through the tables as well. -/
def actionOps (image : Image) (kernel : Kernel) : Action → List Op
  | .call call => callOps image kernel call
  | .store offset byte => [.userStore (BitVec.ofNat 32 (0x08000000 + offset)) byte.toBitVec]

/-! ### Realization -/

/-- The machine realizes a kernel: the tables point where the kernel has its user page and
show its terminal, and memory holds the frames. -/
structure Realizes (layout : Layout) (kernel : Kernel) (paged : PagedKernel) : Prop where
  represents : ∃ owner, kernel.userFrame = (userFrame owner).toNat ∧
    Represents layout ⟨owner, kernel.currentTerminal⟩ paged
  memory : Holds kernel.frames paged.mmu.memory

/-- The operations lead to a machine that realizes the kernel. -/
def Leads (layout : Layout) (paged : PagedKernel) (ops : List Op) (kernel : Kernel) : Prop :=
  ∃ paged', Step.run (step layout) paged ops = some paged' ∧ Realizes layout kernel paged'

section Leads

variable {layout : Layout} {kernel kernel' middle : Kernel} {paged : PagedKernel} {ops rest : List Op}

theorem Realizes.congr (realizes : Realizes layout kernel paged)
    (userFrame : kernel'.userFrame = kernel.userFrame)
    (terminal : kernel'.currentTerminal = kernel.currentTerminal)
    (frames : kernel'.frames = kernel.frames) : Realizes layout kernel' paged := by
  constructor
  · rw [userFrame, terminal]
    exact realizes.represents
  · rw [frames]
    exact realizes.memory

theorem Leads.congr (leads : Leads layout paged ops kernel)
    (userFrame : kernel'.userFrame = kernel.userFrame)
    (terminal : kernel'.currentTerminal = kernel.currentTerminal)
    (frames : kernel'.frames = kernel.frames) : Leads layout paged ops kernel' := by
  obtain ⟨paged', ran, realizes⟩ := leads
  exact ⟨paged', ran, realizes.congr userFrame terminal frames⟩

theorem Realizes.stay (realizes : Realizes layout kernel paged) : Leads layout paged [] kernel :=
  ⟨paged, rfl, realizes⟩

theorem Leads.append (leads : Leads layout paged ops middle)
    (later : ∀ paged', Realizes layout middle paged' → Leads layout paged' rest kernel) :
    Leads layout paged (ops ++ rest) kernel := by
  obtain ⟨paged', ran, realizes⟩ := leads
  obtain ⟨paged'', ran', realizes'⟩ := later paged' realizes
  exact ⟨paged'', by rw [Step.run_append, ran, Option.bind_some, ran'], realizes'⟩

end Leads

namespace Realizes

variable {image : Image} {layout : Layout} {kernel kernel' : Kernel} {paged : PagedKernel}
  {pid : Pid} {offset : Nat}

/-! ### Tables -/

/-- Frames stay where the operation spares them all. -/
theorem holds_of_spared {view : View} {next : PagedKernel} {op : Op}
    (realizes : Realizes layout kernel paged) (represents : Represents layout view paged)
    (taken : step layout paged op = some next) (spares : ∀ pid, Spares pid paged op) :
    Holds kernel.frames next.mmu.memory := by
  intro pid offset inside
  rw [represents.frame_kept taken (spares pid) (inFrame_frameAddress inside)]
  exact realizes.memory pid offset inside

theorem setPagingForProcess (realizes : Realizes layout kernel paged) (pid : Pid) :
    Leads layout paged [.setPagingForProcess pid] (kernel.setPagingForProcess pid) := by
  obtain ⟨owner, -, represents⟩ := realizes.represents
  have taken : step layout paged (.setPagingForProcess pid) = some _ := rfl
  refine ⟨_, rfl, ⟨some pid, ?_, represents.step taken⟩,
    realizes.holds_of_spared represents taken fun _ => trivial⟩
  exact (toNat_userFrame_eq_iff.mpr rfl).symm

theorem showTerminal (realizes : Realizes layout kernel paged) (termId : Terminal) :
    Leads layout paged [.switchTerminal termId] { kernel with currentTerminal := termId } := by
  obtain ⟨owner, isOwner, represents⟩ := realizes.represents
  have taken : step layout paged (.switchTerminal termId) = some _ := rfl
  exact ⟨_, rfl, ⟨owner, isOwner, represents.step taken⟩,
    realizes.holds_of_spared represents taken fun _ => trivial⟩

/-! ### Stores -/

/-- The user page is open to every access, and behind it is the frame. -/
theorem translate_user (realizes : Realizes layout kernel paged)
    (frame : kernel.userFrame = 2 + pid.val) (inside : offset < 0x400000) (access : Access) :
    paged.mmu.translate access (BitVec.ofNat 32 (0x08000000 + offset)) =
      some (frameAddress pid offset) := by
  obtain ⟨owner, isOwner, represents⟩ := realizes.represents
  have address : (BitVec.ofNat 32 (0x08000000 + offset)).toNat = 0x08000000 + offset := by
    rw [BitVec.toNat_ofNat, Nat.mod_eq_of_lt (by omega)]
  rw [represents.translate_iff]
  apply Reach.user
  · omega
  · omega
  · rw [toNat_frameAddress inside, ← isOwner, frame, address]
    omega

theorem store (realizes : Realizes layout kernel paged) (frame : kernel.userFrame = 2 + pid.val)
    (inside : offset < 0x400000) (byte : UInt8) :
    Realizes layout (kernel.store offset byte) { paged with
      mmu.memory := Function.update paged.mmu.memory (frameAddress pid offset) byte.toBitVec } := by
  have inFrame : InFrame pid (frameAddress pid offset) := inFrame_frameAddress inside
  constructor
  · obtain ⟨owner, isOwner, represents⟩ := realizes.represents
    exact ⟨owner, isOwner, represents.withMemory (represents.tables.store
      (inFrame.pageOf_ne layout.directoryInKernel) (inFrame.pageOf_ne layout.tableInKernel) _)⟩
  · intro other offset' inside'
    dsimp only [Kernel.store]
    by_cases same : other = pid
    · subst other
      rw [if_pos frame]
      by_cases here : offset' = offset
      · subst offset'
        rw [Function.update_self, Function.update_self]
      · rw [Function.update_of_ne here, Function.update_of_ne, realizes.memory pid offset' inside']
        intro equal
        exact here (frameAddress_injective inside' inside equal).2
    · rw [if_neg (fun equal => same (Fin.ext (by omega))), Function.update_of_ne,
        realizes.memory other offset' inside']
      intro equal
      exact same (frameAddress_injective inside' inside equal).1

/-- A store of the running process. -/
theorem userStore (realizes : Realizes layout kernel paged) (frame : kernel.userFrame = 2 + pid.val)
    (inside : offset < 0x400000) (byte : UInt8) :
    Leads layout paged [.userStore (BitVec.ofNat 32 (0x08000000 + offset)) byte.toBitVec]
      (kernel.store offset byte) := by
  refine ⟨_, ?_, realizes.store frame inside byte⟩
  rw [Step.run_cons, step, realizes.translate_user frame inside]
  rfl

/-- A store of the kernel through a pointer into the user page. -/
theorem pointerStore (realizes : Realizes layout kernel paged)
    (frame : kernel.userFrame = 2 + pid.val) (inside : offset < 0x400000) (byte : UInt8) :
    Leads layout paged [.pointerStore (BitVec.ofNat 32 (0x08000000 + offset)) byte.toBitVec]
      (kernel.store offset byte) := by
  have inFrame : InFrame pid (frameAddress pid offset) := inFrame_frameAddress inside
  have outside : ¬ (pageOf (frameAddress pid offset) = layout.pageDirectory ∨
      pageOf (frameAddress pid offset) = layout.pageTable) :=
    not_or.mpr ⟨inFrame.pageOf_ne layout.directoryInKernel, inFrame.pageOf_ne layout.tableInKernel⟩
  refine ⟨_, ?_, realizes.store frame inside byte⟩
  rw [Step.run_cons, step, realizes.translate_user frame inside, Option.bind_some, storeOutside,
    if_neg outside]
  rfl

theorem storeOps {pointer : Nat} {bytes : Bytes} (realizes : Realizes layout kernel paged)
    (frame : kernel.userFrame = 2 + pid.val) (inside : RangeInside pointer bytes.length) :
    Leads layout paged (Paging.storeOps pointer bytes) (kernel.storeFrom pointer bytes) := by
  induction bytes generalizing pointer kernel paged with
  | nil => exact realizes.stay
  | cons byte bytes inductionHypothesis =>
      have here := inside 0 (Nat.succ_pos _)
      have later : RangeInside (pointer + 1) bytes.length := by
        intro i inBytes
        rw [Nat.add_assoc, Nat.add_comm 1 i]
        exact inside (i + 1) (Nat.succ_lt_succ inBytes)
      rw [Nat.add_zero] at here
      have address : BitVec.ofNat 32 pointer =
          BitVec.ofNat 32 (0x08000000 + (pointer % 2 ^ 32 - 0x08000000)) := by
        apply BitVec.eq_of_toNat_eq
        rw [BitVec.toNat_ofNat, BitVec.toNat_ofNat]
        unfold inUserPage at here
        omega
      have short : pointer % 2 ^ 32 - 0x08000000 < 0x400000 := by
        unfold inUserPage at here
        omega
      have first := realizes.pointerStore frame short byte
      rw [Kernel.storeFrom, if_pos here, Paging.storeOps, address]
      exact first.append fun paged' realizes' => inductionHypothesis realizes' frame later

/-! ### Loading -/

/-- What the stores of one round leave of the frames. -/
theorem frames_storeFrom {position : Nat} {bytes : Bytes} (frame : kernel.userFrame = 2 + pid.val)
    (fits : position + bytes.length ≤ 0x400000) :
    (kernel.storeFrom (0x08000000 + position) bytes).frames =
      Function.update kernel.frames pid fun offset =>
        if position ≤ offset ∧ offset < position + bytes.length then bytes.getD (offset - position) 0
        else kernel.frames pid offset := by
  induction bytes generalizing position kernel with
  | nil =>
      have same : (fun offset => if position ≤ offset ∧ offset < position + ([] : Bytes).length then
          ([] : Bytes).getD (offset - position) 0 else kernel.frames pid offset) =
          kernel.frames pid := by
        funext offset
        exact if_neg (by simp)
      rw [same, Function.update_eq_self]
      rfl
  | cons byte bytes inductionHypothesis =>
      rw [List.length_cons] at fits
      have here : inUserPage ((0x08000000 + position) % 2 ^ 32) := by
        unfold inUserPage
        omega
      have target : (0x08000000 + position) % 2 ^ 32 - 0x08000000 = position := by omega
      have framed : (kernel.store position byte).userFrame = 2 + pid.val := frame
      rw [Kernel.storeFrom, if_pos here, target, Nat.add_assoc,
        inductionHypothesis framed (by omega)]
      funext other offset
      by_cases same : other = pid
      · subst other
        have stored : (kernel.store position byte).frames pid =
            Function.update (kernel.frames pid) position byte := if_pos frame
        rw [Function.update_self, Function.update_self, stored, List.length_cons]
        rcases Nat.lt_trichotomy offset position with before | rfl | behind
        · rw [if_neg (by omega), if_neg (by omega), Function.update_of_ne (by omega)]
        · rw [if_neg (by omega), if_pos (by omega), Function.update_self, Nat.sub_self]
          rfl
        · rw [Function.update_of_ne (by omega)]
          have shifted : offset - position = offset - (position + 1) + 1 := by omega
          rw [shifted, List.getD_cons_succ]
          exact if_congr (by omega) rfl rfl
      · rw [Function.update_of_ne same, Function.update_of_ne same]
        exact congrFun (if_neg fun isFrame => same (Fin.ext (by omega))) offset

/-- The load loop brings the program to the frame behind the user page. -/
theorem loadOps {inode rounds filePos : Nat} {loaded : Frame}
    (realizes : Realizes layout kernel paged) (frame : kernel.userFrame = 2 + pid.val)
    (ended : loadLoop image inode rounds filePos (kernel.frames pid) = some loaded) :
    Leads layout paged (Paging.loadOps image inode rounds filePos)
      { kernel with frames := Function.update kernel.frames pid loaded } := by
  induction rounds generalizing filePos kernel paged with
  | zero => cases ended
  | succ rounds inductionHypothesis =>
      rw [loadLoop] at ended
      rw [Paging.loadOps]
      split_ifs at ended ⊢ with empty full
      · cases ended
        exact realizes.stay.congr rfl rfl (Function.update_eq_self ..)
      · have fits : 0x00048000 + filePos + (readData image inode filePos 4096).length ≤ 0x400000 :=
          not_lt.mp full
        have address : 0x08048000 + filePos = 0x08000000 + (0x00048000 + filePos) := by omega
        have inside : RangeInside (0x08048000 + filePos)
            (readData image inode filePos 4096).length := by
          intro i inBytes
          unfold inUserPage
          omega
        have stored := frames_storeFrom frame fits
        rw [← address] at stored
        obtain ⟨frames, fields⟩ := fields_of_storeFrom (0x08048000 + filePos)
          (readData image inode filePos 4096) kernel
        apply (realizes.storeOps frame inside).append
        intro paged' realizes'
        rw [fields] at realizes' stored
        dsimp only at stored
        subst stored
        refine (inductionHypothesis realizes' frame ?_).congr rfl rfl
          (Function.update_idem ..).symm
        dsimp only
        rw [Function.update_self]
        exact ended

/-! ### Creating and starting -/

variable {command staleArgs : Bytes} {terminal : Terminal} {hasParent : Bool} {caller : Context}
  {result : Option Pid} {resumption : Resumption}

theorem createOps (realizes : Realizes layout kernel paged)
    (created : processCreate image command staleArgs terminal hasParent kernel =
      some (result, kernel')) :
    Leads layout paged (Paging.createOps image command staleArgs kernel) kernel' := by
  rw [processCreate] at created
  rw [Paging.createOps]
  cases found : findExecutable image (scanCommand staleArgs 32 command).1 with
  | none =>
      rw [found] at created
      cases created
      exact realizes.stay
  | some inode =>
      rw [found] at created
      dsimp only at created ⊢
      cases isFree : kernel.getFreePid with
      | none =>
          rw [isFree] at created
          cases created
          exact realizes.stay
      | some pid =>
          rw [isFree] at created
          obtain ⟨finished, done, same⟩ := Option.map_eq_some_iff.mp created
          cases same
          obtain ⟨loaded, ended, rfl⟩ := Option.map_eq_some_iff.mp done
          have setUp := realizes.setPagingForProcess pid
          have whole : Leads layout paged
              ([.setPagingForProcess pid] ++ Paging.loadOps image inode 953 0) _ :=
            setUp.append fun paged' realizes' => realizes'.loadOps rfl ended
          exact whole.congr rfl rfl rfl

theorem startOps (realizes : Realizes layout kernel paged) (caller : Context)
    (result : Option Pid) :
    Leads layout paged (Paging.startOps kernel result) (processStart caller kernel result).1 := by
  rw [Paging.startOps, processStart, argumentPid_pidArgument]
  cases result with
  | none => exact realizes.stay
  | some pid =>
      dsimp only
      split_ifs with notCreated
      · exact realizes.stay
      · exact (realizes.setPagingForProcess pid).congr rfl rfl rfl

theorem launchOps (realizes : Realizes layout kernel paged)
    (launched : (processCreate image command staleArgs terminal hasParent kernel).map
      (fun created => processStart caller created.2 created.1) = some (kernel', resumption)) :
    Leads layout paged (Paging.launchOps image command staleArgs terminal hasParent kernel)
      kernel' := by
  obtain ⟨⟨result, created⟩, createdEq, started⟩ := Option.map_eq_some_iff.mp launched
  have same : (processStart caller created result).1 = kernel' := congrArg Prod.fst started
  rw [Paging.launchOps, createdEq, ← same]
  exact (realizes.createOps createdEq).append fun paged' realizes' =>
    realizes'.startOps caller result

/-! ### Halting, switching and ticking -/

theorem haltOps {status : UInt32} (realizes : Realizes layout kernel paged)
    (halted : haltHandler image status kernel = some (kernel', resumption)) :
    Leads layout paged (callOps image kernel (.halt status)) kernel' := by
  obtain ⟨pid, isCurrent, halted⟩ := Option.bind_eq_some_iff.mp halted
  obtain ⟨closed, closedEq, halted⟩ := Option.bind_eq_some_iff.mp halted
  have kept : Realizes layout closed paged := by
    obtain ⟨owner, fds, -, -, rfl⟩ := closeDescriptors_eq_some closedEq
    exact realizes.congr rfl rfl rfl
  rw [callOps, isCurrent, closedEq]
  dsimp only
  rw [Paging.haltOps]
  cases isChild : (closed.pcb pid).parentPcb with
  | none =>
      rw [isChild] at halted
      obtain ⟨⟨started, restarted⟩, startedEq, same⟩ := Option.map_eq_some_iff.mp halted
      cases same
      have freed : Realizes layout ({ closed with currentPid := none }.setActive pid .unused) paged :=
        kept.congr rfl rfl rfl
      exact freed.launchOps startedEq
  | some parent =>
      rw [isChild] at halted
      cases halted
      exact (kept.setPagingForProcess _).congr rfl rfl rfl

theorem switchOps {termId : Terminal} (realizes : Realizes layout kernel paged)
    (switched : switchTerminal image termId kernel = some (kernel', resumption)) :
    Leads layout paged (Paging.switchOps image termId kernel) kernel' := by
  have display := realizes.showTerminal termId
  rw [switchTerminal] at switched
  rw [Paging.switchOps]
  split_ifs at switched ⊢ with shown full empty
  · cases switched
    exact realizes.stay
  · cases switched
    exact realizes.stay
  · dsimp only at switched
    rw [if_pos empty] at switched
    obtain ⟨⟨started, restarted⟩, startedEq, same⟩ := Option.map_eq_some_iff.mp switched
    cases same
    refine display.append fun paged' realizes' => ?_
    have begun : Realizes layout { kernel with
        currentTerminal := termId
        terminalActive := Function.update kernel.terminalActive termId true } paged' :=
      realizes'.congr rfl rfl rfl
    exact begun.launchOps startedEq
  · dsimp only at switched
    rw [if_neg empty] at switched
    cases switched
    exact display

theorem scheduleOps (realizes : Realizes layout kernel paged) (rounds : Nat) :
    Leads layout paged (Paging.scheduleOps rounds kernel) (scheduleLoop rounds kernel).1 := by
  induction rounds generalizing kernel with
  | zero => exact realizes.stay
  | succ rounds inductionHypothesis =>
      rw [Paging.scheduleOps, scheduleLoop]
      dsimp only
      have moved : Realizes layout { kernel with currentIndex := kernel.currentIndex + 1 } paged :=
        realizes.congr rfl rfl rfl
      cases kernel.terminalPids (kernel.currentIndex + 1) with
      | none => exact inductionHypothesis moved
      | some pid =>
          dsimp only
          split_ifs
          · exact (realizes.setPagingForProcess pid).congr rfl rfl rfl
          · exact inductionHypothesis moved

theorem tickOps (realizes : Realizes layout kernel paged) :
    Leads layout paged (Paging.tickOps kernel) (rtcHandler kernel).1 := by
  obtain ⟨pcb, counted⟩ := fields_of_updateCounters (List.finRange 3) kernel
  rw [Paging.tickOps, rtcHandler, counted]
  dsimp only
  split_ifs
  · have reloaded : Realizes layout { kernel with pcb := pcb, rtcCount := 8 } paged :=
      realizes.congr rfl rfl rfl
    exact reloaded.scheduleOps 3
  · exact realizes.stay.congr rfl rfl rfl

end Realizes

/-! ### Actions -/

/-- What a read stores stays in the user page. -/
def ReadsInside (image : Image) (kernel : Kernel) : Action → Prop
  | .call (.read fd buf nbytes line) =>
      match kernel.readResult image fd buf nbytes line with
      | none => True
      | some result => RangeInside buf result.stored.length
  | _ => True

instance decidableReadsInside (image : Image) (kernel : Kernel) (action : Action) :
    Decidable (ReadsInside image kernel action) := by
  unfold ReadsInside
  split
  · split <;> infer_instance
  · infer_instance

/-- The step lemma. -/
theorem Realizes.act {image : Image} {layout : Layout} {kernel kernel' : Kernel}
    {paged : PagedKernel} {pid : Pid} {action : Action} (realizes : Realizes layout kernel paged)
    (frame : kernel.userFrame = 2 + pid.val) (inside : ReadsInside image kernel action)
    (taken : kernel.act image action = some kernel') :
    Leads layout paged (actionOps image kernel action) kernel' := by
  cases action with
  | store offset byte =>
      rw [Kernel.act] at taken
      split_ifs at taken with inPage
      cases taken
      exact realizes.userStore frame inPage byte
  | call call =>
      obtain ⟨⟨next, resumption⟩, done, same⟩ := Option.map_eq_some_iff.mp taken
      cases same
      have used : ∀ {use : FileSystem.FdTable → Option (Int × FileSystem.FdTable)},
          useFileDescriptors kernel use = some (next, resumption) →
            Leads layout paged [] next := by
        intro use used
        obtain ⟨owner, ret, fds, -, -, rfl, -⟩ := useFileDescriptors_eq_some used
        exact realizes.stay.congr rfl rfl rfl
      cases call with
      | execute command staleArgs =>
          obtain ⟨current, isCurrent, launched⟩ := Option.bind_eq_some_iff.mp done
          rw [actionOps, callOps, isCurrent]
          exact realizes.launchOps launched
      | halt status => exact realizes.haltOps done
      | «open» filename => exact used done
      | close fd => exact used done
      | read fd buf nbytes line =>
          obtain ⟨owner, result, isOwner, read, rfl, -⟩ := read_eq_some done
          have found : kernel.readResult image fd buf nbytes line = some result := by
            rw [Kernel.readResult, isOwner, Option.bind_some, read]
          have read : Realizes layout (kernel.setPcb owner { kernel.pcb owner with
              fileDescriptors := result.fds }) paged := realizes.congr rfl rfl rfl
          rw [actionOps, callOps, found]
          rw [ReadsInside, found] at inside
          exact read.storeOps frame inside
      | write fd buf nbytes => exact used done
      | switchTerminal termId => exact realizes.switchOps done
      | tick =>
          have same : (rtcHandler kernel).1 = next := congrArg Prod.fst (Option.some.inj done)
          rw [← same]
          exact realizes.tickOps

/-! ### Boot -/

/-- `paging_init` writes the tables only. -/
theorem updateEntry_of_inFrame {table : BitVec 20} (inKernel : directoryIndex table = 1) {pid : Pid}
    {physical : Word} (inside : InFrame pid physical) (index : Nat) (update : Word → Word)
    (memory : Memory) : updateEntry table index update memory physical = memory physical :=
  storeWord_of_pageOf_ne (inside.pageOf_ne inKernel) ..

theorem pagingInit_of_inFrame (layout : Layout) (writeProtect : Bool) (memory : Memory) {pid : Pid}
    {physical : Word} (inside : InFrame pid physical) :
    (pagingInit layout writeProtect memory).memory physical = memory physical := by
  have inTable := @updateEntry_of_inFrame layout.pageTable layout.tableInKernel pid physical inside
  have inDirectory :=
    @updateEntry_of_inFrame layout.pageDirectory layout.directoryInKernel pid physical inside
  have loop : ∀ (rounds : List Nat) memory,
      rounds.foldl (initEntry layout) memory physical = memory physical := by
    intro rounds
    induction rounds with
    | nil => exact fun _ => rfl
    | cons index rounds inductionHypothesis =>
        intro memory
        rw [List.foldl_cons, inductionHypothesis]
        exact inTable ..
  rw [pagingInit]
  dsimp only
  rw [initDirectory, inDirectory, inDirectory, inDirectory, initTable, inTable, inTable, inTable,
    inTable, inTable, loop]

theorem realizes_start {layout : Layout} {memory : Memory} (cleared : Cleared layout memory)
    (writeProtect : Bool) (pcb : Pid → Pcb) :
    Realizes layout (bootKernel pcb (framesOf memory)) (start layout writeProtect memory) := by
  refine ⟨⟨none, rfl, represents_start cleared writeProtect⟩, fun pid offset inside => ?_⟩
  exact pagingInit_of_inFrame layout writeProtect memory (inFrame_frameAddress inside)

/-- What a program finds in the 4 MB of user programs. -/
def Finds (paged : PagedKernel) (frame : Frame) : Prop :=
  ∀ offset < 0x400000, ∃ physical,
    paged.mmu.translate ⟨true, false⟩ (BitVec.ofNat 32 (0x08000000 + offset)) = some physical ∧
      paged.mmu.memory physical = (frame offset).toBitVec

/-- **Realization.** From boot on, every run of system calls, ticks, terminal switches and
stores of user programs whose reads store to the user page is realized in physical memory by
what the kernel's functions do to the tables and store through them. The frames of the
kernel are then what memory holds, and the running process finds its own. -/
theorem realized_of_run {image : Image} {pcb : Pid → Pcb} {booted : Kernel} {first : Pid}
    {entryPoint : Nat} {layout : Layout} {memory : Memory} (cleared : Cleared layout memory)
    (writeProtect : Bool)
    (started : startShell image .inBoot 0 (bootKernel pcb (framesOf memory)) =
      some (booted, .started first entryPoint))
    (actions : List Action) {final : Kernel}
    (ran : Step.run (Kernel.act image) booted actions = some final)
    (inside : Step.AllSteps (Kernel.act image) (ReadsInside image) booted actions) :
    ∃ paged, Step.run (step layout) (start layout writeProtect memory)
        (launchOps image shellName [] 0 false (bootKernel pcb (framesOf memory)) ++
          Step.traces (Kernel.act image) (fun kernel action _ => actionOps image kernel action)
            booted actions) = some paged ∧
      Realizes layout final paged ∧
      ∀ pid, final.currentPid = some pid → SetUpFor pid paged ∧ Finds paged (final.frames pid) := by
  obtain ⟨shell, stack, bootOk⟩ := tableOk_of_started started
  obtain ⟨low, booting, realizes⟩ := (realizes_start cleared writeProtect pcb).launchOps started
  have matched : ∀ (kernel : Kernel) (action : Action) (next : Kernel) (paged : PagedKernel),
      ((∃ stack, TableOk kernel stack) ∧ Realizes layout kernel paged) →
        ReadsInside image kernel action → kernel.act image action = some next →
        ∃ paged', Step.run (step layout) paged (actionOps image kernel action) = some paged' ∧
          (∃ stack, TableOk next stack) ∧ Realizes layout next paged' := by
    intro kernel action next paged related inside taken
    obtain ⟨⟨stack, ok⟩, realizes⟩ := related
    obtain ⟨terminal, pid, rest, -, isCurrent⟩ := ok.current
    obtain ⟨paged', ran, after⟩ := realizes.act (ok.userFrame pid isCurrent) inside taken
    exact ⟨paged', ran, ok.act shell taken, after⟩
  obtain ⟨paged, rest, ⟨stack', ok⟩, after⟩ :=
    Step.exists_run_of_allSteps matched ⟨⟨stack, bootOk⟩, realizes⟩ inside ran
  refine ⟨paged, by rw [Step.run_append, booting, Option.bind_some, rest], after, ?_⟩
  intro pid isCurrent
  have frame := ok.userFrame pid isCurrent
  constructor
  · obtain ⟨owner, isOwner, represents⟩ := after.represents
    exact represents.setUpFor (toNat_userFrame_eq_iff.mp (isOwner.symm.trans frame))
  · intro offset inPage
    exact ⟨frameAddress pid offset, after.translate_user frame inPage _,
      after.memory pid offset inPage⟩

/-- The first shell stores a byte and reads a line behind it, executes another shell, which
another terminal's shell and a tick interrupt, and which halts. -/
theorem realized_shells :
    ∃ booted final paged, Step.run (Kernel.act shellImage) booted
        [.store 5 7, .call (.read 0 0x08000006 2 ⟨fun _ => 0x61, 2⟩), .call (.execute shellName []),
          .call (.switchTerminal 1), .call .tick, .call (.halt 0)] = some final ∧
      final.currentPid = some 0 ∧ final.frames 0 5 = 7 ∧ final.frames 0 6 = 0x61 ∧
      SetUpFor 0 paged ∧ Finds paged (final.frames 0) := by
  let actions : List Action :=
    [.store 5 7, .call (.read 0 0x08000006 2 ⟨fun _ => 0x61, 2⟩), .call (.execute shellName []),
      .call (.switchTerminal 1), .call .tick, .call (.halt 0)]
  have evaluated : (startShell shellImage .inBoot 0 (bootKernel (fun _ => zeroPcb)
      (framesOf fun _ => 0))).bind (fun started =>
        (Step.run (Kernel.act shellImage) started.1 actions).map fun final =>
          (started.2, decide (Step.AllSteps (Kernel.act shellImage) (ReadsInside shellImage)
              started.1 actions ∧
            final.currentPid = some 0 ∧ final.frames 0 5 = 7 ∧ final.frames 0 6 = 0x61))) =
      some (.started 0 0, true) := by
    decide
  obtain ⟨⟨booted, resumed⟩, started, acted⟩ := Option.bind_eq_some_iff.mp evaluated
  obtain ⟨final, ran, values⟩ := Option.map_eq_some_iff.mp acted
  simp only [Prod.mk.injEq, decide_eq_true_eq] at values
  obtain ⟨rfl, inside, isCurrent, stored, read⟩ := values
  obtain ⟨paged, -, -, found⟩ := realized_of_run (cleared_zero sampleLayout) false started actions
    ran inside
  exact ⟨booted, final, paged, ran, isCurrent, stored, read, found 0 isCurrent⟩

end MonolithicKernel.Paging
