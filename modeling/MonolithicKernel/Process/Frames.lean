import MonolithicKernel.Process.Launch

/-!
Owns what the calls leave of an active process: its PCB keeps its arguments
whatever is called short of its own halt, and its descriptor table unless that
table is in use or a tick counts its RTC slots down. A call that creates a
process takes a free pid, so it never builds over an active one.

Does not own who runs, nor the stacks of the terminals.
-/

namespace MonolithicKernel.Process

open MonolithicKernel.FileSystem
open MonolithicKernel.Foundation
open MonolithicKernel.Lib

/-- An active process goes on with its arguments and its descriptors. -/
structure Kept (pid : Pid) (kernel kernel' : Kernel) : Prop where
  active : kernel'.activePids pid = .active
  args : (kernel'.pcb pid).args = (kernel.pcb pid).args
  fileDescriptors : (kernel'.pcb pid).fileDescriptors = (kernel.pcb pid).fileDescriptors

namespace Kept

variable {image : Image} {kernel kernel' kernel'' : Kernel} {pid other : Pid}

theorem refl (active : kernel.activePids pid = .active) : Kept pid kernel kernel :=
  ⟨active, rfl, rfl⟩

theorem trans (first : Kept pid kernel kernel') (second : Kept pid kernel' kernel'') :
    Kept pid kernel kernel'' :=
  ⟨second.active, second.args.trans first.args,
    second.fileDescriptors.trans first.fileDescriptors⟩

/-! ### Creating and starting -/

theorem saveContext (active : kernel.activePids pid = .active) (context : Context) :
    Kept pid kernel (saveContext context kernel) := by
  have saved : ((Process.saveContext context kernel).pcb pid).args = (kernel.pcb pid).args ∧
      ((Process.saveContext context kernel).pcb pid).fileDescriptors =
        (kernel.pcb pid).fileDescriptors := by
    unfold Process.saveContext
    dsimp only
    split_ifs
    · exact ⟨rfl, rfl⟩
    · exact ⟨rfl, rfl⟩
  exact ⟨active, saved.1, saved.2⟩

theorem setActive (active : kernel.activePids pid = .active) (differ : pid ≠ other)
    (status : PidStatus) : Kept pid kernel (kernel.setActive other status) :=
  ⟨(Function.update_of_ne differ ..).trans active, rfl, rfl⟩

theorem setUpProcess (active : kernel.activePids pid = .active) (differ : pid ≠ other)
    (fileArgs : Bytes) (terminal : Terminal) (hasParent : Bool) (frame : Frame) :
    Kept pid kernel (setUpProcess fileArgs terminal hasParent kernel other frame) := by
  have same : (Process.setUpProcess fileArgs terminal hasParent kernel other frame).pcb pid =
      kernel.pcb pid := Function.update_of_ne differ ..
  exact ⟨active, by rw [same], by rw [same]⟩

theorem processCreate {command staleArgs : Bytes} {terminal : Terminal} {hasParent : Bool}
    {result : Option Pid} (active : kernel.activePids pid = .active)
    (created : processCreate image command staleArgs terminal hasParent kernel =
      some (result, kernel')) : Kept pid kernel kernel' := by
  rcases processCreate_eq_some created with ⟨-, rfl⟩ | ⟨inode, free, -, isFree, -, finished⟩
  · exact refl active
  · rcases Option.map_eq_some_iff.mp finished with ⟨frame, -, rfl⟩
    have differ : pid ≠ free := by
      rintro rfl
      cases active.symm.trans (unused_of_getFreePid isFree)
    have claimed := setActive active differ .created
    exact claimed.trans (setUpProcess claimed.active differ ..)

theorem processStart (active : kernel.activePids pid = .active) (caller : Context)
    (result : Option Pid) : Kept pid kernel (processStart caller kernel result).1 := by
  cases result with
  | none => exact refl active
  | some started =>
      rw [processStart_some]
      split_ifs with notCreated
      · exact refl active
      · have differ : pid ≠ started := by
          rintro rfl
          exact notCreated (by rw [active]; decide)
        have activated := setActive active differ .active
        have saved := @saveContext
          ((kernel.setActive started .active).setPagingForProcess started) pid
          activated.active caller
        exact ⟨saved.active, saved.args, saved.fileDescriptors⟩

theorem launch {command staleArgs : Bytes} {terminal : Terminal} {hasParent : Bool}
    {caller : Context} {resumption : Resumption} (active : kernel.activePids pid = .active)
    (launched : (Process.processCreate image command staleArgs terminal hasParent kernel).map
      (fun created => Process.processStart caller created.2 created.1) =
        some (kernel', resumption)) : Kept pid kernel kernel' := by
  rcases Option.map_eq_some_iff.mp launched with ⟨⟨result, created⟩, createdEq, started⟩
  have kept := processCreate active createdEq
  have startedKept := kept.trans (processStart kept.active caller result)
  dsimp only at started
  rwa [started] at startedKept

theorem executeHandler {command staleArgs : Bytes} {resumption : Resumption}
    (active : kernel.activePids pid = .active)
    (executed : executeHandler image command staleArgs kernel = some (kernel', resumption)) :
    Kept pid kernel kernel' := by
  rcases Option.bind_eq_some_iff.mp executed with ⟨current, -, launched⟩
  exact launch active launched

theorem switchTerminal {termId : Terminal} {resumption : Resumption}
    (active : kernel.activePids pid = .active)
    (switched : switchTerminal image termId kernel = some (kernel', resumption)) :
    Kept pid kernel kernel' := by
  rcases switchTerminal_eq_some switched with ⟨⟨shown, rfl⟩, -⟩ | ⟨started, startedEq, -⟩
  · exact ⟨active, rfl, rfl⟩
  · have kept : Kept pid { kernel with
        currentTerminal := termId
        terminalActive := Function.update kernel.terminalActive termId true } kernel' :=
      launch active startedEq
    exact ⟨kept.active, kept.args, kept.fileDescriptors⟩

theorem processSwitch (active : kernel.activePids pid = .active) (next : Pid) :
    Kept pid kernel (processSwitch kernel next).1 := by
  have saved := saveContext active .inTick
  exact ⟨saved.active, saved.args, saved.fileDescriptors⟩

/-- The scheduling loop runs no system call. -/
theorem scheduleLoop (active : kernel.activePids pid = .active) (rounds : Nat) :
    Kept pid kernel (scheduleLoop rounds kernel).1 := by
  rcases scheduleLoop_cases rounds kernel with ⟨index, none | ⟨next, -, -, switched⟩⟩
  · rw [none]
    exact ⟨active, rfl, rfl⟩
  · have kept := @processSwitch { kernel with currentIndex := index } pid active next
    rw [switched]
    exact ⟨kept.active, kept.args, kept.fileDescriptors⟩

/-! ### Using a table -/

/-- Another process may use its own table. -/
theorem setFds (active : kernel.activePids pid = .active) (differ : pid ≠ other) (fds : FdTable) :
    Kept pid kernel (kernel.setPcb other { kernel.pcb other with fileDescriptors := fds }) := by
  have same := Kernel.setPcb_pcb_of_ne differ kernel
    { kernel.pcb other with fileDescriptors := fds }
  exact ⟨active, by rw [same], by rw [same]⟩

theorem setFds_args (pid other : Pid) (kernel : Kernel) (fds : FdTable) :
    ((kernel.setPcb other { kernel.pcb other with fileDescriptors := fds }).pcb pid).args =
      (kernel.pcb pid).args := by
  by_cases same : pid = other
  · subst same
    rw [Kernel.setPcb_pcb_self]
  · rw [Kernel.setPcb_pcb_of_ne same]

/-! ### Halting -/

/-- The halt of another process, from the end of its closing loop on. -/
theorem haltHandler_of_closed {status : UInt32} {resumption : Resumption}
    (active : kernel.activePids pid = .active) (notOwn : kernel.currentPid ≠ some pid)
    (halted : haltHandler image status kernel = some (kernel', resumption)) :
    ∃ closed, closeDescriptors kernel = some closed ∧ Kept pid closed kernel' := by
  rcases haltHandler_eq_some halted with ⟨current, closed, isCurrent, closedEq, branch⟩
  rcases closeDescriptors_eq_some closedEq with ⟨owner, fds, -, -, rfl⟩
  have differ : pid ≠ current := fun same => notOwn (same ▸ isCurrent)
  refine ⟨_, closedEq, ?_⟩
  rcases branch with ⟨restarted, startedEq, -⟩ | ⟨parent, returned⟩
  · have freed := @setActive
      { kernel.setPcb owner { kernel.pcb owner with fileDescriptors := fds } with
        currentPid := none } pid current active differ .unused
    have launched := freed.trans (launch freed.active startedEq)
    exact ⟨launched.active, launched.args, launched.fileDescriptors⟩
  · cases returned
    exact ⟨(Function.update_of_ne differ ..).trans active, rfl, rfl⟩

/-! ### Calls of others -/

/-- A call that does not use the table of a process and is not its halt. -/
theorem step_of_unused {call : Call} (active : kernel.activePids pid = .active)
    (notOwn : kernel.currentPid ≠ some pid ∨ ∃ termId, call = .switchTerminal termId)
    (notTable : kernel.fileDescriptors = kernel.currentPid) (notTick : call ≠ .tick)
    (taken : kernel.step image call = some kernel') : Kept pid kernel kernel' := by
  rcases Option.map_eq_some_iff.mp taken with ⟨⟨next, resumption⟩, done, same⟩
  cases same
  have used : ∀ {use : FdTable → Option (Int × FdTable)}, kernel.currentPid ≠ some pid →
      useFileDescriptors kernel use = some (next, resumption) → Kept pid kernel next := by
    intro use elsewhere used
    rcases useFileDescriptors_eq_some used with ⟨owner, ret, fds, isOwner, -, rfl, -⟩
    rw [notTable] at isOwner
    exact setFds active (fun same => elsewhere (same ▸ isOwner)) fds
  rcases notOwn with elsewhere | ⟨termId, rfl⟩
  · cases call with
    | execute command staleArgs => exact executeHandler active done
    | halt status =>
        rcases haltHandler_of_closed active elsewhere done with ⟨closed, closedEq, kept⟩
        rcases closeDescriptors_eq_some closedEq with ⟨owner, fds, isOwner, -, rfl⟩
        rw [notTable] at isOwner
        exact (setFds active (fun same => elsewhere (same ▸ isOwner)) fds).trans kept
    | «open» filename => exact used elsewhere done
    | close fd => exact used elsewhere done
    | read fd buf nbytes line =>
        rcases useFileDescriptors_of_read done with ⟨read, frames, readEq, rfl⟩
        rcases useFileDescriptors_eq_some readEq with ⟨owner, ret, fds, isOwner, -, rfl, -⟩
        rw [notTable] at isOwner
        have kept := setFds active (fun same => elsewhere (same ▸ isOwner)) fds
        exact ⟨kept.active, kept.args, kept.fileDescriptors⟩
    | write fd buf nbytes => exact used elsewhere done
    | switchTerminal termId => exact switchTerminal active done
    | tick => exact absurd rfl notTick
  · exact switchTerminal active done

end Kept

/-! ### Arguments -/

/-- A process is active and has these arguments. -/
structure RunsWith (pid : Pid) (args : Bytes) (kernel : Kernel) : Prop where
  active : kernel.activePids pid = .active
  args : (kernel.pcb pid).args = args

namespace RunsWith

variable {image : Image} {kernel kernel' : Kernel} {pid other : Pid} {args : Bytes}

theorem of_kept (runs : RunsWith pid args kernel) (kept : Kept pid kernel kernel') :
    RunsWith pid args kernel' :=
  ⟨kept.active, kept.args.trans runs.args⟩

theorem setFds (runs : RunsWith pid args kernel) (other : Pid) (fds : FdTable) :
    RunsWith pid args (kernel.setPcb other { kernel.pcb other with fileDescriptors := fds }) :=
  ⟨runs.active, (Kept.setFds_args pid other kernel fds).trans runs.args⟩

theorem foldl_updateCounters (terminals : List Terminal) (runs : RunsWith pid args kernel) :
    RunsWith pid args (terminals.foldl updateCounters kernel) := by
  induction terminals generalizing kernel with
  | nil => exact runs
  | cons terminal terminals inductionHypothesis =>
      apply inductionHypothesis
      unfold updateCounters
      split
      · exact runs
      · exact runs.setFds ..

theorem tick (runs : RunsWith pid args kernel) : RunsWith pid args (rtcHandler kernel).1 := by
  have counted := runs.foldl_updateCounters (List.finRange 3)
  unfold rtcHandler
  dsimp only
  split_ifs
  · have moved : RunsWith pid args { (List.finRange 3).foldl updateCounters kernel with
        rtcCount := 8 } := ⟨counted.active, counted.args⟩
    exact moved.of_kept (Kept.scheduleLoop moved.active 3)
  · exact ⟨counted.active, counted.args⟩

/-- Arguments stay until their process halts. -/
theorem step {call : Call} (runs : RunsWith pid args kernel)
    (notHalt : kernel.currentPid = some pid → ∀ status, call ≠ .halt status)
    (taken : kernel.step image call = some kernel') : RunsWith pid args kernel' := by
  rcases Option.map_eq_some_iff.mp taken with ⟨⟨next, resumption⟩, done, same⟩
  cases same
  have used : ∀ {use : FdTable → Option (Int × FdTable)},
      useFileDescriptors kernel use = some (next, resumption) → RunsWith pid args next := by
    intro use used
    rcases useFileDescriptors_eq_some used with ⟨owner, ret, fds, -, -, rfl, -⟩
    exact runs.setFds owner fds
  cases call with
  | execute command staleArgs => exact runs.of_kept (Kept.executeHandler runs.active done)
  | halt status =>
      have notOwn : kernel.currentPid ≠ some pid := fun isOwn => notHalt isOwn status rfl
      rcases Kept.haltHandler_of_closed runs.active notOwn done with ⟨closed, closedEq, kept⟩
      rcases closeDescriptors_eq_some closedEq with ⟨owner, fds, -, -, rfl⟩
      exact (runs.setFds owner fds).of_kept kept
  | «open» filename => exact used done
  | close fd => exact used done
  | read fd buf nbytes line =>
      rcases useFileDescriptors_of_read done with ⟨read, frames, readEq, rfl⟩
      rcases useFileDescriptors_eq_some readEq with ⟨owner, ret, fds, -, -, rfl, -⟩
      exact ⟨(runs.setFds owner fds).active, (runs.setFds owner fds).args⟩
  | write fd buf nbytes => exact used done
  | switchTerminal termId => exact runs.of_kept (Kept.switchTerminal runs.active done)
  | tick =>
      have same : (rtcHandler kernel).1 = next := congrArg Prod.fst (Option.some.inj done)
      rw [← same]
      exact runs.tick

end RunsWith

end MonolithicKernel.Process
