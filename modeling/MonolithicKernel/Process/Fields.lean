import MonolithicKernel.Process.Machine

/-!
Owns what the process functions can do at all: the fields of the kernel that
each one may change, and the branches that a halt, a terminal switch and a call
on descriptors can take.

Does not own what creating and starting a process change these fields to.
-/

namespace MonolithicKernel.Process

open MonolithicKernel.FileSystem
open MonolithicKernel.Lib

section Fields

variable {image : Image} {kernel kernel' : Kernel} {command staleArgs : Bytes}
  {terminal : Terminal} {hasParent : Bool}

/-- `process_create` fails without a trace, or finishes a pid that it has claimed. -/
theorem processCreate_eq_some {result : Option Pid}
    (created : processCreate image command staleArgs terminal hasParent kernel =
      some (result, kernel')) :
    (result = none ∧ kernel' = kernel) ∨
      ∃ inode pid, findExecutable image (scanCommand staleArgs 32 command).1 = some inode ∧
        kernel.getFreePid = some pid ∧ result = some pid ∧
        finishCreate image inode (scanCommand staleArgs 32 command).2 terminal hasParent
          (kernel.setActive pid .created) pid = some kernel' := by
  unfold processCreate at created
  dsimp only at created
  split at created
  · cases created
    exact .inl ⟨rfl, rfl⟩
  · split at created
    · cases created
      exact .inl ⟨rfl, rfl⟩
    · rename_i inode found _ pid isFree
      rcases Option.map_eq_some_iff.mp created with ⟨finished, done, same⟩
      cases same
      exact .inr ⟨inode, pid, found, isFree, rfl, done⟩

/-- A call that uses the descriptors changes the table that is in use. -/
theorem withFileDescriptors_eq_some {result : Type} {use : FdTable → Option (result × FdTable)}
    {ret : result} (used : withFileDescriptors kernel use = some (ret, kernel')) :
    ∃ owner fds, kernel.fileDescriptors = some owner ∧
      use (kernel.pcb owner).fileDescriptors = some (ret, fds) ∧
      kernel' = kernel.setPcb owner { kernel.pcb owner with fileDescriptors := fds } := by
  rcases Option.bind_eq_some_iff.mp used with ⟨owner, isOwner, usedFds⟩
  rcases Option.map_eq_some_iff.mp usedFds with ⟨⟨ret', fds⟩, usedEq, same⟩
  cases same
  exact ⟨owner, fds, isOwner, usedEq, rfl⟩

theorem useFileDescriptors_eq_some {use : FdTable → Option (Int × FdTable)}
    {resumption : Resumption}
    (done : useFileDescriptors kernel use = some (kernel', resumption)) :
    ∃ owner ret fds, kernel.fileDescriptors = some owner ∧
      use (kernel.pcb owner).fileDescriptors = some (ret, fds) ∧
      kernel' = kernel.setPcb owner { kernel.pcb owner with fileDescriptors := fds } ∧
      resumption = .back ret := by
  rcases Option.map_eq_some_iff.mp done with ⟨⟨ret, used⟩, usedEq, same⟩
  cases same
  rcases withFileDescriptors_eq_some usedEq with ⟨owner, fds, isOwner, usedFds, rfl⟩
  exact ⟨owner, ret, fds, isOwner, usedFds, rfl, rfl⟩

theorem read_eq_some {fd nbytes : Int} {buf : Nat} {line : TerminalLine} {resumption : Resumption}
    (done : kernel.call image (.read fd buf nbytes line) = some (kernel', resumption)) :
    ∃ owner result, kernel.fileDescriptors = some owner ∧
      readHandler image line (kernel.pcb owner).fileDescriptors fd buf nbytes = some result ∧
      kernel' = (kernel.setPcb owner { kernel.pcb owner with
        fileDescriptors := result.fds }).storeFrom buf result.stored ∧
      resumption = .back result.ret := by
  rcases Option.map_eq_some_iff.mp done with ⟨⟨result, used⟩, usedEq, same⟩
  cases same
  rcases withFileDescriptors_eq_some usedEq with ⟨owner, fds, isOwner, usedFds, rfl⟩
  rcases Option.map_eq_some_iff.mp usedFds with ⟨result', readEq, same⟩
  cases same
  exact ⟨owner, result, isOwner, readEq, rfl, rfl⟩

/-- Stores through a pointer change frames only. -/
theorem fields_of_storeFrom (pointer : Nat) (bytes : Bytes) (kernel : Kernel) :
    ∃ frames, kernel.storeFrom pointer bytes = { kernel with frames := frames } := by
  induction bytes generalizing pointer kernel with
  | nil => exact ⟨_, rfl⟩
  | cons byte bytes inductionHypothesis =>
      rw [Kernel.storeFrom]
      split_ifs
      · rcases inductionHypothesis (pointer + 1) (kernel.store _ byte) with ⟨frames, stored⟩
        exact ⟨frames, stored⟩
      · exact inductionHypothesis ..

/-- But for the frames, a read uses the table only. -/
theorem useFileDescriptors_of_read {fd nbytes : Int} {buf : Nat} {line : TerminalLine}
    {resumption : Resumption}
    (done : kernel.call image (.read fd buf nbytes line) = some (kernel', resumption)) :
    ∃ used frames, useFileDescriptors kernel (fun fds =>
        (readHandler image line fds fd buf nbytes).map fun result => (result.ret, result.fds)) =
          some (used, resumption) ∧
      kernel' = { used with frames := frames } := by
  rcases read_eq_some done with ⟨owner, result, isOwner, read, rfl, rfl⟩
  rcases fields_of_storeFrom buf result.stored (kernel.setPcb owner { kernel.pcb owner with
    fileDescriptors := result.fds }) with ⟨frames, stored⟩
  refine ⟨_, frames, ?_, stored⟩
  rw [useFileDescriptors, withFileDescriptors, isOwner, Option.bind_some, read]
  rfl

theorem closeDescriptors_eq_some (closed : closeDescriptors kernel = some kernel') :
    ∃ owner fds, kernel.fileDescriptors = some owner ∧
      closeAll (kernel.pcb owner).fileDescriptors = some fds ∧
      kernel' = kernel.setPcb owner { kernel.pcb owner with fileDescriptors := fds } := by
  rcases Option.map_eq_some_iff.mp closed with ⟨⟨ret, used⟩, usedEq, rfl⟩
  rcases withFileDescriptors_eq_some usedEq with ⟨owner, fds, isOwner, closedEq, rfl⟩
  rcases Option.map_eq_some_iff.mp closedEq with ⟨fds', closedFds, same⟩
  cases same
  exact ⟨owner, fds, isOwner, closedFds, rfl⟩

/-- A root restarts the shell once its descriptors are closed; a child gives its
terminal back to its parent. -/
theorem haltHandler_eq_some {status : UInt32} {resumption : Resumption}
    (halted : haltHandler image status kernel = some (kernel', resumption)) :
    ∃ pid closed, kernel.currentPid = some pid ∧ closeDescriptors kernel = some closed ∧
      ((∃ restarted, startShell image .inHalt (closed.pcb pid).terminalId
            ({ closed with currentPid := none }.setActive pid .unused) =
              some (kernel', restarted) ∧ resumption = restarted.withValue 0) ∨
        ∃ parent, (kernel', resumption) = returnToParent closed pid parent status) := by
  rcases Option.bind_eq_some_iff.mp halted with ⟨pid, isCurrent, halted⟩
  rcases Option.bind_eq_some_iff.mp halted with ⟨closed, closedEq, halted⟩
  refine ⟨pid, closed, isCurrent, closedEq, ?_⟩
  split at halted
  · rcases Option.map_eq_some_iff.mp halted with ⟨⟨started, restarted⟩, startedEq, same⟩
    cases same
    exact .inl ⟨restarted, startedEq, rfl⟩
  · exact .inr ⟨_, (Option.some.inj halted).symm⟩

/-- A switch that starts no shell changes the terminal on display at most. -/
theorem switchTerminal_eq_some {termId : Terminal} {resumption : Resumption}
    (switched : switchTerminal image termId kernel = some (kernel', resumption)) :
    ((∃ shown, kernel' = { kernel with currentTerminal := shown }) ∧ resumption = .back 0) ∨
      ∃ started, startShell image .inSwitchTerminal termId { kernel with
          currentTerminal := termId
          terminalActive := Function.update kernel.terminalActive termId true } =
        some (kernel', started) ∧ resumption = started.withValue 0 := by
  unfold switchTerminal at switched
  split_ifs at switched
  · cases switched
    exact .inl ⟨⟨kernel.currentTerminal, rfl⟩, rfl⟩
  · cases switched
    exact .inl ⟨⟨kernel.currentTerminal, rfl⟩, rfl⟩
  · dsimp only at switched
    split_ifs at switched
    · rcases Option.map_eq_some_iff.mp switched with ⟨⟨started, resumed⟩, startedEq, same⟩
      cases same
      exact .inr ⟨resumed, startedEq, rfl⟩
    · cases switched
      exact .inl ⟨⟨termId, rfl⟩, rfl⟩

/-- The counter loop changes PCBs only. -/
theorem fields_of_updateCounters (terminals : List Terminal) (kernel : Kernel) :
    ∃ pcb, terminals.foldl updateCounters kernel = { kernel with pcb := pcb } := by
  induction terminals generalizing kernel with
  | nil => exact ⟨kernel.pcb, rfl⟩
  | cons terminal terminals inductionHypothesis =>
      rw [List.foldl_cons, updateCounters]
      split
      · exact inductionHypothesis kernel
      · rcases inductionHypothesis (kernel.setPcb _ _) with ⟨pcb, foldEq⟩
        exact ⟨pcb, foldEq⟩

/-- The scheduling loop moves the ring, and ends at a process other than the current
one or switches to nobody. -/
theorem scheduleLoop_cases (rounds : Nat) (kernel : Kernel) :
    ∃ index, scheduleLoop rounds kernel = ({ kernel with currentIndex := index }, .back 0) ∨
      ∃ pid, kernel.terminalPids index = some pid ∧ some pid ≠ kernel.currentPid ∧
        scheduleLoop rounds kernel = processSwitch { kernel with currentIndex := index } pid := by
  induction rounds generalizing kernel with
  | zero => exact ⟨kernel.currentIndex, .inl rfl⟩
  | succ rounds inductionHypothesis =>
      have later := inductionHypothesis { kernel with currentIndex := kernel.currentIndex + 1 }
      unfold scheduleLoop
      dsimp only
      split
      · exact later
      · rename_i pid isTop
        split_ifs with isOther
        · exact ⟨kernel.currentIndex + 1, .inr ⟨pid, isTop, isOther, rfl⟩⟩
        · exact later

end Fields

end MonolithicKernel.Process
