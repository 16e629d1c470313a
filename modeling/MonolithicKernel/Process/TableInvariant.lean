import MonolithicKernel.Process.Machine
import MonolithicKernel.Process.Effects

/-!
Owns the invariant of the process tables: the PCBs spell out one stack of
processes for each terminal, `terminal_pids` points at the tops, `current_pid`
is one of them, and everything that follows the current process does follow it.
Every step of the machine moves at most one stack, by a push, a pop or the
replacement of a root, and leaves the PCBs below the tops alone.

Does not own histories of more than one call of the same process.
-/

namespace MonolithicKernel.Process

open MonolithicKernel.FileSystem
open MonolithicKernel.Foundation
open MonolithicKernel.Lib

/-- The tables of a kernel between two steps. -/
structure TableOk (kernel : Kernel) (stack : Stacks) : Prop where
  stacked : Stacked kernel.pcb kernel.activePids stack
  settled : ∀ pid, kernel.activePids pid ≠ .created
  top : ∀ terminal, kernel.terminalPids terminal = (stack terminal).head?
  current : ∃ terminal pid rest, stack terminal = pid :: rest ∧ kernel.currentPid = some pid
  fileDescriptors : kernel.fileDescriptors = kernel.currentPid
  userFrame : ∀ pid, kernel.currentPid = some pid → kernel.userFrame = 2 + pid.val
  esp0 : ∀ pid, kernel.currentPid = some pid → kernel.esp0 = Kernel.getKernelStartEsp pid
  started : ∀ terminal, kernel.terminalActive terminal = true ↔ stack terminal ≠ []

section Pieces

variable {kernel kernel' : Kernel} {stack : Stacks} {terminal : Terminal} {pid : Pid}
  {rest : List Pid}

theorem TableOk.currentOnTop (ok : TableOk kernel stack) : CurrentOnTop kernel stack := by
  intro current isCurrent
  rcases ok.current with ⟨terminal, pid, rest, top, isTop⟩
  cases isTop.symm.trans isCurrent
  exact ⟨terminal, rest, top⟩

theorem TableOk.terminalsNotBelow (ok : TableOk kernel stack) :
    TerminalsNotBelow kernel stack := by
  intro terminal pid isTop
  rw [ok.top] at isTop
  cases shape : stack terminal with
  | nil => simp [shape] at isTop
  | cons top rest =>
      rw [shape, List.head?_cons, Option.some.injEq] at isTop
      subst isTop
      exact ok.stacked.head_not_mem_tail shape

theorem TableOk.running (ok : TableOk kernel stack) :
    ∀ current, kernel.currentPid = some current → kernel.activePids current = .active := by
  intro current isCurrent
  rcases ok.currentOnTop current isCurrent with ⟨terminal, rest, top⟩
  exact active_of_top ok.stacked top

/-- A pid outside the stacks is free. -/
theorem TableOk.unused (ok : TableOk kernel stack) (nowhere : ∀ terminal, pid ∉ stack terminal) :
    kernel.activePids pid = .unused := by
  have inactive := ok.stacked.inactive pid nowhere
  have settled := ok.settled pid
  cases status : kernel.activePids pid with
  | unused => rfl
  | created => exact absurd status settled
  | active => exact absurd status inactive

/-- A pid that is given back is not on its way to a process. -/
theorem TableOk.settled_freed (ok : TableOk kernel stack) (pid other : Pid) :
    Function.update kernel.activePids pid .unused other ≠ .created := by
  by_cases here : other = pid
  · rw [here, Function.update_self]
    decide
  · rw [Function.update_of_ne here]
    exact ok.settled other

/-- PCBs may change as long as the stacks read the same of them. -/
theorem TableOk.setPcbs (ok : TableOk kernel stack) {pcb : Pid → Pcb}
    (stacked : Stacked pcb kernel.activePids stack) : TableOk { kernel with pcb := pcb } stack :=
  ⟨stacked, ok.settled, ok.top, ok.current, ok.fileDescriptors, ok.userFrame, ok.esp0, ok.started⟩

/-- Fields that the tables do not read may change. -/
theorem TableOk.setClock (ok : TableOk kernel stack) (rtcCount : Nat) (currentIndex : Terminal) :
    TableOk { kernel with rtcCount := rtcCount, currentIndex := currentIndex } stack :=
  ⟨ok.stacked, ok.settled, ok.top, ok.current, ok.fileDescriptors, ok.userFrame, ok.esp0,
    ok.started⟩

/-- The tables say nothing about memory. -/
theorem TableOk.setFrames (ok : TableOk kernel stack) (frames : Pid → Frame) :
    TableOk { kernel with frames := frames } stack :=
  ⟨ok.stacked, ok.settled, ok.top, ok.current, ok.fileDescriptors, ok.userFrame, ok.esp0,
    ok.started⟩

/-- The running process uses its own descriptor table. -/
theorem TableOk.useTable {result : Type} {use : FdTable → Option (result × FdTable)}
    {ret : result} (ok : TableOk kernel stack)
    (keeps : ∀ fds ret fds', Dispatchable fds → use fds = some (ret, fds') → Dispatchable fds')
    (used : withFileDescriptors kernel use = some (ret, kernel')) :
    TableOk kernel' stack ∧ KeepsBelow stack kernel kernel' := by
  rcases ok.current with ⟨terminal, pid, rest, top, isCurrent⟩
  rw [withFileDescriptors, ok.fileDescriptors, isCurrent] at used
  rcases Option.map_eq_some_iff.mp used with ⟨⟨ret', fds'⟩, usedFds, same⟩
  cases same
  have changed := setFds_stacked ok.stacked (ok.stacked.head_not_mem_tail top) fds'
    fun dispatchable => keeps _ _ _ dispatchable usedFds
  exact ⟨ok.setPcbs changed.1, changed.2⟩

/-- A launch pushes the new process. The stacks and the other tops may be those
of a kernel whose terminal has just lost its root. -/
theorem tableOk_of_launched (kernel : Kernel) {caller : Context} {parent : Option Pid}
    (stacked : Stacked kernel.pcb kernel.activePids stack)
    (settled : ∀ other, kernel.activePids other ≠ .created)
    (tops : ∀ other, other ≠ terminal → kernel.terminalPids other = (stack other).head?)
    (currentTop : CurrentOnTop kernel stack)
    (started : ∀ other, kernel.terminalActive other = true ↔ other = terminal ∨ stack other ≠ [])
    (unused : kernel.activePids pid = .unused)
    (launched : Launched caller terminal parent kernel kernel' pid)
    (isParent : parent = (stack terminal).head?)
    (waits : ∀ top ∈ (stack terminal).head?, kernel.currentPid = some top ∧ caller = .inExecute) :
    TableOk kernel' (Function.update stack terminal (pid :: stack terminal)) ∧
      KeepsBelow stack kernel kernel' := by
  have fresh : kernel.activePids pid ≠ .active := by
    rw [unused]
    decide
  have pushed := launched.stacked stacked fresh currentTop isParent waits
  refine ⟨⟨pushed.1, ?_, launched.top tops, ?_, ?_, ?_, ?_, ?_⟩, pushed.2⟩
  · intro other
    rw [launched.activePids]
    by_cases here : other = pid
    · rw [here, Function.update_self]
      decide
    · rw [Function.update_of_ne here]
      exact settled other
  · exact ⟨terminal, pid, stack terminal, Function.update_self .., launched.currentPid⟩
  · rw [launched.fileDescriptors, launched.currentPid]
  · intro other isCurrent
    cases launched.currentPid.symm.trans isCurrent
    exact launched.userFrame
  · intro other isCurrent
    cases launched.currentPid.symm.trans isCurrent
    exact launched.esp0
  · intro other
    rw [launched.terminalActive, started]
    by_cases here : other = terminal
    · subst here
      simp
    · simp [here]

/-! ### `execute` -/

theorem TableOk.execute {image : Image} {command staleArgs : Bytes} {resumption : Resumption}
    (ok : TableOk kernel stack)
    (done : executeHandler image command staleArgs kernel = some (kernel', resumption)) :
    (kernel' = kernel ∧ resumption = .back (-1)) ∨
      ∃ terminal current rest pid entryPoint, stack terminal = current :: rest ∧
        kernel.currentPid = some current ∧ resumption = .started pid entryPoint ∧
        TableOk kernel' (Function.update stack terminal (pid :: stack terminal)) ∧
        KeepsBelow stack kernel kernel' ∧
        kernel'.pcb current = { kernel.pcb current with kernelContext := .inExecute } := by
  rcases ok.current with ⟨terminal, current, rest, top, isCurrent⟩
  rw [executeHandler, isCurrent, Option.bind_some, terminalId_of_top ok.stacked top] at done
  rcases launch_cases ok.running done with failed | ⟨pid, entryPoint, started, unused, launched⟩
  · exact .inl failed
  · have terminalStarted : ∀ other, kernel.terminalActive other = true ↔
        other = terminal ∨ stack other ≠ [] := by
      intro other
      rw [ok.started]
      constructor
      · exact .inr
      · rintro (rfl | nonempty)
        · simp [top]
        · exact nonempty
    have pushed := tableOk_of_launched kernel ok.stacked ok.settled (fun other _ => ok.top other)
      ok.currentOnTop terminalStarted unused launched (by simp [top, isCurrent])
      (by simp [top, isCurrent])
    exact .inr ⟨terminal, current, rest, pid, entryPoint, top, isCurrent, started, pushed.1,
      pushed.2, launched.saved current isCurrent⟩

/-! ### `halt` -/

/-- **A child halts.** Its parent is on top again and gets the status. -/
theorem TableOk.halt_child {parent : Pid} (ok : TableOk kernel stack)
    (top : stack terminal = pid :: parent :: rest) (isCurrent : kernel.currentPid = some pid)
    (image : Image) (status : UInt32) :
    ∃ kernel', haltHandler image status kernel =
        some (kernel', .returned parent .inExecute status) ∧
      TableOk kernel' (Function.update stack terminal (parent :: rest)) ∧
      KeepsBelow stack kernel kernel' ∧ kernel'.currentPid = some parent := by
  rcases closeDescriptors_stacked ok.stacked top (ok.fileDescriptors.trans isCurrent) with
    ⟨pcb, closed, stacked, keeps⟩
  rcases returnToParent_stacked { kernel with pcb := pcb } status stacked
    top ok.top with ⟨kernel', returned, popped, samePcb, activePids, tops, current,
      fileDescriptors, userFrame, esp0, terminalActive⟩
  refine ⟨kernel', ?_, ⟨popped, ?_, tops, ?_, ?_, ?_, ?_, ?_⟩, ?_, current⟩
  · rw [haltHandler, isCurrent, Option.bind_some, closed, Option.bind_some]
    dsimp only
    rw [parentPcb_of_top stacked top, List.head?_cons]
    exact congrArg some returned
  · intro other
    rw [activePids]
    exact ok.settled_freed pid other
  · exact ⟨terminal, parent, rest, Function.update_self .., current⟩
  · rw [fileDescriptors, current]
  · intro other isOther
    cases current.symm.trans isOther
    exact userFrame
  · intro other isOther
    cases current.symm.trans isOther
    exact esp0
  · intro other
    rw [terminalActive]
    apply (ok.started other).trans
    by_cases here : other = terminal
    · subst here
      simp [top]
    · simp [here]
  · intro other member inTail
    rw [samePcb]
    exact keeps other member inTail

/-- **A root halts.** A fresh shell takes its place on the terminal. -/
theorem TableOk.halt_root {image : Image} (shell : StartableShell image)
    (ok : TableOk kernel stack) (top : stack terminal = [pid])
    (isCurrent : kernel.currentPid = some pid) (status : UInt32) :
    ∃ kernel' fresh entryPoint, haltHandler image status kernel =
        some (kernel', .started fresh entryPoint) ∧
      TableOk kernel' (Function.update stack terminal [fresh]) ∧
      KeepsBelow stack kernel kernel' := by
  rcases closeDescriptors_stacked ok.stacked top (ok.fileDescriptors.trans isCurrent) with
    ⟨pcb, closed, stacked, keeps⟩
  have noCurrent : CurrentOnTop ({ kernel with pcb := pcb, currentPid := none }.setActive pid
      .unused) (Function.update stack terminal []) := by
    intro current impossible
    cases impossible
  rcases exists_startShell shell .inHalt terminal
    ({ kernel with pcb := pcb, currentPid := none }.setActive pid .unused)
    (Function.update_self ..) (fun current impossible => by cases impossible) with
    ⟨kernel', fresh, entryPoint, started, unused, launched⟩
  have pushed := tableOk_of_launched _ (stacked.pop top) ?_ ?_ noCurrent ?_ unused launched
    (by simp) (by simp)
  · rw [Function.update_self, Function.update_idem] at pushed
    refine ⟨kernel', fresh, entryPoint, ?_, pushed.1, keeps.trans ?_⟩
    · rw [haltHandler, isCurrent, Option.bind_some, closed, Option.bind_some]
      dsimp only
      rw [parentPcb_of_top stacked top, terminalId_of_top stacked top, List.head?_nil]
      dsimp only
      rw [started]
      rfl
    · intro other member inTail
      apply pushed.2 other member
      by_cases here : other = terminal
      · subst here
        simp [top] at inTail
      · rwa [Function.update_of_ne here]
  · exact ok.settled_freed pid
  · intro other elsewhere
    rw [Function.update_of_ne elsewhere]
    exact ok.top other
  · intro other
    apply (ok.started other).trans
    by_cases here : other = terminal
    · subst here
      simp [top]
    · simp [here]

/-! ### `switch_terminal` -/

theorem TableOk.switchTerminal {image : Image} (shell : StartableShell image)
    (ok : TableOk kernel stack) (termId : Terminal) :
    ∃ kernel' resumption, switchTerminal image termId kernel = some (kernel', resumption) ∧
      KeepsBelow stack kernel kernel' ∧
      (TableOk kernel' stack ∨
        stack termId = [] ∧ ∃ fresh, TableOk kernel' (Function.update stack termId [fresh])) := by
  unfold Process.switchTerminal
  by_cases displayed : termId = kernel.currentTerminal
  · rw [if_pos displayed]
    exact ⟨_, _, rfl, fun _ _ _ => rfl, .inl ok⟩
  by_cases full : kernel.getFreePid = none ∧ kernel.terminalActive termId = false
  · rw [if_neg displayed, if_pos full]
    exact ⟨_, _, rfl, fun _ _ _ => rfl, .inl ok⟩
  rw [if_neg displayed, if_neg full]
  dsimp only
  cases isActive : kernel.terminalActive termId with
  | true =>
      rw [if_neg (by decide)]
      exact ⟨_, _, rfl, fun _ _ _ => rfl, .inl ⟨ok.stacked, ok.settled, ok.top, ok.current,
        ok.fileDescriptors, ok.userFrame, ok.esp0, ok.started⟩⟩
  | false =>
      rw [if_pos rfl]
      have empty : stack termId = [] := by
        by_contra nonempty
        rw [(ok.started termId).mpr nonempty] at isActive
        cases isActive
      have somePid : ∃ free, kernel.getFreePid = some free := by
        rw [← Option.ne_none_iff_exists']
        exact fun noPid => full ⟨noPid, isActive⟩
      rcases somePid with ⟨free, isFree⟩
      rcases exists_startShell shell .inSwitchTerminal termId
        { kernel with
          currentTerminal := termId
          terminalActive := Function.update kernel.terminalActive termId true }
        (unused_of_getFreePid isFree) ok.running with
        ⟨kernel', fresh, entryPoint, started, unused, launched⟩
      have pushed := tableOk_of_launched
        { kernel with
          currentTerminal := termId
          terminalActive := Function.update kernel.terminalActive termId true }
        ok.stacked ok.settled (fun other _ => ok.top other) ok.currentOnTop ?_ unused launched
        (by simp [empty]) (by simp [empty])
      · rw [empty] at pushed
        rw [started]
        exact ⟨_, _, rfl, pushed.2, .inr ⟨empty, fresh, pushed.1⟩⟩
      · intro other
        show Function.update kernel.terminalActive termId true other = true ↔ _
        by_cases here : other = termId
        · subst here
          simp
        · simp [here, ok.started]

/-! ### Ticks -/

theorem TableOk.processSwitch (ok : TableOk kernel stack) (top : stack terminal = pid :: rest) :
    TableOk (processSwitch kernel pid).1 stack ∧
      KeepsBelow stack kernel (processSwitch kernel pid).1 := by
  have saved := processSwitch_stacked ok.stacked ok.currentOnTop pid
  refine ⟨⟨saved.1, ok.settled, ok.top, ⟨terminal, pid, rest, top, rfl⟩, rfl, ?_, ?_, ok.started⟩,
    saved.2⟩
  · rintro other isOther
    cases isOther
    rfl
  · rintro other isOther
    cases isOther
    rfl

theorem TableOk.scheduleLoop (rounds : Nat) (ok : TableOk kernel stack) :
    TableOk (scheduleLoop rounds kernel).1 stack ∧
      KeepsBelow stack kernel (scheduleLoop rounds kernel).1 := by
  rcases scheduleLoop_cases rounds kernel with ⟨index, none | ⟨pid, isTop, -, switched⟩⟩
  · rw [none]
    exact ⟨ok.setClock kernel.rtcCount index, fun _ _ _ => rfl⟩
  · rw [ok.top] at isTop
    rcases List.head?_eq_some_iff.mp isTop with ⟨rest, top⟩
    rw [switched]
    exact (ok.setClock kernel.rtcCount index).processSwitch top

theorem TableOk.tick (ok : TableOk kernel stack) :
    TableOk (rtcHandler kernel).1 stack ∧ KeepsBelow stack kernel (rtcHandler kernel).1 := by
  rcases updateCounters_stacked (List.finRange 3) ok.stacked ok.terminalsNotBelow with
    ⟨pcb, counted, stacked, keeps⟩
  have countedOk := ok.setPcbs stacked
  unfold rtcHandler
  rw [counted]
  dsimp only
  split_ifs
  · have scheduled := (countedOk.setClock 8 kernel.currentIndex).scheduleLoop 3
    exact ⟨scheduled.1, keeps.trans scheduled.2⟩
  · exact ⟨countedOk.setClock (kernel.rtcCount - 1) kernel.currentIndex, keeps⟩

end Pieces

end MonolithicKernel.Process
