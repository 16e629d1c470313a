import MonolithicKernel.Process.Stacks

/-!
Owns what each function of the kernel does to the stacks, one lemma for each. A
launch pushes, a halt pops, and saving a context, ticking counters and closing
descriptors change the PCBs of tops only; `KeepsBelow` records that last part.

Does not own the order in which a machine runs the functions.
-/

namespace MonolithicKernel.Process

open MonolithicKernel.FileSystem

/-- The PCBs below the tops are the same in both kernels. -/
def KeepsBelow (stack : Stacks) (kernel kernel' : Kernel) : Prop :=
  ∀ terminal, ∀ pid ∈ (stack terminal).tail, kernel'.pcb pid = kernel.pcb pid

theorem KeepsBelow.trans {stack : Stacks} {first second third : Kernel}
    (one : KeepsBelow stack first second) (two : KeepsBelow stack second third) :
    KeepsBelow stack first third :=
  fun terminal pid inTail => (two terminal pid inTail).trans (one terminal pid inTail)

/-- The current process, if there is one, is on top of a stack. -/
def CurrentOnTop (kernel : Kernel) (stack : Stacks) : Prop :=
  ∀ current, kernel.currentPid = some current →
    ∃ terminal rest, stack terminal = current :: rest

/-- `terminal_pids` points at no process below a top. -/
def TerminalsNotBelow (kernel : Kernel) (stack : Stacks) : Prop :=
  ∀ terminal pid, kernel.terminalPids terminal = some pid →
    ∀ other, pid ∉ (stack other).tail

section Effects

variable {kernel kernel' : Kernel} {stack : Stacks} {terminal : Terminal} {pid : Pid}
  {rest : List Pid}

/-! ### Launching -/

/-- A launch saves the current top, if any, and pushes the new process. -/
theorem Launched.stacked {caller : Context} {parent : Option Pid}
    (launched : Launched caller terminal parent kernel kernel' pid)
    (stacked : Stacked kernel.pcb kernel.activePids stack)
    (fresh : kernel.activePids pid ≠ .active) (currentTop : CurrentOnTop kernel stack)
    (isParent : parent = (stack terminal).head?)
    (waits : ∀ top ∈ (stack terminal).head?, kernel.currentPid = some top ∧ caller = .inExecute) :
    Stacked kernel'.pcb kernel'.activePids
        (Function.update stack terminal (pid :: stack terminal)) ∧
      KeepsBelow stack kernel kernel' := by
  have notPid : ∀ {other member}, member ∈ stack other → member ≠ pid := by
    rintro other member inStack rfl
    exact stacked.not_mem_of_inactive fresh other inStack
  have keeps : KeepsBelow stack kernel kernel' := by
    intro other member inTail
    apply launched.others member (notPid (List.mem_of_mem_tail inTail))
    intro isCurrent
    rcases currentTop member isCurrent with ⟨third, rest, top⟩
    exact stacked.head_not_mem_tail top other inTail
  have same : ∀ other, ∀ member ∈ stack other, kernel'.pcb member =
      { kernel.pcb member with kernelContext := (kernel'.pcb member).kernelContext } := by
    intro other member inStack
    by_cases isCurrent : kernel.currentPid = some member
    · rw [launched.saved member isCurrent]
    · rw [launched.others member (notPid inStack) isCurrent]
  have saved : Stacked kernel'.pcb kernel.activePids stack := by
    apply stacked.replace _ _ keeps
    · intro other member inStack
      rw [same other member inStack]
    · intro other member inStack
      rw [same other member inStack]
      exact ⟨(stacked.member other member inStack).terminalId,
        (stacked.member other member inStack).pidField,
        (stacked.member other member inStack).dispatchable⟩
  refine ⟨?_, keeps⟩
  rw [launched.activePids]
  apply saved.push (stacked.not_mem_of_inactive fresh) (launched.parentPcb.trans isParent)
    ⟨launched.terminalId, launched.pidField, launched.dispatchable⟩
  intro top isTop
  rw [launched.saved top (waits top isTop).1, (waits top isTop).2]

theorem Launched.top {caller : Context} {parent : Option Pid}
    (launched : Launched caller terminal parent kernel kernel' pid)
    (tops : ∀ other, other ≠ terminal → kernel.terminalPids other = (stack other).head?)
    (other : Terminal) :
    kernel'.terminalPids other =
      (Function.update stack terminal (pid :: stack terminal) other).head? := by
  rw [launched.terminalPids]
  by_cases here : other = terminal
  · subst here
    simp
  · simpa [here] using tops other here

/-! ### Saving the current context -/

theorem processSwitch_stacked (stacked : Stacked kernel.pcb kernel.activePids stack)
    (currentTop : CurrentOnTop kernel stack) (pid : Pid) :
    Stacked (processSwitch kernel pid).1.pcb (processSwitch kernel pid).1.activePids stack ∧
      KeepsBelow stack kernel (processSwitch kernel pid).1 := by
  have keeps : KeepsBelow stack kernel (processSwitch kernel pid).1 := by
    intro other member inTail
    apply if_neg
    intro isCurrent
    rcases currentTop member isCurrent with ⟨third, rest, top⟩
    exact stacked.head_not_mem_tail top other inTail
  have same : ∀ member, (processSwitch kernel pid).1.pcb member =
      { kernel.pcb member with
        kernelContext := ((processSwitch kernel pid).1.pcb member).kernelContext } := by
    intro member
    show (if _ then _ else _) = _
    split_ifs with isCurrent
    · simp [processSwitch, saveContext, Kernel.setPagingForProcess, isCurrent]
    · simp [processSwitch, saveContext, Kernel.setPagingForProcess, isCurrent]
  refine ⟨stacked.replace ?_ ?_ keeps, keeps⟩
  · intro other member inStack
    rw [same member]
  · intro other member inStack
    rw [same member]
    exact ⟨(stacked.member other member inStack).terminalId,
      (stacked.member other member inStack).pidField,
      (stacked.member other member inStack).dispatchable⟩

/-! ### Descriptor tables -/

theorem setFds_stacked (stacked : Stacked kernel.pcb kernel.activePids stack)
    (notBelow : ∀ terminal, pid ∉ (stack terminal).tail) (fds : FdTable)
    (dispatchable : Dispatchable (kernel.pcb pid).fileDescriptors → Dispatchable fds) :
    let changed := kernel.setPcb pid { kernel.pcb pid with fileDescriptors := fds }
    Stacked changed.pcb changed.activePids stack ∧ KeepsBelow stack kernel changed := by
  refine ⟨stacked.setFds notBelow dispatchable, fun terminal member inTail => ?_⟩
  apply Kernel.setPcb_pcb_of_ne
  rintro rfl
  exact notBelow terminal inTail

theorem dispatchable_tickCounters {fds : FdTable} (dispatchable : Dispatchable fds) :
    Dispatchable (tickCounters fds) := by
  intro slot
  unfold tickCounters
  split_ifs
  · exact dispatchable slot
  · exact dispatchable slot

/-- The counter loop changes the PCBs that `terminal_pids` points at and nothing else. -/
theorem updateCounters_stacked (terminals : List Terminal)
    (stacked : Stacked kernel.pcb kernel.activePids stack)
    (notBelow : TerminalsNotBelow kernel stack) :
    ∃ pcb, terminals.foldl updateCounters kernel = { kernel with pcb := pcb } ∧
      Stacked pcb kernel.activePids stack ∧
      KeepsBelow stack kernel { kernel with pcb := pcb } := by
  induction terminals generalizing kernel with
  | nil => exact ⟨kernel.pcb, rfl, stacked, fun _ _ _ => rfl⟩
  | cons terminal terminals inductionHypothesis =>
      rw [List.foldl_cons]
      cases found : kernel.terminalPids terminal with
      | none =>
          rw [updateCounters, found]
          exact inductionHypothesis stacked notBelow
      | some pid =>
          have counted := setFds_stacked stacked (notBelow terminal pid found)
            (tickCounters (kernel.pcb pid).fileDescriptors) dispatchable_tickCounters
          rcases @inductionHypothesis (kernel.setPcb pid { kernel.pcb pid with
            fileDescriptors := tickCounters (kernel.pcb pid).fileDescriptors }) counted.1 notBelow
            with ⟨pcb, foldEq, stacked', keeps⟩
          rw [updateCounters, found]
          exact ⟨pcb, foldEq, stacked', counted.2.trans keeps⟩

/-! ### Halting -/

theorem exists_closeSlots : ∀ (slots : List (Fin 8)) {fds : FdTable}, Dispatchable fds →
    ∃ fds', slots.foldlM closeRound fds = some fds' ∧ Dispatchable fds' := by
  intro slots
  induction slots with
  | nil => exact fun dispatchable => ⟨_, rfl, dispatchable⟩
  | cons slot slots inductionHypothesis =>
      intro fds dispatchable
      have round : ∃ fds', closeRound fds slot = some fds' ∧ Dispatchable fds' := by
        unfold closeRound
        split_ifs with free
        · exact ⟨fds, rfl, dispatchable⟩
        · rcases dispatchable slot free with ⟨table, pointer⟩
          have closed : closeHandler fds slot.val = some (table.close fds slot.val) := by
            rw [closeHandler, checkValidFd_eq_some_iff.mpr ⟨rfl, free⟩]
            simp [pointer]
          rw [pointer]
          exact ⟨_, rfl, dispatchable.close closed⟩
      rcases round with ⟨fds', closed, dispatchable'⟩
      rcases inductionHypothesis dispatchable' with ⟨final, rest, dispatchableFinal⟩
      refine ⟨final, ?_, dispatchableFinal⟩
      rw [List.foldlM_cons, closed]
      exact rest

/-- `halt_handler` first closes the descriptors of the running process. -/
theorem closeDescriptors_stacked (stacked : Stacked kernel.pcb kernel.activePids stack)
    (top : stack terminal = pid :: rest) (owner : kernel.fileDescriptors = some pid) :
    ∃ pcb, closeDescriptors kernel = some { kernel with pcb := pcb } ∧
      Stacked pcb kernel.activePids stack ∧
      KeepsBelow stack kernel { kernel with pcb := pcb } := by
  have inStack : pid ∈ stack terminal := by
    rw [top]
    exact List.mem_cons_self
  rcases exists_closeSlots [2, 3, 4, 5, 6, 7] (stacked.member terminal pid inStack).dispatchable
    with ⟨fds, closed, dispatchable⟩
  have changed := setFds_stacked stacked (stacked.head_not_mem_tail top) fds
    fun _ => dispatchable
  have used : (withFileDescriptors kernel fun fds => (closeAll fds).map fun fds => ((), fds)) =
      some ((), kernel.setPcb pid { kernel.pcb pid with fileDescriptors := fds }) := by
    rw [withFileDescriptors, owner, Option.bind_some, closeAll, closed]
    rfl
  refine ⟨_, ?_, changed.1, changed.2⟩
  rw [closeDescriptors, used]
  rfl

/-- Returning to the parent pops the child; the parent is where it waited. -/
theorem returnToParent_stacked (kernel : Kernel) {parent : Pid} (status : UInt32)
    (stacked : Stacked kernel.pcb kernel.activePids stack)
    (top : stack terminal = pid :: parent :: rest)
    (tops : ∀ other, kernel.terminalPids other = (stack other).head?) :
    ∃ kernel', returnToParent kernel pid parent status =
        (kernel', .returned parent .inExecute status) ∧
      Stacked kernel'.pcb kernel'.activePids
        (Function.update stack terminal (parent :: rest)) ∧
      kernel'.pcb = kernel.pcb ∧
      kernel'.activePids = Function.update kernel.activePids pid .unused ∧
      (∀ other, kernel'.terminalPids other =
        (Function.update stack terminal (parent :: rest) other).head?) ∧
      kernel'.currentPid = some parent ∧ kernel'.fileDescriptors = some parent ∧
      kernel'.userFrame = 2 + parent.val ∧ kernel'.esp0 = Kernel.getKernelStartEsp parent ∧
      kernel'.terminalActive = kernel.terminalActive := by
  have parentInTail : parent ∈ (stack terminal).tail := by
    rw [top]
    exact List.mem_cons_self
  have parentOn := stacked.member terminal parent (List.mem_of_mem_tail parentInTail)
  have current : (returnToParent kernel pid parent status).1.currentPid = some parent :=
    congrArg some parentOn.pidField
  refine ⟨(returnToParent kernel pid parent status).1, ?_, stacked.pop top, rfl, rfl, ?_, current,
    rfl, ?_, ?_, rfl⟩
  · rw [← stacked.waiting terminal parent parentInTail]
    rfl
  · intro other
    show Function.update kernel.terminalPids _ _ other = _
    rw [parentOn.terminalId, parentOn.pidField]
    by_cases here : other = terminal
    · subst here
      simp
    · simpa [here] using tops other
  · show 2 + (kernel.pcb parent).pid.val = _
    rw [parentOn.pidField]
  · show Kernel.getKernelStartEsp (kernel.pcb parent).pid = _
    rw [parentOn.pidField]

/-- On top of its stack, a process has the next one as its parent. -/
theorem parentPcb_of_top {pcb : Pid → Pcb} {activePids : Pid → PidStatus}
    (stacked : Stacked pcb activePids stack) (top : stack terminal = pid :: rest) :
    (pcb pid).parentPcb = rest.head? := by
  have linked := stacked.linked terminal
  rw [top] at linked
  exact linked.1

theorem terminalId_of_top {pcb : Pid → Pcb} {activePids : Pid → PidStatus}
    (stacked : Stacked pcb activePids stack) (top : stack terminal = pid :: rest) :
    (pcb pid).terminalId = terminal := by
  apply (stacked.member terminal pid ?_).terminalId
  rw [top]
  exact List.mem_cons_self

theorem active_of_top (stacked : Stacked kernel.pcb kernel.activePids stack)
    (top : stack terminal = pid :: rest) : kernel.activePids pid = .active := by
  apply stacked.active terminal pid
  rw [top]
  exact List.mem_cons_self

end Effects

end MonolithicKernel.Process
