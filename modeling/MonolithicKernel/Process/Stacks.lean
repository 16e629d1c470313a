import MonolithicKernel.Foundation.ParentChain
import MonolithicKernel.Process.Launch

/-!
Owns the abstract model of the process tables: every terminal runs a stack of
processes, the foreground process on top and each process above its parent.
`Stacked` says that PCBs and `active_pids` spell out given stacks; a launch
pushes on a stack and a halt pops.

Only the top of a stack is ever run, saved, ticked or halted, so a process below
a top keeps its PCB, and with it the place in `execute_handler` where it waits.

Does not own `terminal_pids` and the other pointers to the tops.
-/

namespace MonolithicKernel.Process

open MonolithicKernel.FileSystem
open MonolithicKernel.Foundation

/-- The processes of each terminal, the foreground process first. -/
abbrev Stacks := Terminal → List Pid

/-- What a PCB says about a process of a terminal's stack. -/
structure OnTerminal (pcb : Pcb) (terminal : Terminal) (pid : Pid) : Prop where
  terminalId : pcb.terminalId = terminal
  pidField : pcb.pid = pid
  dispatchable : Dispatchable pcb.fileDescriptors

/-- The PCBs and `active_pids` spell out the stacks. -/
structure Stacked (pcb : Pid → Pcb) (activePids : Pid → PidStatus) (stack : Stacks) : Prop where
  linked : ∀ terminal, Linked (fun pid => (pcb pid).parentPcb) (stack terminal)
  member : ∀ terminal, ∀ pid ∈ stack terminal, OnTerminal (pcb pid) terminal pid
  active : ∀ terminal, ∀ pid ∈ stack terminal, activePids pid = .active
  waiting : ∀ terminal, ∀ pid ∈ (stack terminal).tail, (pcb pid).kernelContext = .inExecute
  inactive : ∀ pid, (∀ terminal, pid ∉ stack terminal) → activePids pid ≠ .active

namespace Stacked

variable {pcb pcb' : Pid → Pcb} {activePids : Pid → PidStatus} {stack : Stacks}
  {terminal other : Terminal} {pid : Pid} {rest : List Pid}

/-- A process lies on the stack of one terminal only. -/
theorem terminal_unique (stacked : Stacked pcb activePids stack) (here : pid ∈ stack terminal)
    (there : pid ∈ stack other) : terminal = other :=
  (stacked.member _ _ here).terminalId.symm.trans (stacked.member _ _ there).terminalId

theorem not_mem_of_inactive (stacked : Stacked pcb activePids stack)
    (inactive : activePids pid ≠ .active) (terminal : Terminal) : pid ∉ stack terminal :=
  fun here => inactive (stacked.active terminal pid here)

theorem active_iff (stacked : Stacked pcb activePids stack) :
    activePids pid = .active ↔ ∃ terminal, pid ∈ stack terminal := by
  constructor
  · intro active
    by_contra nowhere
    exact stacked.inactive pid (not_exists.mp nowhere) active
  · rintro ⟨terminal, here⟩
    exact stacked.active terminal pid here

/-- The top of a stack is not below a top. -/
theorem head_not_mem_tail (stacked : Stacked pcb activePids stack)
    (top : stack terminal = pid :: rest) (other : Terminal) : pid ∉ (stack other).tail := by
  intro below
  have here : pid ∈ stack terminal := by
    rw [top]
    exact List.mem_cons_self
  have same := stacked.terminal_unique here (List.mem_of_mem_tail below)
  rw [← same, top, List.tail_cons] at below
  have linked := stacked.linked terminal
  rw [top] at linked
  exact (List.nodup_cons.mp linked.nodup).1 below

/-- PCBs may change in any way that keeps what the stacks read of them. -/
theorem replace (stacked : Stacked pcb activePids stack)
    (parents : ∀ terminal, ∀ pid ∈ stack terminal, (pcb' pid).parentPcb = (pcb pid).parentPcb)
    (members : ∀ terminal, ∀ pid ∈ stack terminal, OnTerminal (pcb' pid) terminal pid)
    (below : ∀ terminal, ∀ pid ∈ (stack terminal).tail, pcb' pid = pcb pid) :
    Stacked pcb' activePids stack where
  linked terminal := (stacked.linked terminal).congr (parents terminal)
  member := members
  active := stacked.active
  waiting := by
    intro terminal pid inTail
    rw [below terminal pid inTail]
    exact stacked.waiting terminal pid inTail
  inactive := stacked.inactive

/-- A process that is not below a top may get another descriptor table. -/
theorem setFds (stacked : Stacked pcb activePids stack)
    (notBelow : ∀ terminal, pid ∉ (stack terminal).tail) {fds : FdTable}
    (dispatchable : Dispatchable (pcb pid).fileDescriptors → Dispatchable fds) :
    Stacked (Function.update pcb pid { pcb pid with fileDescriptors := fds }) activePids stack := by
  apply stacked.replace
  · intro terminal member _
    by_cases here : member = pid
    · subst here
      rw [Function.update_self]
    · rw [Function.update_of_ne here]
  · intro terminal member inStack
    have before := stacked.member terminal member inStack
    by_cases here : member = pid
    · subst here
      rw [Function.update_self]
      exact ⟨before.terminalId, before.pidField, dispatchable before.dispatchable⟩
    · rw [Function.update_of_ne here]
      exact before
  · intro terminal member inTail
    apply Function.update_of_ne
    rintro rfl
    exact notBelow terminal inTail

/-- A pid that is not active may get another status that is not active. -/
theorem setInactive (stacked : Stacked pcb activePids stack) (inactive : activePids pid ≠ .active)
    {status : PidStatus} (notActive : status ≠ .active) :
    Stacked pcb (Function.update activePids pid status) stack where
  linked := stacked.linked
  member := stacked.member
  active := by
    intro terminal member inStack
    rw [Function.update_of_ne]
    · exact stacked.active terminal member inStack
    · rintro rfl
      exact stacked.not_mem_of_inactive inactive terminal inStack
  waiting := stacked.waiting
  inactive := by
    intro member nowhere
    by_cases here : member = pid
    · rw [here, Function.update_self]
      exact notActive
    · rw [Function.update_of_ne here]
      exact stacked.inactive member nowhere

/-- A free pid is pushed: its PCB points at the old top, which waits for it. -/
theorem push (stacked : Stacked pcb activePids stack)
    (fresh : ∀ terminal, pid ∉ stack terminal)
    (parent : (pcb pid).parentPcb = (stack terminal).head?)
    (onTerminal : OnTerminal (pcb pid) terminal pid)
    (oldTop : ∀ top ∈ (stack terminal).head?, (pcb top).kernelContext = .inExecute) :
    Stacked pcb (Function.update activePids pid .active)
      (Function.update stack terminal (pid :: stack terminal)) where
  linked other := by
    by_cases same : other = terminal
    · subst same
      rw [Function.update_self]
      exact ⟨parent, stacked.linked other⟩
    · rw [Function.update_of_ne same]
      exact stacked.linked other
  member other member inStack := by
    by_cases same : other = terminal
    · subst same
      rw [Function.update_self] at inStack
      rcases List.mem_cons.mp inStack with rfl | older
      · exact onTerminal
      · exact stacked.member other member older
    · rw [Function.update_of_ne same] at inStack
      exact stacked.member other member inStack
  active other member inStack := by
    by_cases new : member = pid
    · rw [new, Function.update_self]
    · rw [Function.update_of_ne new]
      apply stacked.active other
      by_cases same : other = terminal
      · subst same
        rw [Function.update_self] at inStack
        exact (List.mem_cons.mp inStack).resolve_left new
      · rwa [Function.update_of_ne same] at inStack
  waiting other member inTail := by
    by_cases same : other = terminal
    · subst same
      rw [Function.update_self, List.tail_cons] at inTail
      cases shape : stack other with
      | nil => simp [shape] at inTail
      | cons top rest =>
          rw [shape] at inTail
          rcases List.mem_cons.mp inTail with rfl | older
          · exact oldTop member (by simp [shape])
          · exact stacked.waiting other member (by simpa [shape] using older)
    · rw [Function.update_of_ne same] at inTail
      exact stacked.waiting other member inTail
  inactive member nowhere := by
    have notNew : member ≠ pid := by
      rintro rfl
      apply nowhere terminal
      rw [Function.update_self]
      exact List.mem_cons_self
    rw [Function.update_of_ne notNew]
    apply stacked.inactive
    intro other inStack
    apply nowhere other
    by_cases same : other = terminal
    · subst same
      rw [Function.update_self]
      exact List.mem_cons_of_mem _ inStack
    · rwa [Function.update_of_ne same]

/-- The top is popped and its pid is free again. -/
theorem pop (stacked : Stacked pcb activePids stack) (top : stack terminal = pid :: rest) :
    Stacked pcb (Function.update activePids pid .unused)
      (Function.update stack terminal rest) := by
  have topMember : pid ∈ stack terminal := by
    rw [top]
    exact List.mem_cons_self
  have linked := stacked.linked terminal
  rw [top] at linked
  have gone : pid ∉ rest := (List.nodup_cons.mp linked.nodup).1
  have kept : ∀ other, ∀ member ∈ Function.update stack terminal rest other,
      member ∈ stack other ∧ member ≠ pid := by
    intro other member inStack
    by_cases same : other = terminal
    · subst same
      rw [Function.update_self] at inStack
      refine ⟨?_, fun isTop => gone (isTop ▸ inStack)⟩
      rw [top]
      exact List.mem_cons_of_mem _ inStack
    · rw [Function.update_of_ne same] at inStack
      refine ⟨inStack, ?_⟩
      rintro rfl
      exact same (stacked.terminal_unique inStack topMember)
  constructor
  · intro other
    by_cases same : other = terminal
    · subst same
      rw [Function.update_self]
      exact linked.2
    · rw [Function.update_of_ne same]
      exact stacked.linked other
  · intro other member inStack
    exact stacked.member other member (kept other member inStack).1
  · intro other member inStack
    rw [Function.update_of_ne (kept other member inStack).2]
    exact stacked.active other member (kept other member inStack).1
  · intro other member inTail
    apply stacked.waiting other
    by_cases same : other = terminal
    · subst same
      rw [Function.update_self] at inTail
      rw [top]
      exact List.mem_of_mem_tail inTail
    · rwa [Function.update_of_ne same] at inTail
  · intro member nowhere
    by_cases isTop : member = pid
    · rw [isTop, Function.update_self]
      decide
    · rw [Function.update_of_ne isTop]
      apply stacked.inactive
      intro other inStack
      apply nowhere other
      by_cases same : other = terminal
      · subst same
        rw [Function.update_self]
        rw [top] at inStack
        exact (List.mem_cons.mp inStack).resolve_left isTop
      · rwa [Function.update_of_ne same]

end Stacked

end MonolithicKernel.Process
