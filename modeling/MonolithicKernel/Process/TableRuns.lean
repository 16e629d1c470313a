import MonolithicKernel.Process.TableInvariant

/-!
Owns the process tables over whole runs from boot. One step moves the stacks by
one `Move`; the invariant therefore holds in every state of every run, and read
through `terminal_pids` and the parent pointers alone it is `ProcessTableOk`.

Does not own images without a loadable shell, on which a root that halts leaves
its terminal without a process.
-/

namespace MonolithicKernel.Process

open MonolithicKernel.FileSystem
open MonolithicKernel.Foundation

/-- What one call of the process `current` does to the stacks. -/
inductive Move (current : Pid) : Call → Stacks → Stacks → Prop where
  | stay {call : Call} {stack : Stacks} : Move current call stack stack
  | push {command staleArgs : Lib.Bytes} {stack : Stacks} {terminal : Terminal} {rest : List Pid}
      {pid : Pid} : stack terminal = current :: rest →
      Move current (.execute command staleArgs) stack
        (Function.update stack terminal (pid :: current :: rest))
  | pop {status : UInt32} {stack : Stacks} {terminal : Terminal} {parent : Pid}
      {rest : List Pid} : stack terminal = current :: parent :: rest →
      Move current (.halt status) stack (Function.update stack terminal (parent :: rest))
  | restart {status : UInt32} {stack : Stacks} {terminal : Terminal} {pid : Pid} :
      stack terminal = [current] →
      Move current (.halt status) stack (Function.update stack terminal [pid])
  | start {stack : Stacks} {terminal : Terminal} {pid : Pid} : stack terminal = [] →
      Move current (.switchTerminal terminal) stack (Function.update stack terminal [pid])

/-- No move empties a stack. -/
theorem Move.nonempty {current : Pid} {call : Call} {stack stack' : Stacks}
    (move : Move current call stack stack') {terminal : Terminal}
    (nonempty : stack terminal ≠ []) : stack' terminal ≠ [] := by
  cases move with
  | stay => exact nonempty
  | @push _ _ _ moved _ _ _ =>
      by_cases here : terminal = moved
      · subst here
        simp
      · simpa [here] using nonempty
  | @pop _ _ moved _ _ _ =>
      by_cases here : terminal = moved
      · subst here
        simp
      · simpa [here] using nonempty
  | @restart _ _ moved _ _ =>
      by_cases here : terminal = moved
      · subst here
        simp
      · simpa [here] using nonempty
  | @start _ moved _ _ =>
      by_cases here : terminal = moved
      · subst here
        simp
      · simpa [here] using nonempty

section Steps

variable {image : Image} {kernel kernel' : Kernel} {stack : Stacks} {current : Pid}

/-- Calls on descriptors leave the stacks alone. -/
theorem TableOk.useFileDescriptors {use : FdTable → Option (Int × FdTable)}
    {resumption : Resumption} (ok : TableOk kernel stack)
    (keeps : ∀ fds ret fds', Dispatchable fds → use fds = some (ret, fds') → Dispatchable fds')
    (done : useFileDescriptors kernel use = some (kernel', resumption)) :
    TableOk kernel' stack ∧ KeepsBelow stack kernel kernel' := by
  rcases Option.map_eq_some_iff.mp done with ⟨⟨ret, used⟩, usedEq, same⟩
  cases same
  have used := ok.useTable keeps usedEq
  exact used

/-- **One step.** -/
theorem TableOk.step (shell : StartableShell image) {call : Call} (ok : TableOk kernel stack)
    (isCurrent : kernel.currentPid = some current)
    (taken : kernel.step image call = some kernel') :
    ∃ stack', TableOk kernel' stack' ∧ Move current call stack stack' ∧
      KeepsBelow stack kernel kernel' := by
  rcases Option.map_eq_some_iff.mp taken with ⟨⟨next, resumption⟩, done, same⟩
  cases same
  cases call with
  | execute command staleArgs =>
      rcases ok.execute done with ⟨rfl, -⟩ |
        ⟨terminal, top, rest, pid, entryPoint, shape, isTop, -, pushed, keeps, -⟩
      · exact ⟨stack, ok, .stay, fun _ _ _ => rfl⟩
      · cases isTop.symm.trans isCurrent
        rw [shape] at pushed
        exact ⟨_, pushed, .push shape, keeps⟩
  | halt status =>
      rcases ok.current with ⟨terminal, top, rest, shape, isTop⟩
      cases isTop.symm.trans isCurrent
      cases rest with
      | nil =>
          rcases ok.halt_root shell shape isCurrent status with
            ⟨halted, fresh, entryPoint, haltEq, restarted, keeps⟩
          cases haltEq.symm.trans done
          exact ⟨_, restarted, .restart shape, keeps⟩
      | cons parent rest =>
          rcases ok.halt_child shape isCurrent image status with
            ⟨halted, haltEq, popped, keeps, -⟩
          cases haltEq.symm.trans done
          exact ⟨_, popped, .pop shape, keeps⟩
  | «open» filename =>
      have used := ok.useFileDescriptors (fun fds ret fds' dispatchable opened => by
        cases opened
        exact dispatchable.open rfl) done
      exact ⟨stack, used.1, .stay, used.2⟩
  | close fd =>
      have used := ok.useFileDescriptors
        (fun fds ret fds' dispatchable closed => dispatchable.close closed) done
      exact ⟨stack, used.1, .stay, used.2⟩
  | read fd buf nbytes line =>
      rcases useFileDescriptors_of_read done with ⟨read, frames, readEq, rfl⟩
      have used := ok.useFileDescriptors (fun fds ret fds' dispatchable read => by
        rcases Option.map_eq_some_iff.mp read with ⟨result, readEq, same⟩
        cases same
        exact dispatchable.read readEq) readEq
      exact ⟨stack, used.1.setFrames frames, .stay, used.2⟩
  | write fd buf nbytes =>
      have used := ok.useFileDescriptors
        (fun fds ret fds' dispatchable written => dispatchable.write written) done
      exact ⟨stack, used.1, .stay, used.2⟩
  | switchTerminal termId =>
      rcases ok.switchTerminal shell termId with
        ⟨switched, resumption', switchEq, keeps, same | ⟨empty, fresh, started⟩⟩
      · cases switchEq.symm.trans done
        exact ⟨stack, same, .stay, keeps⟩
      · cases switchEq.symm.trans done
        exact ⟨_, started, .start empty, keeps⟩
  | tick =>
      have same : (rtcHandler kernel).1 = next := congrArg Prod.fst (Option.some.inj done)
      have ticked := ok.tick
      rw [same] at ticked
      exact ⟨stack, ticked.1, .stay, ticked.2⟩

/-- The tables are in order along every run, and no stack is ever emptied. -/
theorem TableOk.run (shell : StartableShell image) {calls : List Call} (ok : TableOk kernel stack)
    (ran : Step.run (Kernel.step image) kernel calls = some kernel') :
    ∃ stack', TableOk kernel' stack' ∧ ∀ terminal, stack terminal ≠ [] → stack' terminal ≠ [] := by
  have preserved : ∀ state call next,
      (∃ stack', TableOk state stack' ∧
        ∀ terminal, stack terminal ≠ [] → stack' terminal ≠ []) →
      state.step image call = some next →
      ∃ stack', TableOk next stack' ∧
        ∀ terminal, stack terminal ≠ [] → stack' terminal ≠ [] := by
    rintro state call next ⟨stack', stateOk, kept⟩ taken
    rcases stateOk.current with ⟨terminal, top, rest, -, isTop⟩
    rcases stateOk.step shell isTop taken with ⟨stack'', nextOk, move, -⟩
    exact ⟨stack'', nextOk, fun other nonempty => move.nonempty (kept other nonempty)⟩
  exact Step.invariant_of_any_run preserved ⟨stack, ok, fun _ nonempty => nonempty⟩ ran

end Steps

/-! ### Boot -/

theorem exists_boot {image : Image} (shell : StartableShell image) (pcb : Pid → Pcb)
    (frames : Pid → Frame) :
    ∃ booted stack, boot image pcb frames = some booted ∧ TableOk booted stack := by
  have empty : Stacked pcb (fun _ => .unused) fun _ => [] := by
    constructor
    · exact fun _ => trivial
    · exact fun _ _ inStack => absurd inStack List.not_mem_nil
    · exact fun _ _ inStack => absurd inStack List.not_mem_nil
    · exact fun _ _ inStack => absurd inStack List.not_mem_nil
    · exact fun _ _ => by decide
  have unusedAtBoot : (bootKernel pcb frames).activePids 0 = .unused := rfl
  rcases exists_startShell shell .inBoot 0 (bootKernel pcb frames) unusedAtBoot
    (fun current impossible => by cases impossible) with
    ⟨booted, pid, entryPoint, started, unused, launched⟩
  have pushed := tableOk_of_launched (bootKernel pcb frames) empty
    (fun _ created => by cases created) (fun _ _ => rfl)
    (fun current impossible => by cases impossible) ?_ unused launched rfl (by simp)
  · refine ⟨booted, _, ?_, pushed.1⟩
    rw [boot, started]
    rfl
  · intro other
    simp [bootKernel, Kernel.processesInit]

/-- Where boot has started a shell, the tables are in order. -/
theorem tableOk_of_started {image : Image} {pcb : Pid → Pcb} {frames : Pid → Frame}
    {booted : Kernel} {first : Pid} {entryPoint : Nat}
    (started : startShell image .inBoot 0 (bootKernel pcb frames) =
      some (booted, .started first entryPoint)) :
    StartableShell image ∧ ∃ stack, TableOk booted stack := by
  have shell := startableShell_of_startShell started
  rcases exists_boot shell pcb frames with ⟨booted', stack, bootEq, ok⟩
  rw [boot, started] at bootEq
  cases bootEq
  exact ⟨shell, stack, ok⟩

/-! ### The tables, read through the pointers -/

/-- The processes visited from `terminal_pids[terminal]` along `parent_pcb`. -/
def Kernel.ChainOf (kernel : Kernel) (terminal : Terminal) (chain : List Pid) : Prop :=
  chain.head? = kernel.terminalPids terminal ∧
    Linked (fun pid => (kernel.pcb pid).parentPcb) chain

structure ProcessTableOk (kernel : Kernel) : Prop where
  foreground : ∀ terminal pid, kernel.terminalPids terminal = some pid →
    kernel.activePids pid = .active ∧ (kernel.pcb pid).terminalId = terminal
  distinct : ∀ terminal other pid, kernel.terminalPids terminal = some pid →
    kernel.terminalPids other = some pid → terminal = other
  current : ∃ terminal pid, kernel.terminalPids terminal = some pid ∧ kernel.currentPid = some pid
  chain : ∀ terminal pid, kernel.terminalPids terminal = some pid →
    ∃ chain, kernel.ChainOf terminal chain ∧ chain.Nodup ∧
      ∀ member ∈ chain, kernel.activePids member = .active ∧
        (kernel.pcb member).terminalId = terminal
  covered : ∀ pid, kernel.activePids pid = .active →
    ∃! terminal, ∃ chain, kernel.ChainOf terminal chain ∧ pid ∈ chain
  started : ∀ terminal, kernel.terminalActive terminal = true ↔
    ∃ pid, kernel.terminalPids terminal = some pid

theorem TableOk.chainOf {kernel : Kernel} {stack : Stacks} (ok : TableOk kernel stack)
    (terminal : Terminal) : kernel.ChainOf terminal (stack terminal) :=
  ⟨(ok.top terminal).symm, ok.stacked.linked terminal⟩

/-- The only chain of a terminal is its stack. -/
theorem TableOk.chainOf_unique {kernel : Kernel} {stack : Stacks} {terminal : Terminal}
    {chain : List Pid} (ok : TableOk kernel stack) (chainOf : kernel.ChainOf terminal chain) :
    chain = stack terminal :=
  chainOf.2.unique (ok.stacked.linked terminal) (chainOf.1.trans (ok.top terminal))

theorem TableOk.processTableOk {kernel : Kernel} {stack : Stacks} (ok : TableOk kernel stack) :
    ProcessTableOk kernel := by
  have topMember : ∀ terminal pid, kernel.terminalPids terminal = some pid →
      pid ∈ stack terminal := by
    intro terminal pid isTop
    rw [ok.top] at isTop
    exact List.mem_of_mem_head? isTop
  constructor
  · intro terminal pid isTop
    have inStack := topMember terminal pid isTop
    exact ⟨ok.stacked.active terminal pid inStack,
      (ok.stacked.member terminal pid inStack).terminalId⟩
  · intro terminal other pid isTop isOther
    exact ok.stacked.terminal_unique (topMember terminal pid isTop) (topMember other pid isOther)
  · rcases ok.current with ⟨terminal, pid, rest, shape, isCurrent⟩
    refine ⟨terminal, pid, ?_, isCurrent⟩
    rw [ok.top, shape, List.head?_cons]
  · intro terminal pid isTop
    refine ⟨stack terminal, ok.chainOf terminal, (ok.stacked.linked terminal).nodup, ?_⟩
    intro member inStack
    exact ⟨ok.stacked.active terminal member inStack,
      (ok.stacked.member terminal member inStack).terminalId⟩
  · intro pid active
    rcases ok.stacked.active_iff.mp active with ⟨terminal, inStack⟩
    refine ⟨terminal, ⟨stack terminal, ok.chainOf terminal, inStack⟩, ?_⟩
    rintro other ⟨chain, chainOf, inChain⟩
    rw [ok.chainOf_unique chainOf] at inChain
    exact ok.stacked.terminal_unique inChain inStack
  · intro terminal
    rw [ok.started, ok.top]
    cases stack terminal with
    | nil => simp
    | cons pid rest => simp

/-- **The process tables.** With a loadable shell the kernel boots, and in every
state of every run the tables are in order; a terminal that has a process keeps
one for the rest of the run; and a root that halts is replaced, on its terminal,
by an active process without a parent. -/
theorem processTableOk_of_run {image : Image} (shell : LoadableShell image) (pcb : Pid → Pcb)
    (frames : Pid → Frame) :
    ∃ booted, boot image pcb frames = some booted ∧
      ∀ calls kernel, Step.run (Kernel.step image) booted calls = some kernel →
        ProcessTableOk kernel ∧
        (∀ later final terminal, Step.run (Kernel.step image) kernel later = some final →
          kernel.terminalPids terminal ≠ none → final.terminalPids terminal ≠ none) ∧
        ∀ pid status, kernel.currentPid = some pid → (kernel.pcb pid).parentPcb = none →
          ∃ next fresh entryPoint,
            kernel.call image (.halt status) = some (next, .started fresh entryPoint) ∧
            next.terminalPids (kernel.pcb pid).terminalId = some fresh ∧
            next.activePids fresh = .active ∧ (next.pcb fresh).parentPcb = none ∧
            (next.pcb fresh).terminalId = (kernel.pcb pid).terminalId := by
  rcases exists_boot shell.startable pcb frames with ⟨booted, stack₀, bootEq, bootOk⟩
  refine ⟨booted, bootEq, fun calls kernel ran => ?_⟩
  rcases bootOk.run shell.startable ran with ⟨stack, ok, -⟩
  refine ⟨ok.processTableOk, ?_, ?_⟩
  · intro later final terminal ranLater hasProcess
    rcases ok.run shell.startable ranLater with ⟨stack', finalOk, kept⟩
    rw [ok.top, ne_eq, List.head?_eq_none_iff] at hasProcess
    rw [finalOk.top, ne_eq, List.head?_eq_none_iff]
    exact kept terminal hasProcess
  · intro pid status isCurrent isRoot
    rcases ok.current with ⟨terminal, top, rest, shape, isTop⟩
    cases isTop.symm.trans isCurrent
    have linked := ok.stacked.linked terminal
    rw [shape] at linked
    have alone : rest = [] := List.head?_eq_none_iff.mp (linked.1.symm.trans isRoot)
    rw [alone] at shape
    rcases ok.halt_root shell.startable shape isCurrent status with
      ⟨next, fresh, entryPoint, haltEq, nextOk, -⟩
    have inStack : pid ∈ stack terminal := by
      rw [shape]
      exact List.mem_cons_self
    have freshOn : fresh ∈ Function.update stack terminal [fresh] terminal := by
      rw [Function.update_self]
      exact List.mem_cons_self
    have freshLinked := nextOk.stacked.linked terminal
    rw [Function.update_self] at freshLinked
    refine ⟨next, fresh, entryPoint, haltEq, ?_, nextOk.stacked.active _ _ freshOn,
      freshLinked.1, ?_⟩
    · rw [(ok.stacked.member terminal pid inStack).terminalId, nextOk.top, Function.update_self,
        List.head?_cons]
    · rw [(ok.stacked.member terminal pid inStack).terminalId]
      exact (nextOk.stacked.member terminal fresh freshOn).terminalId

theorem processTableOk_shellImage :
    ∃ booted, boot shellImage (fun _ => zeroPcb) (fun _ _ => 0) = some booted ∧
      ∀ calls kernel, Step.run (Kernel.step shellImage) booted calls = some kernel →
        ProcessTableOk kernel := by
  rcases processTableOk_of_run shellImage_loadable (fun _ => zeroPcb) (fun _ _ => 0) with
    ⟨booted, bootEq, ok⟩
  exact ⟨booted, bootEq, fun calls kernel ran => (ok calls kernel ran).1⟩

end MonolithicKernel.Process
