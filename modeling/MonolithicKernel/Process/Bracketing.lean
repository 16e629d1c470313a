import MonolithicKernel.Process.TableRuns

/-!
Owns the bracket between a successful `execute` and the `halt` of the child it
created. As long as the child does not halt, it stays on its terminal's stack
right above its caller, whatever is pushed and popped above it and on the other
terminals; and a process that is not on top keeps its PCB. So the halt of the
child pops back to the caller exactly as the caller was.

Does not own the user memory of the caller.
-/

namespace MonolithicKernel.Process

open MonolithicKernel.FileSystem
open MonolithicKernel.Foundation

/-- `child` is on the terminal's stack right above `caller`, below which lies
`rest`, and the caller's PCB is `saved`. -/
def InBracket (terminal : Terminal) (child caller : Pid) (rest : List Pid) (saved : Pcb)
    (kernel : Kernel) : Prop :=
  ∃ stack above, TableOk kernel stack ∧ stack terminal = above ++ child :: caller :: rest ∧
    kernel.pcb caller = saved

/-- A call of `pid` that is not its halt. -/
def NotHaltOf (pid : Pid) (kernel : Kernel) (call : Call) : Prop :=
  kernel.currentPid = some pid → ∀ status, call ≠ .halt status

instance decidableNotHaltOf (pid : Pid) (kernel : Kernel) (call : Call) :
    Decidable (NotHaltOf pid kernel call) :=
  match call with
  | .halt status =>
      decidable_of_iff (kernel.currentPid ≠ some pid)
        ⟨fun other isPid => absurd isPid other, fun notHalt isPid => notHalt isPid status rfl⟩
  | .execute .. | .open .. | .close .. | .read .. | .write .. | .switchTerminal .. | .tick =>
      .isTrue fun _ _ => nofun

section Bracket

variable {image : Image} {terminal : Terminal} {child caller : Pid} {rest : List Pid} {saved : Pcb}
  {kernel kernel' : Kernel}

/-- What is above the child may move, but nothing below it can. -/
theorem Move.above_child {current : Pid} {call : Call} {stack stack' : Stacks} {above : List Pid}
    (move : Move current call stack stack')
    (shape : stack terminal = above ++ child :: caller :: rest)
    (notHalt : current = child → ∀ status, call ≠ .halt status) :
    ∃ above', stack' terminal = above' ++ child :: caller :: rest := by
  cases move with
  | stay => exact ⟨above, shape⟩
  | @push _ _ _ moved older pid top =>
      by_cases here : terminal = moved
      · subst here
        refine ⟨pid :: above, ?_⟩
        rw [Function.update_self, ← top, shape]
        rfl
      · rw [Function.update_of_ne here]
        exact ⟨above, shape⟩
  | @pop status _ moved parent older top =>
      by_cases here : terminal = moved
      · subst here
        cases above with
        | nil =>
            -- The child itself would be on top.
            rw [top] at shape
            cases shape
            exact absurd rfl (notHalt rfl status)
        | cons highest above =>
            rw [top] at shape
            refine ⟨above, ?_⟩
            rw [Function.update_self]
            exact (List.cons.inj shape).2
      · rw [Function.update_of_ne here]
        exact ⟨above, shape⟩
  | @restart _ _ moved _ top =>
      have elsewhere : terminal ≠ moved := by
        rintro rfl
        have count := congrArg List.length (top.symm.trans shape)
        simp at count
        omega
      rw [Function.update_of_ne elsewhere]
      exact ⟨above, shape⟩
  | @start _ moved _ top =>
      have elsewhere : terminal ≠ moved := by
        rintro rfl
        have count := congrArg List.length (top.symm.trans shape)
        simp at count
      rw [Function.update_of_ne elsewhere]
      exact ⟨above, shape⟩

theorem InBracket.step (shell : StartableShell image) {call : Call}
    (bracket : InBracket terminal child caller rest saved kernel)
    (notHalt : NotHaltOf child kernel call) (taken : kernel.step image call = some kernel') :
    InBracket terminal child caller rest saved kernel' := by
  rcases bracket with ⟨stack, above, ok, shape, same⟩
  rcases ok.current with ⟨moving, current, below, -, isCurrent⟩
  rcases ok.step shell isCurrent taken with ⟨stack', ok', move, keeps⟩
  rcases move.above_child shape (fun isChild => notHalt (isChild ▸ isCurrent)) with
    ⟨above', shape'⟩
  have callerBelow : caller ∈ (stack terminal).tail := by
    rw [shape]
    cases above <;> simp
  exact ⟨stack', above', ok', shape', (keeps terminal caller callerBelow).trans same⟩

/-- The bracket holds until the child halts. -/
theorem InBracket.run (shell : StartableShell image) {calls : List Call}
    (bracket : InBracket terminal child caller rest saved kernel)
    (notHalt : Step.AllSteps (Kernel.step image) (NotHaltOf child) kernel calls)
    (ran : Step.run (Kernel.step image) kernel calls = some kernel') :
    InBracket terminal child caller rest saved kernel' :=
  Step.invariant_of_run (fun _ _ _ inside notHalt taken => inside.step shell notHalt taken) bracket
    notHalt ran

/-- A successful `execute` opens the bracket of its child. -/
theorem TableOk.bracket_of_execute {stack : Stacks} {executed : Kernel} {command staleArgs : Lib.Bytes}
    {entryPoint : Nat} (ok : TableOk kernel stack) (isCaller : kernel.currentPid = some caller)
    (success : kernel.call image (.execute command staleArgs) =
      some (executed, .started child entryPoint)) :
    ∃ rest, stack (kernel.pcb caller).terminalId = caller :: rest ∧
      InBracket (kernel.pcb caller).terminalId child caller rest (executed.pcb caller) executed ∧
      executed.pcb caller = { kernel.pcb caller with kernelContext := .inExecute } := by
  rcases ok.execute success with ⟨-, failed⟩ |
    ⟨terminal, top, rest, pid, entryPoint', shape, isTop, started, executedOk, -, callerPcb⟩
  · cases failed
  cases isTop.symm.trans isCaller
  cases started
  have onTerminal : (kernel.pcb caller).terminalId = terminal := by
    apply (ok.stacked.member terminal caller ?_).terminalId
    rw [shape]
    exact List.mem_cons_self
  rw [onTerminal]
  exact ⟨rest, shape, ⟨_, [], executedOk, by rw [Function.update_self, shape]; rfl, rfl⟩,
    callerPcb⟩

/-- The halt of the child closes the bracket, on whatever stacks it runs. -/
theorem InBracket.halt (bracket : InBracket terminal child caller rest saved kernel)
    (isChild : kernel.currentPid = some child) (image : Image) (status : UInt32) :
    ∃ stack final, stack terminal = child :: caller :: rest ∧ TableOk kernel stack ∧
      kernel.call image (.halt status) = some (final, .returned caller .inExecute status) ∧
      TableOk final (Function.update stack terminal (caller :: rest)) ∧
      final.currentPid = some caller ∧
      (final.pcb caller).fileDescriptors = saved.fileDescriptors := by
  rcases bracket with ⟨stack, above, ok, shape, callerSame⟩
  -- The child runs, so nothing is above it.
  have nothingAbove : above = [] := by
    rcases ok.current with ⟨other, top, below, otherShape, isTop⟩
    cases isTop.symm.trans isChild
    cases above with
    | nil => rfl
    | cons highest above =>
        refine absurd ?_ (ok.stacked.head_not_mem_tail otherShape terminal)
        rw [shape]
        simp
  rw [nothingAbove, List.nil_append] at shape
  rcases ok.halt_child shape isChild image status with ⟨final, haltEq, finalOk, keeps, isCurrent⟩
  have callerBelow : caller ∈ (stack terminal).tail := by
    rw [shape]
    exact List.mem_cons_self
  exact ⟨stack, final, shape, ok, haltEq, finalOk, isCurrent, by
    rw [keeps terminal caller callerBelow, callerSame]⟩

end Bracket

/-- A shell executes another one, the user turns to terminal 1, whose shell opens the RTC,
a tick goes back, and the nested shell halts. -/
def nestedCalls : List Call :=
  [.execute shellName [], .switchTerminal 1, .open rtcName, .tick, .halt 3]

end MonolithicKernel.Process
