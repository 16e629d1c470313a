import MonolithicKernel.Interrupts.Wrappers

/-!
Owns `syscall_wrapper` and `syscall.S`: the number in EAX picks a handler from
`mp3_syscall_table`, the handler gets the caller's EBX, ECX and EDX as arguments, and
its result goes into the EAX that the wrapper restores. A number outside the table is
answered by -1.

Does not own what the handlers do.
-/

namespace MonolithicKernel.Interrupts

open MonolithicKernel.Foundation
open ByteStack Descriptors StackMachine WordRanges X86

/-! ### `syscall.S` -/

inductive SystemCall
  | halt | execute | read | write | open | close | getargs | vidmap | setHandler | sigreturn
deriving DecidableEq, Repr

def mp3SyscallTable : List SystemCall :=
  [.halt, .execute, .read, .write, .open, .close, .getargs, .vidmap, .setHandler, .sigreturn]

/-- The C handlers and where their calls return to. -/
structure SystemCalls where
  handler : SystemCall → Cpu → Option Cpu
  after : SystemCall → Word
  /-- Behind the call of `handle_syscall`. -/
  afterDispatch : Word

namespace SystemCalls

variable (calls : SystemCalls)

/-- `SYSCALL_WRAPPER`. -/
def syscallHandlerS (syscall : SystemCall) (cpu : Cpu) : Option Cpu :=
  let cpu := ((cpu.pushl cpu.edx).pushl cpu.ecx).pushl cpu.ebx
  (cpu.call (calls.after syscall) (calls.handler syscall)).map fun cpu => (cpu.release 12).ret

/-- `BAD_SYSCALL`. -/
def badSyscall (cpu : Cpu) : Cpu := { cpu with eax := -1 }.ret

/-- A number outside the table would jump to whatever is behind it. -/
def handleSyscall (cpu : Cpu) : Option Cpu :=
  if cpu.eax < 1 then some (badSyscall cpu)
  else if cpu.eax > 10 then some (badSyscall cpu)
  else
    let cpu := { cpu with eax := cpu.eax - 1 }
    mp3SyscallTable[cpu.eax.toNat]?.bind fun syscall => calls.syscallHandlerS syscall cpu

def syscallWrapper (tables : Tables) (cpu : Cpu) : Option Cpu :=
  ((saveRegisters cpu).call calls.afterDispatch calls.handleSyscall).bind fun cpu =>
    (cpu.popwDs.storeEax 28).popal.iret tables

end SystemCalls

/-! ### Numbers -/

/-- The system call with a number: they are numbered from 1. -/
def systemCall (number : Word) : Option SystemCall := mp3SyscallTable[(number - 1).toNat]?

theorem systemCall_eq_none_iff (number : Word) :
    systemCall number = none ↔ number < 1 ∨ number > 10 := by
  rw [systemCall, List.getElem?_eq_none_iff]
  show 10 ≤ (number - 1).toNat ↔ _
  bv_omega

namespace SystemCalls

variable {calls : SystemCalls}

/-- The checks of the number leave exactly the numbers of system calls. -/
theorem handleSyscall_eq (cpu : Cpu) :
    calls.handleSyscall cpu =
      match systemCall cpu.eax with
      | none => some (badSyscall cpu)
      | some syscall => calls.syscallHandlerS syscall { cpu with eax := cpu.eax - 1 } := by
  cases named : systemCall cpu.eax with
  | none =>
      rw [handleSyscall]
      split_ifs with low high
      · rfl
      · rfl
      · exact absurd ((systemCall_eq_none_iff cpu.eax).mp named) (not_or.mpr ⟨low, high⟩)
  | some syscall =>
      have inTable := mt (systemCall_eq_none_iff cpu.eax).mpr (by rw [named]; exact nofun)
      rw [handleSyscall, if_neg (not_or.mp inTable).1, if_neg (not_or.mp inTable).2]
      exact congrArg (fun found => found.bind fun syscall =>
        calls.syscallHandlerS syscall { cpu with eax := cpu.eax - 1 }) named

end SystemCalls

/-! ### Answers -/

section

variable {top : Word} {room : Nat} {outside : Memory} {cells : List Cell} {cpu saved : Cpu}

/-- The result of a system call takes the place of the saved EAX. -/
theorem onStack_storeEax (small : room < 2 ^ 32)
    (stacked : cpu.OnStack top room outside (saved.registers ++ cells)) :
    (cpu.storeEax 28).OnStack top room outside
      (({ saved with eax := cpu.eax } : Cpu).registers ++ cells) := by
  have opened : cpu.OnStack top room outside
      (saved.registers.take 7 ++ .word saved.eax :: cells) := stacked
  exact opened.poke (.word cpu.eax) small rfl

end

section

variable {entry : Entry} {cpu : Cpu}

/-- Where the wrapper saves EAX. -/
def savedEax (entry : Entry) (cpu : Cpu) : Word :=
  (cpu.newStack entry).2 - BitVec.ofNat 32 (4 + size (cpu.interruptFrame entry))

theorem esp_eq_savedEax {back : Cpu} {room : Nat} {outside : Memory}
    (stacked : back.OnStack (cpu.newStack entry).2 room outside
      ((cpu.enter entry).registers ++ cpu.interruptFrame entry)) :
    back.esp + BitVec.ofNat 32 28 = savedEax entry cpu := by
  have esp := stacked.esp_eq
  have below : size ((cpu.enter entry).registers ++ cpu.interruptFrame entry) =
      28 + (4 + size (cpu.interruptFrame entry)) := by
    rw [size_append, Cpu.size_registers, ← Nat.add_assoc]
  rw [esp, below, savedEax, sub_ofNat_add_ofNat]

/-- The caller behind the `iret`, when the handler has come to `back`. -/
def answered (tables : Tables) (entry : Entry) (cpu back : Cpu) : Cpu :=
  { resumed tables entry cpu back with
    eax := back.eax
    memory := storeBytes (savedEax entry cpu) (Cell.word back.eax).bytes back.memory }

/-- The end of the wrapper hands EAX back, through the stack. -/
theorem iret_answer (tables : Tables) {back : Cpu} {room : Nat} {outside : Memory}
    (small : room < 2 ^ 32) (changes : Cpu.ChangesStack entry cpu.cpl)
    (stacked : back.OnStack (cpu.newStack entry).2 room outside (savedFrame entry cpu))
    (cs : back.cs = entry.cs) (ss : back.ss = (cpu.newStack entry).1)
    (fs : back.fs = cpu.fs) (gs : back.gs = cpu.gs) :
    (back.popwDs.storeEax 28).popal.iret tables = some (answered tables entry cpu back) := by
  have ds := popwDs_eq stacked
  have popped := onStack_popwDs stacked
  have saved : (cpu.enter entry).ds = cpu.ds := by rw [Cpu.enter_eq]
  rw [iret_popal tables changes (onStack_storeEax small popped), Cpu.storeEax,
    esp_eq_savedEax popped, ds, answered, resumed, saved, fs, gs, Cpu.enter_eq]
  · rw [Cpu.storeEax, ds]
    exact cs
  · rw [Cpu.storeEax, ds]
    exact ss

theorem storeBytes_savedEax {back : Cpu} {room : Nat} {outside : Memory} (small : room < 2 ^ 32)
    (stacked : back.OnStack (cpu.newStack entry).2 room outside (savedFrame entry cpu))
    {address : Word} (beyond : Beyond (cpu.newStack entry).2 room address) (value : Word) :
    storeBytes (savedEax entry cpu) (Cell.word value).bytes back.memory address = outside address := by
  have popped := onStack_popwDs stacked
  have fits := popped.fits
  rw [size_append, Cpu.size_registers] at fits
  rw [savedEax, storeBytes_of_beyond small _ _ beyond, stacked.frame address beyond]
  · omega
  · rw [Cell.length_bytes, Cell.size_word]
    exact Nat.le_add_right ..

end

/-! ### Handlers -/

namespace SystemCalls

variable {calls : SystemCalls} {syscall : SystemCall}

/-- The processor at the start of a handler. -/
def called (calls : SystemCalls) (syscall : SystemCall) (cpu : Cpu) : Cpu :=
  (((cpu.pushl cpu.edx).pushl cpu.ecx).pushl cpu.ebx).pushl (calls.after syscall)

section

variable {cpu : Cpu} {top : Word} {room : Nat} {outside : Memory} {cells : List Cell}

theorem called_eq (calls : SystemCalls) (syscall : SystemCall) (cpu : Cpu) :
    calls.called syscall cpu =
      { cpu with
        esp := (calls.called syscall cpu).esp, memory := (calls.called syscall cpu).memory } :=
  Cpu.foldr_push
    [.word (calls.after syscall), .word cpu.ebx, .word cpu.ecx, .word cpu.edx] cpu

theorem onStack_called (calls : SystemCalls) (syscall : SystemCall) (small : room < 2 ^ 32)
    (stacked : cpu.OnStack top room outside cells)
    (fits : 16 + size cells ≤ room) :
    (calls.called syscall cpu).OnStack top room outside
      (.word (calls.after syscall) :: ([cpu.ebx, cpu.ecx, cpu.edx].map Cell.word ++ cells)) :=
  stacked.pushList [.word (calls.after syscall), .word cpu.ebx, .word cpu.ecx, .word cpu.edx] small
    fits

/-- A handler that keeps to its calling convention comes back. -/
theorem syscallHandlerS_eq (small : room < 2 ^ 32) (stacked : cpu.OnStack top room outside cells)
    (fits : 16 + size cells ≤ room)
    (conforms : ∀ back, calls.handler syscall (calls.called syscall cpu) = some back →
      Cpu.Returns 12 (size cells) (calls.called syscall cpu) back) :
    calls.syscallHandlerS syscall cpu =
      (calls.handler syscall (calls.called syscall cpu)).map fun back => (back.release 12).ret := by
  rw [syscallHandlerS, Cpu.call, ← called]
  cases made : calls.handler syscall (calls.called syscall cpu) with
  | none => rfl
  | some back =>
      have returned := (conforms back made).onStack ([cpu.ebx, cpu.ecx, cpu.edx].map Cell.word)
        (onStack_called calls syscall small stacked fits)
      rw [Option.bind_some, if_pos returned.1]

end

variable {entry : Entry} {cpu : Cpu}

/-- The processor at the start of the handler, when the wrapper is entered from `cpu`. -/
def calledBy (calls : SystemCalls) (syscall : SystemCall) (entry : Entry) (cpu : Cpu) : Cpu :=
  calls.called syscall { calledFrom calls.afterDispatch entry cpu with eax := cpu.eax - 1 }

/-- The stack of the handler: its arguments, and what the wrappers have saved. -/
theorem onStack_calledBy (calls : SystemCalls) (syscall : SystemCall) (entry : Entry) (cpu : Cpu) :
    (calls.calledBy syscall entry cpu).OnStack (cpu.newStack entry).2 74 cpu.memory
      (.word (calls.after syscall) :: ([cpu.ebx, cpu.ecx, cpu.edx].map Cell.word ++
        .word calls.afterDispatch :: savedFrame entry cpu)) := by
  have short := size_interruptFrame_le entry cpu
  have dispatched := onStack_call calls.afterDispatch entry cpu (show 74 < 2 ^ 32 by decide)
    (by decide)
  obtain ⟨⟨-, ebx, ecx, edx⟩, -⟩ := registers_at_call calls.afterDispatch entry cpu
  rw [← ebx, ← ecx, ← edx]
  have fits : 16 + size (.word calls.afterDispatch :: savedFrame entry cpu) ≤ 74 := by
    rw [size_cons, size_savedFrame, Cell.size_word]
    omega
  exact onStack_called calls syscall (by decide)
    (show ({ calledFrom calls.afterDispatch entry cpu with eax := cpu.eax - 1 } : Cpu).OnStack
      _ _ _ _ from dispatched) fits

/-- What the handler finds. -/
theorem arguments_calledBy (calls : SystemCalls) (syscall : SystemCall) (entry : Entry) (cpu : Cpu) :
    let called := calls.calledBy syscall entry cpu
    called.argument 0 = cpu.ebx ∧ called.argument 1 = cpu.ecx ∧ called.argument 2 = cpu.edx ∧
      called.ds = kernelDs ∧
      ∀ address, Beyond (cpu.newStack entry).2 74 address →
        called.memory address = cpu.memory address := by
  have stacked := onStack_calledBy calls syscall entry cpu
  obtain ⟨-, ⟨ds, -⟩, -⟩ := registers_at_call calls.afterDispatch entry cpu
  exact ⟨Cpu.argument_eq [] stacked, Cpu.argument_eq [_] stacked, Cpu.argument_eq [_, _] stacked,
    (congrArg Cpu.ds (called_eq calls syscall _)).trans ds, stacked.frame⟩

/-- **System calls.** Where the handler of the call's number returns, the caller goes on
with the result in EAX and every other register as it was but ES, which the wrapper does
not save. -/
theorem syscallWrapper_eq (tables : Tables) (changes : Cpu.ChangesStack entry cpu.cpl)
    (named : systemCall cpu.eax = some syscall)
    (conforms : ∀ back, calls.handler syscall (calls.calledBy syscall entry cpu) = some back →
      Cpu.Returns 12 (38 + size (cpu.interruptFrame entry)) (calls.calledBy syscall entry cpu)
        back) :
    calls.syscallWrapper tables (cpu.enter entry) =
      (calls.handler syscall (calls.calledBy syscall entry cpu)).map
        (answered tables entry cpu) := by
  have small : 74 < 2 ^ 32 := by decide
  have short := size_interruptFrame_le entry cpu
  have dispatched := onStack_call calls.afterDispatch entry cpu small (by decide)
  have called := onStack_calledBy calls syscall entry cpu
  have size_eq : size (.word calls.afterDispatch :: savedFrame entry cpu) =
      38 + size (cpu.interruptFrame entry) := by
    rw [size_cons, size_savedFrame, Cell.size_word, ← Nat.add_assoc]
  rw [← size_eq] at conforms
  obtain ⟨⟨eax, -⟩, ⟨-, -, fs, gs⟩, cs, ss⟩ := registers_at_call calls.afterDispatch entry cpu
  let counted : Cpu := { calledFrom calls.afterDispatch entry cpu with eax := cpu.eax - 1 }
  have stacked : counted.OnStack (cpu.newStack entry).2 74 cpu.memory
    (.word calls.afterDispatch :: savedFrame entry cpu) := dispatched
  have fits : 16 + size (.word calls.afterDispatch :: savedFrame entry cpu) ≤ 74 := by omega
  have registers := called_eq calls syscall counted
  rw [syscallWrapper, Cpu.call, ← calledFrom, handleSyscall_eq, eax, named]
  dsimp only
  have handled : calls.syscallHandlerS syscall counted = _ :=
    syscallHandlerS_eq small stacked fits conforms
  rw [handled, ← calledBy]
  cases made : calls.handler syscall (calls.calledBy syscall entry cpu) with
  | none => rfl
  | some back =>
      have returns := conforms back made
      obtain ⟨-, behind⟩ := returns.onStack ([cpu.ebx, cpu.ecx, cpu.edx].map Cell.word) called
      have eip : (back.release 12).ret.eip = calls.afterDispatch := behind.loadWord_top
      have frame : (back.release 12).ret.OnStack (cpu.newStack entry).2 74 back.memory
        (savedFrame entry cpu) := behind.tail
      have cs' : back.cs = entry.cs := returns.cs.trans ((congrArg Cpu.cs registers).trans cs)
      have ss' : back.ss = _ := returns.ss.trans ((congrArg Cpu.ss registers).trans ss)
      have fs' : back.fs = cpu.fs := returns.fs.trans ((congrArg Cpu.fs registers).trans fs)
      have gs' : back.gs = cpu.gs := returns.gs.trans ((congrArg Cpu.gs registers).trans gs)
      rw [Option.map_some, Option.map_some, Option.bind_some, if_pos eip, Option.bind_some,
        iret_answer tables small changes frame cs' ss' fs' gs']
      rfl

/-- **Other numbers** are answered by -1. -/
theorem syscallWrapper_eq_of_none (tables : Tables) (changes : Cpu.ChangesStack entry cpu.cpl)
    (unnamed : systemCall cpu.eax = none) :
    ∃ memory : Memory,
      (∀ address, Beyond (cpu.newStack entry).2 58 address → memory address = cpu.memory address) ∧
      calls.syscallWrapper tables (cpu.enter entry) =
        some { resumed tables entry cpu cpu with eax := -1, memory := memory } := by
  have small : 58 < 2 ^ 32 := by decide
  have dispatched := onStack_call calls.afterDispatch entry cpu small le_rfl
  obtain ⟨⟨eax, -⟩, ⟨-, es, fs, gs⟩, cs, ss⟩ := registers_at_call calls.afterDispatch entry cpu
  rw [syscallWrapper, Cpu.call, ← calledFrom]
  generalize calledFrom calls.afterDispatch entry cpu = caller at *
  have eip : (badSyscall caller).eip = calls.afterDispatch := dispatched.loadWord_top
  have frame : (badSyscall caller).OnStack (cpu.newStack entry).2 58 cpu.memory
    (savedFrame entry cpu) := dispatched.tail
  refine ⟨_, fun address beyond => storeBytes_savedEax small frame beyond (-1), ?_⟩
  rw [handleSyscall_eq, eax, unnamed, Option.bind_some, if_pos eip, Option.bind_some,
    iret_answer tables small changes frame cs ss fs gs, answered, resumed, resumed,
    show (badSyscall caller).es = cpu.es from es]
  rfl

end SystemCalls

end MonolithicKernel.Interrupts
