import MonolithicKernel.Interrupts.SystemCalls

/-!
Owns the linked kernel as interrupts find it: through the tables of `entry` to a wrapper,
and back to the instruction behind. A system call is a function of the caller's registers.

The wrappers save neither ES, FS nor GS. Compiled code leaves FS and GS alone, but string
instructions of the handlers load ES, and the return to a user program clears it then.

Does not own the C handlers.
-/

namespace MonolithicKernel.Interrupts

open MonolithicKernel.Foundation
open ByteStack Descriptors StackMachine WordRanges X86

/-- The linked kernel: its tables, the code at each address, and the C handlers. The
wrappers are where the gates lead. -/
structure KernelText where
  placement : Placement
  ldtStack : BitVec 64
  tssStack : BitVec 64
  esp0 : Word
  code : Word → Cpu → Option Cpu
  calls : SystemCalls
  rtcHandler : Cpu → Option Cpu
  keyboardHandler : Cpu → Option Cpu
  afterRtc : Word
  afterKeyboard : Word
  syscallWrapper_placed : code (placement.handler .syscallWrapper) =
    calls.syscallWrapper (Interrupts.tables placement ldtStack tssStack esp0)
  rtcWrapper_placed : code (placement.handler .rtcWrapper) =
    rtcWrapper (Interrupts.tables placement ldtStack tssStack esp0) afterRtc rtcHandler
  keyboardWrapper_placed : code (placement.handler .keyboardWrapper) =
    keyboardWrapper (Interrupts.tables placement ldtStack tssStack esp0) afterKeyboard
      keyboardHandler

/-- A device: its C handler, where the call of it returns to, and how interrupts get
there. -/
structure Device where
  handler : Cpu → Option Cpu
  after : Word
  wrapper : Handler
  kind : GateKind

namespace KernelText

variable (kernel : KernelText)

def tables : Tables :=
  Interrupts.tables kernel.placement kernel.ldtStack kernel.tssStack kernel.esp0

/-- An interrupt, up to the `iret` that ends it. -/
def interrupt (cause : Cause) (vector : BitVec 8) (cpu : Cpu) : Option Cpu :=
  (kernel.tables.enter cause cpu.cpl vector).bind fun entry => kernel.code entry.eip (cpu.enter entry)

/-- The devices that `initialize_idt` registers. -/
def device (vector : BitVec 8) : Option Device :=
  if vector = 0x21 then
    some ⟨kernel.keyboardHandler, kernel.afterKeyboard, .keyboardWrapper, .interrupt⟩
  else if vector = 0x28 then some ⟨kernel.rtcHandler, kernel.afterRtc, .rtcWrapper, .trap⟩
  else none

/-- The top of the stack that an interrupt starts on. -/
def stackTop (cpu : Cpu) : Word := if cpu.cpl = 0 then cpu.esp else kernel.esp0

/-- What is left in a register of a data segment behind an interrupt. -/
def left (cpu : Cpu) (selector : BitVec 16) : BitVec 16 :=
  if cpu.cpl = 0 then selector else kernel.tables.lowered cpu.cpl selector

end KernelText

/-- The bytes that the processor pushes. -/
def frameSize (cpu : Cpu) : Nat := if cpu.cpl = 0 then 12 else 20

/-- What the tables say of the entry of an interrupt. -/
def kernelEntry (kernel : KernelText) (handler : Handler) (kind : GateKind) (cpu : Cpu) : Entry where
  cs := kernelCs
  eip := kernel.placement.handler handler
  cpl := 0
  stack := if cpu.cpl = 0 then none else some (kernelDs, kernel.esp0)
  disables := kind = .interrupt

section

variable {kernel : KernelText} {cpu : Cpu}

theorem newStack_kernelEntry (kernel : KernelText) (cpu : Cpu) (handler : Handler)
    (kind : GateKind) :
    (cpu.newStack (kernelEntry kernel handler kind cpu)).2 = kernel.stackTop cpu := by
  rw [Cpu.newStack, kernelEntry, KernelText.stackTop]
  split <;> rfl

theorem size_interruptFrame (kernel : KernelText) (cpu : Cpu) (handler : Handler)
    (kind : GateKind) :
    size (cpu.interruptFrame (kernelEntry kernel handler kind cpu)) = frameSize cpu := by
  rw [Cpu.interruptFrame, kernelEntry, frameSize, size_append]
  by_cases user : cpu.cpl = 0
  · rw [if_pos user, if_pos user, if_pos rfl]
    rfl
  · rw [if_neg user, if_neg user, if_neg (Option.some_ne_none _)]
    rfl

/-- An interrupt that a gate lets through runs the code at the gate's handler. -/
theorem interrupt_eq (kernel : KernelText) {cause : Cause} {vector : BitVec 8} {handler : Handler}
    {kind : GateKind} {dpl : BitVec 2} (gate : registered vector = some (handler, kind, dpl))
    (allowed : ¬ (cause = .software ∧ dpl < cpu.cpl)) :
    kernel.interrupt cause vector cpu =
        kernel.code (kernel.placement.handler handler)
          (cpu.enter (kernelEntry kernel handler kind cpu)) ∧
      Cpu.ChangesStack (kernelEntry kernel handler kind cpu) cpu.cpl := by
  have entered : kernel.tables.enter cause cpu.cpl vector =
      some (kernelEntry kernel handler kind cpu) := by
    rw [KernelText.tables, enter_tables, gate, Option.bind_some]
    exact if_neg allowed
  refine ⟨?_, Cpu.changesStack_of_enter entered⟩
  rw [KernelText.interrupt, entered, Option.bind_some]
  rfl

theorem left_kernelEntry (kernel : KernelText) (cpu : Cpu) (handler : Handler) (kind : GateKind) :
    Cpu.left kernel.tables (kernelEntry kernel handler kind cpu) cpu = kernel.left cpu := by
  funext selector
  rw [Cpu.left, kernelEntry, KernelText.left]
  by_cases user : cpu.cpl = 0
  · rw [if_pos user, if_pos user, if_pos rfl]
  · rw [if_neg user, if_neg user, if_neg (Option.some_ne_none _)]

theorem not_three_lt (level : BitVec 2) : ¬ 3 < level :=
  BitVec.not_lt.mpr (BitVec.le_def.mpr (Nat.le_of_lt_succ level.isLt))

/-! ### System calls -/

namespace KernelText

/-- The processor at the start of the handler of a system call. -/
def calledBy (kernel : KernelText) (syscall : SystemCall) (cpu : Cpu) : Cpu :=
  kernel.calls.calledBy syscall (kernelEntry kernel .syscallWrapper .trap cpu) cpu

/-- The handler is on the kernel's stack, below what the wrappers have saved. -/
theorem esp_calledBy (kernel : KernelText) (syscall : SystemCall) (cpu : Cpu) :
    (kernel.calledBy syscall cpu).esp =
      kernel.stackTop cpu - BitVec.ofNat 32 (54 + frameSize cpu) := by
  have stacked := SystemCalls.onStack_calledBy kernel.calls syscall
    (kernelEntry kernel .syscallWrapper .trap cpu) cpu
  have below := stacked.esp_eq
  rw [size_cons, size_append, size_cons, size_savedFrame, size_interruptFrame,
    newStack_kernelEntry] at below
  rw [calledBy, below, show 54 + frameSize cpu = 4 + (12 + (4 + (34 + frameSize cpu))) by omega]
  rfl

end KernelText

/-- **System calls.** An `int $0x80` with the number of a system call runs the handler of
that number on EBX, ECX and EDX. If the handler returns, the caller goes on behind the
`int` with the result in EAX, every other register as it was but ES, and the handler's
memory but for the cell of the kernel's stack that the result went through. -/
theorem interrupt_systemCall {syscall : SystemCall} (named : systemCall cpu.eax = some syscall)
    (conforms : ∀ back, kernel.calls.handler syscall (kernel.calledBy syscall cpu) = some back →
      Cpu.Returns 12 (38 + frameSize cpu) (kernel.calledBy syscall cpu) back) :
    let called := kernel.calledBy syscall cpu
    (called.argument 0 = cpu.ebx ∧ called.argument 1 = cpu.ecx ∧ called.argument 2 = cpu.edx ∧
      called.ds = kernelDs ∧
      called.esp = kernel.stackTop cpu - BitVec.ofNat 32 (54 + frameSize cpu) ∧
      ∀ address, Beyond (kernel.stackTop cpu) 74 address →
        called.memory address = cpu.memory address) ∧
    kernel.interrupt .software 0x80 cpu =
      (kernel.calls.handler syscall called).map fun back =>
        { cpu with
          eax := back.eax
          ds := kernel.left cpu cpu.ds, es := kernel.left cpu back.es
          fs := kernel.left cpu cpu.fs, gs := kernel.left cpu cpu.gs
          memory := storeBytes (kernel.stackTop cpu - BitVec.ofNat 32 (4 + frameSize cpu))
            (Cell.word back.eax).bytes back.memory } := by
  have allowed : ¬ (Cause.software = .software ∧ (3 : BitVec 2) < cpu.cpl) :=
    fun both => not_three_lt cpu.cpl both.2
  have gate : registered 0x80 = some (.syscallWrapper, .trap, 3) := rfl
  obtain ⟨entered, changes⟩ := interrupt_eq kernel gate allowed
  obtain ⟨first, second, third, ds, kept⟩ := SystemCalls.arguments_calledBy kernel.calls syscall
    (kernelEntry kernel .syscallWrapper .trap cpu) cpu
  rw [newStack_kernelEntry] at kept
  refine ⟨⟨first, second, third, ds, kernel.esp_calledBy syscall cpu, kept⟩, ?_⟩
  rw [← size_interruptFrame kernel cpu .syscallWrapper .trap] at conforms
  rw [entered, kernel.syscallWrapper_placed]
  rw [← newStack_kernelEntry kernel cpu .syscallWrapper .trap,
    ← size_interruptFrame kernel cpu .syscallWrapper .trap,
    ← left_kernelEntry kernel cpu .syscallWrapper .trap]
  exact SystemCalls.syscallWrapper_eq kernel.tables changes named conforms

/-- A function that stores a word to a static variable by a string instruction, and returns
it. -/
def storing (static value : Word) (cpu : Cpu) : Option Cpu :=
  some { cpu with
    eax := value, es := kernelDs
    memory := storeBytes static (Cell.word value).bytes cpu.memory }.ret

/-- It keeps to the calling convention when the variable is not on its stack. -/
theorem returns_storing {static value : Word} {arguments saved : Nat} {called back : Cpu}
    (elsewhere : ∀ index < 4 + arguments + saved,
      4 ≤ (called.esp + BitVec.ofNat 32 index - static).toNat)
    (made : storing static value called = some back) :
    Cpu.Returns arguments saved called back := by
  have kept : ∀ index < 4 + arguments + saved,
      storeBytes static (Cell.word value).bytes called.memory (called.esp + BitVec.ofNat 32 index) =
        called.memory (called.esp + BitVec.ofNat 32 index) :=
    fun index inside => storeBytes_of_outside (elsewhere index inside)
  have eip : loadWord (storeBytes static (Cell.word value).bytes called.memory) called.esp =
      loadWord called.memory called.esp := by
    have first : storeBytes static (Cell.word value).bytes called.memory called.esp =
        called.memory called.esp := by
      simpa using kept 0 (by omega)
    unfold loadWord
    rw [first, show (1 : Word) = BitVec.ofNat 32 1 from rfl, kept 1 (by omega),
      show (2 : Word) = BitVec.ofNat 32 2 from rfl, kept 2 (by omega),
      show (3 : Word) = BitVec.ofNat 32 3 from rfl, kept 3 (by omega)]
  cases made
  exact ⟨eip, rfl, rfl, rfl, rfl, rfl, fun index inside => kept _ (by omega)⟩

def samplePlacement : Placement where
  handler
    | .syscallWrapper => 0x401000
    | .rtcWrapper => 0x402000
    | .keyboardWrapper => 0x403000
    | _ => 0x404000
  ldt := 0x410000
  tss := 0x411000

def sampleCalls : SystemCalls := ⟨fun _ => storing 0x420000 5, fun _ => 0x401100, 0x401200⟩

/-- A kernel with one static variable, which every handler stores to. -/
def sampleKernel : KernelText where
  placement := samplePlacement
  ldtStack := 0
  tssStack := 0
  esp0 := 0x7FFFFC
  code address cpu :=
    let tables := Interrupts.tables samplePlacement 0 0 0x7FFFFC
    if address = 0x401000 then sampleCalls.syscallWrapper tables cpu
    else if address = 0x402000 then rtcWrapper tables 0x402100 (storing 0x420000 1) cpu
    else keyboardWrapper tables 0x403100 (storing 0x420000 2) cpu
  calls := sampleCalls
  rtcHandler := storing 0x420000 1
  keyboardHandler := storing 0x420000 2
  afterRtc := 0x402100
  afterKeyboard := 0x403100
  syscallWrapper_placed := rfl
  rtcWrapper_placed := rfl
  keyboardWrapper_placed := rfl

/-- A user program at its entry point, about to ask for system call 3. -/
def sampleProgram : Cpu where
  eax := 3
  ecx := 0x08048100
  edx := 128
  ebx := 0
  esp := 0x083FFFFC
  ebp := 0
  esi := 0
  edi := 0
  eip := 0x08048000
  eflags := 0x202
  cs := userCs
  ds := userDs
  es := 0
  fs := 0
  gs := 0
  ss := userDs
  memory := fun _ => 0

theorem interrupt_read :
    let called := sampleKernel.calledBy .read sampleProgram
    (called.argument 0 = 0 ∧ called.argument 1 = 0x08048100 ∧ called.argument 2 = 128 ∧
      called.ds = kernelDs ∧ called.esp = sampleKernel.stackTop sampleProgram - BitVec.ofNat 32 74 ∧
      ∀ address, Beyond (sampleKernel.stackTop sampleProgram) 74 address →
        called.memory address = sampleProgram.memory address) ∧
    sampleKernel.interrupt .software 0x80 sampleProgram =
      (storing 0x420000 5 called).map fun back =>
        { sampleProgram with
          eax := back.eax
          ds := sampleKernel.left sampleProgram userDs, es := sampleKernel.left sampleProgram back.es
          fs := sampleKernel.left sampleProgram 0, gs := sampleKernel.left sampleProgram 0
          memory := storeBytes (sampleKernel.stackTop sampleProgram - BitVec.ofNat 32 24)
            (Cell.word back.eax).bytes back.memory } := by
  apply interrupt_systemCall (show systemCall sampleProgram.eax = some .read from rfl)
  intro back made
  apply returns_storing _ made
  intro index inside
  rw [sampleKernel.esp_calledBy]
  show 4 ≤ (0x7FFFFC - BitVec.ofNat 32 74 + BitVec.ofNat 32 index - 0x420000).toNat
  have small : index < 74 := inside
  bv_omega

/-- **Other numbers** are answered by -1, and no handler runs. -/
theorem interrupt_of_no_systemCall (unnamed : systemCall cpu.eax = none) :
    ∃ memory : Memory,
      (∀ address, Beyond (kernel.stackTop cpu) 58 address → memory address = cpu.memory address) ∧
      kernel.interrupt .software 0x80 cpu =
        some { cpu with
          eax := -1
          ds := kernel.left cpu cpu.ds, es := kernel.left cpu cpu.es
          fs := kernel.left cpu cpu.fs, gs := kernel.left cpu cpu.gs, memory := memory } := by
  have allowed : ¬ (Cause.software = .software ∧ (3 : BitVec 2) < cpu.cpl) :=
    fun both => not_three_lt cpu.cpl both.2
  have gate : registered 0x80 = some (.syscallWrapper, .trap, 3) := rfl
  obtain ⟨entered, changes⟩ := interrupt_eq kernel gate allowed
  rw [entered, kernel.syscallWrapper_placed]
  rw [← newStack_kernelEntry kernel cpu .syscallWrapper .trap,
    ← left_kernelEntry kernel cpu .syscallWrapper .trap]
  exact SystemCalls.syscallWrapper_eq_of_none kernel.tables changes unnamed

end

end MonolithicKernel.Interrupts
