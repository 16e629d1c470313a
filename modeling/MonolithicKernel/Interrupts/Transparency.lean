import MonolithicKernel.Foundation.Simulation
import MonolithicKernel.Interrupts.KernelText

/-!
Owns device interrupts and runs of user programs that they come into: a program runs with
them as it runs alone, as far as its registers and its own memory go, unless it uses ES.
What the C handlers rely on is the order of the kernel's memory, and what they guarantee
is the calling convention, that order and the program's memory.

Does not own what the program is.
-/

namespace MonolithicKernel.Interrupts

open MonolithicKernel.Foundation
open ByteStack Descriptors StackMachine WordRanges X86

section

variable {kernel : KernelText} {cpu : Cpu}

/-! ### Devices -/

namespace KernelText

/-- The processor at the start of the handler of a device. -/
def calledFor (kernel : KernelText) (device : Device) (cpu : Cpu) : Cpu :=
  calledFrom device.after (kernelEntry kernel device.wrapper device.kind cpu) cpu

/-- The handler is on the kernel's stack, below what the wrapper has saved. -/
theorem esp_calledFor (kernel : KernelText) (device : Device) (cpu : Cpu) :
    (kernel.calledFor device cpu).esp =
      kernel.stackTop cpu - BitVec.ofNat 32 (38 + frameSize cpu) := by
  have stacked := onStack_call device.after (kernelEntry kernel device.wrapper device.kind cpu) cpu
    (show 58 < 2 ^ 32 by decide) le_rfl
  have below := stacked.esp_eq
  rw [size_cons, size_savedFrame, size_interruptFrame, newStack_kernelEntry] at below
  rw [calledFor, below, show 38 + frameSize cpu = 4 + (34 + frameSize cpu) by omega]
  rfl

/-- What that handler finds in memory. -/
theorem memory_calledFor (kernel : KernelText) (device : Device) (cpu : Cpu) {address : Word}
    (beyond : Beyond (kernel.stackTop cpu) 58 address) :
    (kernel.calledFor device cpu).memory address = cpu.memory address := by
  have stacked := onStack_call device.after (kernelEntry kernel device.wrapper device.kind cpu) cpu
    (show 58 < 2 ^ 32 by decide) le_rfl
  rw [newStack_kernelEntry] at stacked
  exact stacked.frame address beyond

end KernelText

theorem device_placed {vector : BitVec 8} {device : Device}
    (isDevice : kernel.device vector = some device) :
    registered vector = some (device.wrapper, device.kind, 0) ∧
      kernel.code (kernel.placement.handler device.wrapper) =
        deviceWrapper kernel.tables device.after device.handler := by
  unfold KernelText.device at isDevice
  split_ifs at isDevice with key tick
  · cases isDevice
    subst vector
    exact ⟨rfl, kernel.keyboardWrapper_placed⟩
  · cases isDevice
    subst vector
    exact ⟨rfl, kernel.rtcWrapper_placed⟩

/-- **Device interrupts.** Where the device's handler returns, the interrupted program goes
on with every register as it was but ES, and the handler's memory. -/
theorem interrupt_device {vector : BitVec 8} {device : Device}
    (isDevice : kernel.device vector = some device)
    (conforms : ∀ back, device.handler (kernel.calledFor device cpu) = some back →
      Cpu.Returns 0 (34 + frameSize cpu) (kernel.calledFor device cpu) back) :
    kernel.interrupt .hardware vector cpu =
      (device.handler (kernel.calledFor device cpu)).map fun back =>
        { cpu with
          ds := kernel.left cpu cpu.ds, es := kernel.left cpu back.es
          fs := kernel.left cpu cpu.fs, gs := kernel.left cpu cpu.gs, memory := back.memory } := by
  obtain ⟨gate, placed⟩ := device_placed isDevice
  have allowed : ¬ (Cause.hardware = .software ∧ (0 : BitVec 2) < cpu.cpl) :=
    fun both => nomatch both.1
  obtain ⟨entered, changes⟩ := interrupt_eq kernel gate allowed
  rw [← size_interruptFrame kernel cpu device.wrapper device.kind] at conforms
  rw [entered, placed, ← left_kernelEntry kernel cpu device.wrapper device.kind]
  exact deviceWrapper_eq kernel.tables changes conforms

end

/-! ### Runs -/

inductive Event
  | instruction
  | interrupt (vector : BitVec 8)
deriving DecidableEq, Repr

/-- A program that devices interrupt. -/
def KernelText.disturbed (kernel : KernelText) (program : Cpu → Option Cpu) : Step Cpu Event
  | cpu, .instruction => program cpu
  | cpu, .interrupt vector =>
      (kernel.device vector).bind fun _ => kernel.interrupt .hardware vector cpu

/-- The program runs alone. -/
def undisturbed (program : Cpu → Option Cpu) : Step Cpu Unit := fun cpu _ => program cpu

/-- What an event is to the program. -/
def Event.instructions : Event → List Unit
  | .instruction => [()]
  | .interrupt _ => []

/-- Two processors that a program with its memory `inside` cannot tell apart unless it
uses ES. -/
structure Alike (inside : Word → Prop) (cpu other : Cpu) : Prop where
  registers : other = { cpu with es := other.es, memory := other.memory }
  memory : ∀ address, inside address → other.memory address = cpu.memory address

theorem Alike.refl (inside : Word → Prop) (cpu : Cpu) : Alike inside cpu cpu := ⟨rfl, fun _ _ => rfl⟩

/-- User mode: the processor leaves a program no data segment with more privilege. -/
structure UserMode (tables : Tables) (cpu : Cpu) : Prop where
  level : cpu.cpl = 3
  ds : tables.lowered 3 cpu.ds = cpu.ds
  fs : tables.lowered 3 cpu.fs = cpu.fs
  gs : tables.lowered 3 cpu.gs = cpu.gs

/-- A user program that reaches its own memory only and does not use ES. -/
structure UserProgram (tables : Tables) (inside : Word → Prop) (program : Cpu → Option Cpu) :
    Prop where
  userMode : ∀ cpu next, UserMode tables cpu → program cpu = some next → UserMode tables next
  respects : ∀ cpu other next, Alike inside cpu other → program cpu = some next →
    ∃ next', program other = some next' ∧ Alike inside next next'
  own : ∀ cpu next, program cpu = some next →
    ∀ address, ¬ inside address → next.memory address = cpu.memory address

variable {kernel : KernelText} {inside : Word → Prop} {ordered : Memory → Prop}
  {program : Cpu → Option Cpu}

/-- What the C handlers of devices keep to when they interrupt a program while the kernel's
memory is in order: the calling convention, that order, and the program's memory. -/
structure KernelText.Discreet (kernel : KernelText) (inside : Word → Prop)
    (ordered : Memory → Prop) : Prop where
  conforms : ∀ vector device cpu back, kernel.device vector = some device →
    UserMode kernel.tables cpu → ordered cpu.memory →
    device.handler (kernel.calledFor device cpu) = some back →
      Cpu.Returns 0 54 (kernel.calledFor device cpu) back ∧ ordered back.memory ∧
        ∀ address, inside address →
          back.memory address = (kernel.calledFor device cpu).memory address
  outside : ∀ memory memory' : Memory, ordered memory →
    (∀ address, ¬ inside address → memory' address = memory address) → ordered memory'

/-- The step lemma: an instruction does the same to both sides, and an interrupt nothing
that the program sees. -/
theorem alike_of_event (user : UserProgram kernel.tables inside program)
    (apart : ∀ address, inside address → Beyond kernel.esp0 58 address)
    (discreet : kernel.Discreet inside ordered) (cpu : Cpu) (event : Event) (next other : Cpu)
    (related : UserMode kernel.tables cpu ∧ ordered cpu.memory ∧ Alike inside cpu other)
    (taken : kernel.disturbed program cpu event = some next) :
    ∃ other', Step.run (undisturbed program) other event.instructions = some other' ∧
      UserMode kernel.tables next ∧ ordered next.memory ∧ Alike inside next other' := by
  obtain ⟨mode, inOrder, alike⟩ := related
  cases event with
  | instruction =>
      obtain ⟨next', taken', alike'⟩ := user.respects cpu other next alike taken
      refine ⟨next', ?_, user.userMode cpu next mode taken,
        discreet.outside cpu.memory next.memory inOrder (user.own cpu next taken), alike'⟩
      exact (Step.run_cons_eq_some _).mpr ⟨next', taken', rfl⟩
  | interrupt vector =>
      obtain ⟨device, isDevice, taken⟩ := Option.bind_eq_some_iff.mp taken
      have kernelStack : kernel.stackTop cpu = kernel.esp0 := by
        rw [KernelText.stackTop, mode.level]
        rfl
      have frame : 34 + frameSize cpu = 54 := by
        rw [frameSize, mode.level]
        rfl
      have lowered : ∀ selector, kernel.tables.lowered 3 selector = selector →
          kernel.left cpu selector = selector := by
        intro selector left
        rw [KernelText.left, mode.level]
        exact left
      have conforms := discreet.conforms vector device cpu
      rw [← frame] at conforms
      rw [interrupt_device isDevice fun back made => (conforms back isDevice mode inOrder made).1]
        at taken
      obtain ⟨back, made, rfl⟩ := Option.map_eq_some_iff.mp taken
      obtain ⟨-, stillOrdered, kept⟩ := conforms back isDevice mode inOrder made
      have same : ({ cpu with
          ds := kernel.left cpu cpu.ds, es := kernel.left cpu back.es
          fs := kernel.left cpu cpu.fs, gs := kernel.left cpu cpu.gs
          memory := back.memory } : Cpu) =
            { cpu with es := kernel.left cpu back.es, memory := back.memory } := by
        rw [lowered _ mode.ds, lowered _ mode.fs, lowered _ mode.gs]
      rw [same]
      refine ⟨other, rfl, ⟨mode.level, mode.ds, mode.fs, mode.gs⟩, stillOrdered, alike.registers,
        fun address isInside => ?_⟩
      have untouched := kernel.memory_calledFor device cpu (kernelStack ▸ apart address isInside)
      rw [alike.memory address isInside, kept address isInside, untouched]

/-- **Transparency.** With device interrupts between any of its instructions, a user
program comes to the registers and the memory that it comes to alone. -/
theorem run_of_disturbed (user : UserProgram kernel.tables inside program)
    (apart : ∀ address, inside address → Beyond kernel.esp0 58 address)
    (discreet : kernel.Discreet inside ordered) {cpu final : Cpu} {events : List Event}
    (mode : UserMode kernel.tables cpu) (inOrder : ordered cpu.memory)
    (ran : Step.run (kernel.disturbed program) cpu events = some final) :
    ∃ alone, Step.run (undisturbed program) cpu (events.flatMap Event.instructions) = some alone ∧
      Alike inside final alone := by
  obtain ⟨alone, ranAlone, -, -, alike⟩ :=
    Step.exists_run_of_matched (alike_of_event user apart discreet)
      ⟨mode, inOrder, Alike.refl inside cpu⟩ ran
  rw [Step.traces_eq_flatMap ran] at ranAlone
  exact ⟨alone, ranAlone, alike⟩

/-- The 4 MB of user programs. -/
def userPage (address : Word) : Prop := address.toNat / 2 ^ 22 = 32

/-- A program of `incl %eax` only. -/
def counting (cpu : Cpu) : Option Cpu :=
  if cpu.cpl = 3 then some { cpu with eax := cpu.eax + 1, eip := cpu.eip + 1 } else none

theorem userProgram_counting (tables : Tables) : UserProgram tables userPage counting := by
  constructor
  · intro cpu next mode taken
    unfold counting at taken
    split_ifs at taken with level
    cases taken
    exact ⟨mode.level, mode.ds, mode.fs, mode.gs⟩
  · intro cpu other next alike taken
    unfold counting at taken ⊢
    split_ifs at taken with level
    cases taken
    rw [alike.registers]
    exact ⟨_, if_pos level, rfl, alike.memory⟩
  · intro cpu next taken address outside
    unfold counting at taken
    split_ifs at taken
    cases taken
    rfl

/-- The static variable of `sampleKernel` has one of the values that are stored to it. -/
def sampleOrdered (memory : Memory) : Prop := (memory 0x420000).toNat ≤ 5

theorem discreet_sampleKernel : sampleKernel.Discreet userPage sampleOrdered := by
  constructor
  · intro vector device cpu back isDevice mode _ made
    have stored : ∃ value : Word, device.handler = storing 0x420000 value ∧
        (value.setWidth 8).toNat ≤ 5 := by
      unfold KernelText.device at isDevice
      split_ifs at isDevice <;> cases isDevice
      · exact ⟨2, rfl, by decide⟩
      · exact ⟨1, rfl, by decide⟩
    obtain ⟨value, handler, small⟩ := stored
    rw [handler] at made
    have top : sampleKernel.stackTop cpu = 0x7FFFFC := by
      rw [KernelText.stackTop, mode.level]
      rfl
    refine ⟨returns_storing (fun index inside => ?_) made, ?_, fun address isUser => ?_⟩
    · rw [sampleKernel.esp_calledFor, top, frameSize, mode.level]
      show 4 ≤ (0x7FFFFC - BitVec.ofNat 32 58 + BitVec.ofNat 32 index - 0x420000).toNat
      have short : index < 58 := inside
      bv_omega
    · cases made
      exact small
    · cases made
      apply storeBytes_of_outside
      unfold userPage at isUser
      show 4 ≤ (address - 0x420000).toNat
      bv_omega
  · intro memory memory' inOrder same
    unfold sampleOrdered at inOrder ⊢
    rwa [same 0x420000 (by unfold userPage; decide)]

theorem run_of_disturbed_by_key :
    ∃ final alone, Step.run (sampleKernel.disturbed counting) sampleProgram
        [.instruction, .interrupt 0x21, .instruction] = some final ∧
      Step.run (undisturbed counting) sampleProgram [(), ()] = some alone ∧
      Alike userPage final alone := by
  have returns : (Step.run (sampleKernel.disturbed counting) sampleProgram
      [.instruction, .interrupt 0x21, .instruction]).isSome := by rfl
  obtain ⟨final, ran⟩ := Option.isSome_iff_exists.mp returns
  have apart : ∀ address, userPage address → Beyond sampleKernel.esp0 58 address := by
    intro address isUser
    unfold userPage at isUser
    show 58 ≤ (address - (0x7FFFFC - BitVec.ofNat 32 58)).toNat
    bv_omega
  have mode : UserMode sampleKernel.tables sampleProgram :=
    ⟨rfl, (lowered_tables samplePlacement 0 0 0x7FFFFC).1, rfl, rfl⟩
  obtain ⟨alone, ranAlone, alike⟩ := run_of_disturbed (userProgram_counting _) apart
    discreet_sampleKernel mode (Nat.zero_le 5) ran
  exact ⟨final, alone, ran, ranAlone, alike⟩

end MonolithicKernel.Interrupts
