import MonolithicKernel.Foundation.StackMachine
import MonolithicKernel.Interrupts.DescriptorTables

/-!
Owns `idt_wrappers.S` as far as devices go, and what the wrappers share: they save the
registers of the interrupted program, load the kernel's data segment, call a C handler
and restore what they saved. They save neither ES, FS nor GS. The C handlers are
parameters that keep to their calling convention where they are called.

Does not own system calls or what the handlers do.
-/

namespace MonolithicKernel.Interrupts

open MonolithicKernel.Foundation
open ByteStack Descriptors StackMachine WordRanges X86

/-! ### `idt_wrappers.S` -/

/-- What the wrappers begin with. -/
def saveRegisters (cpu : Cpu) : Cpu := (cpu.pushal.pushwDs.movwSi kernelDs).movwDs

/-- `rtc_wrapper` and `keyboard_wrapper` differ in the handler that they call. -/
def deviceWrapper (tables : Tables) (after : Word) (handler : Cpu → Option Cpu) (cpu : Cpu) :
    Option Cpu :=
  ((saveRegisters cpu).call after handler).bind fun cpu => cpu.popwDs.popal.iret tables

def rtcWrapper (tables : Tables) (after : Word) (rtcHandler : Cpu → Option Cpu) :
    Cpu → Option Cpu :=
  deviceWrapper tables after rtcHandler

def keyboardWrapper (tables : Tables) (after : Word) (keyboardHandler : Cpu → Option Cpu) :
    Cpu → Option Cpu :=
  deviceWrapper tables after keyboardHandler

/-! ### Saving and restoring -/

section

variable {top : Word} {room : Nat} {outside : Memory} {cells : List Cell} {cpu saved : Cpu}

/-- What is on the stack behind `saveRegisters`. -/
def savedRegisters (cpu : Cpu) : List Cell := .half cpu.ds :: cpu.registers

theorem size_savedRegisters (cpu : Cpu) : size (savedRegisters cpu) = 34 := rfl

theorem saveRegisters_eq (cpu : Cpu) :
    saveRegisters cpu =
      { cpu with
        esp := ((savedRegisters cpu).foldr Cpu.push cpu).esp
        memory := ((savedRegisters cpu).foldr Cpu.push cpu).memory
        esi := cpu.esi.extractLsb' 16 16 ++ kernelDs
        ds := kernelDs } := by
  have ds : cpu.pushal.ds = cpu.ds := by rw [Cpu.pushal_eq, Cpu.foldr_push]
  have pushed : cpu.pushal.pushwDs = (savedRegisters cpu).foldr Cpu.push cpu := by
    rw [Cpu.pushwDs, ds, Cpu.pushal_eq, savedRegisters, List.foldr_cons]
  rw [saveRegisters, pushed, Cpu.foldr_push]
  simp only [Cpu.movwSi, Cpu.movwDs, BitVec.setWidth_append_eq_right]

theorem onStack_saveRegisters (small : room < 2 ^ 32)
    (stacked : cpu.OnStack top room outside cells) (fits : 34 + size cells ≤ room) :
    (saveRegisters cpu).OnStack top room outside (savedRegisters cpu ++ cells) := by
  have pushed := stacked.pushList (savedRegisters cpu) small (by rw [size_savedRegisters]; exact fits)
  rw [Cpu.OnStack, saveRegisters_eq]
  exact pushed

theorem popwDs_eq (stacked : cpu.OnStack top room outside (savedRegisters saved ++ cells)) :
    cpu.popwDs = { cpu with ds := saved.ds, esp := cpu.esp + 2 } := by
  have ds : loadHalf cpu.memory cpu.esp = saved.ds := stacked.loadHalf_top
  rw [Cpu.popwDs, ds]

theorem onStack_popwDs (stacked : cpu.OnStack top room outside (savedRegisters saved ++ cells)) :
    cpu.popwDs.OnStack top room outside (saved.registers ++ cells) :=
  stacked.tail

end

/-! ### Device interrupts -/

section

variable {entry : Entry} {cpu : Cpu}

/-- The frame of an interrupt, with what the wrapper saves. -/
def savedFrame (entry : Entry) (cpu : Cpu) : List Cell :=
  savedRegisters (cpu.enter entry) ++ cpu.interruptFrame entry

theorem size_interruptFrame_le (entry : Entry) (cpu : Cpu) :
    size (cpu.interruptFrame entry) ≤ 20 := by
  rw [Cpu.interruptFrame, size_append]
  split <;> exact Nat.le_of_ble_eq_true rfl

theorem size_savedFrame (entry : Entry) (cpu : Cpu) :
    size (savedFrame entry cpu) = 34 + size (cpu.interruptFrame entry) := by
  rw [savedFrame, size_append, size_savedRegisters]

theorem onStack_savedFrame (entry : Entry) (cpu : Cpu) {room : Nat} (small : room < 2 ^ 32)
    (fits : 54 ≤ room) :
    (saveRegisters (cpu.enter entry)).OnStack (cpu.newStack entry).2 room cpu.memory
      (savedFrame entry cpu) := by
  have short := size_interruptFrame_le entry cpu
  exact onStack_saveRegisters small (Cpu.onStack_enter small (by omega)) (by omega)

/-- The processor behind the call that a wrapper makes. -/
def calledFrom (after : Word) (entry : Entry) (cpu : Cpu) : Cpu :=
  (saveRegisters (cpu.enter entry)).pushl after

/-- The stack behind that call. -/
theorem onStack_call (after : Word) (entry : Entry) (cpu : Cpu) {room : Nat} (small : room < 2 ^ 32)
    (fits : 58 ≤ room) :
    (calledFrom after entry cpu).OnStack (cpu.newStack entry).2 room cpu.memory
      (.word after :: savedFrame entry cpu) := by
  have short := size_interruptFrame_le entry cpu
  apply (onStack_savedFrame entry cpu small (by omega)).push small
  rw [size_savedFrame, Cell.size_word]
  omega

/-- What that call finds in registers. -/
theorem registers_at_call (after : Word) (entry : Entry) (cpu : Cpu) :
    let caller := calledFrom after entry cpu
    (caller.eax = cpu.eax ∧ caller.ebx = cpu.ebx ∧ caller.ecx = cpu.ecx ∧ caller.edx = cpu.edx) ∧
      (caller.ds = kernelDs ∧ caller.es = cpu.es ∧ caller.fs = cpu.fs ∧ caller.gs = cpu.gs) ∧
      caller.cs = entry.cs ∧ caller.ss = (cpu.newStack entry).1 := by
  dsimp only
  rw [calledFrom, Cpu.pushl, Cpu.push, saveRegisters_eq, Cpu.enter_eq]
  exact ⟨⟨rfl, rfl, rfl, rfl⟩, ⟨rfl, rfl, rfl, rfl⟩, rfl, rfl⟩

/-- The interrupted program behind the `iret`, when the handler has come to `back`. -/
def resumed (tables : Tables) (entry : Entry) (cpu back : Cpu) : Cpu :=
  { cpu with
    ds := Cpu.left tables entry cpu cpu.ds
    es := Cpu.left tables entry cpu back.es
    fs := Cpu.left tables entry cpu cpu.fs
    gs := Cpu.left tables entry cpu cpu.gs
    memory := back.memory }

/-- **Ends of wrappers.** On the frame of an interrupt, `popal` and `iret` restore what
was saved and go back to the interrupted program. -/
theorem iret_popal (tables : Tables) {back saved : Cpu} {room : Nat} {outside : Memory}
    (changes : Cpu.ChangesStack entry cpu.cpl)
    (stacked : back.OnStack (cpu.newStack entry).2 room outside
      (saved.registers ++ cpu.interruptFrame entry))
    (cs : back.cs = entry.cs) (ss : back.ss = (cpu.newStack entry).1) :
    back.popal.iret tables =
      some { saved with
        esp := cpu.esp, eip := cpu.eip, eflags := cpu.eflags, cs := cpu.cs, ss := cpu.ss
        ds := Cpu.left tables entry cpu back.ds, es := Cpu.left tables entry cpu back.es
        fs := Cpu.left tables entry cpu back.fs, gs := Cpu.left tables entry cpu back.gs
        memory := back.memory } := by
  have restored := Cpu.popal_of_registers stacked
  have rest : back.popal.OnStack (cpu.newStack entry).2 room outside (cpu.interruptFrame entry) := by
    rw [restored]
    exact stacked.drop
  rw [Cpu.iret_eq tables changes rest (by rw [restored]; exact cs) (by rw [restored]; exact ss),
    restored]

/-- **Transparency.** Where a device's handler returns, the interrupted program goes on
with every register as it was but ES, which the wrapper does not save. -/
theorem deviceWrapper_eq (tables : Tables) {after : Word} {handler : Cpu → Option Cpu}
    (changes : Cpu.ChangesStack entry cpu.cpl)
    (conforms : ∀ back, handler (calledFrom after entry cpu) = some back →
      Cpu.Returns 0 (34 + size (cpu.interruptFrame entry)) (calledFrom after entry cpu) back) :
    deviceWrapper tables after handler (cpu.enter entry) =
      (handler (calledFrom after entry cpu)).map (resumed tables entry cpu) := by
  have called := onStack_call after entry cpu (show 58 < 2 ^ 32 by decide) le_rfl
  obtain ⟨-, ⟨-, -, fs, gs⟩, cs, ss⟩ := registers_at_call after entry cpu
  rw [deviceWrapper, Cpu.call, ← calledFrom]
  cases made : handler (calledFrom after entry cpu) with
  | none => rfl
  | some back =>
      have returns := conforms back made
      rw [← size_savedFrame] at returns
      obtain ⟨eip, stacked⟩ := returns.onStack [] called
      rw [Option.bind_some, if_pos eip, Option.bind_some, Option.map_some]
      rw [Cpu.release_zero] at stacked
      have popped := popwDs_eq stacked
      have saved : (cpu.enter entry).ds = cpu.ds := by rw [Cpu.enter_eq]
      rw [iret_popal tables changes (onStack_popwDs stacked), popped, saved, returns.fs, returns.gs,
        fs, gs, resumed, Cpu.enter_eq]
      · rw [popped]
        exact returns.cs.trans cs
      · rw [popped]
        exact returns.ss.trans ss

end

end MonolithicKernel.Interrupts
