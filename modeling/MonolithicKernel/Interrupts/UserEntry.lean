import MonolithicKernel.Foundation.StackMachine
import MonolithicKernel.Interrupts.DescriptorTables

/-!
Owns the end of `process_start`: it pushes the frame of an interrupt that never came in,
from a user program that has not begun, and returns from it. So a new process begins at
its entry point in user mode, on its own stack, with interrupts enabled.

Does not own where the entry point comes from.
-/

namespace MonolithicKernel.Interrupts

open MonolithicKernel.Foundation
open ByteStack Descriptors StackMachine WordRanges X86

/-- The flags behind `xorl %%eax, %%eax`: zero and parity are set, carry, sign and overflow
are clear, and adjust is undefined. -/
def zeroFlags (adjust : Bool) (eflags : Word) : Word :=
  eflags &&& ~~~0x08D5 ||| if adjust then 0x0054 else 0x0044

/-- `xorl %%eax, %%eax`, `movl %2, %%eax` and `movw %%ax, %%ds`. -/
def loadUserDs (adjust : Bool) (cpu : Cpu) : Cpu :=
  let cpu := { cpu with eax := 0, eflags := zeroFlags adjust cpu.eflags }
  let cpu := { cpu with eax := userDs.setWidth 32 }
  { cpu with ds := cpu.eax.setWidth 16 }

/-- `pushfl`, `popl %%eax` and `orl $0x0200, %%eax`, which leaves some flags itself. -/
def loadFlags (orFlags : Word) (cpu : Cpu) : Cpu :=
  let cpu := cpu.pushl cpu.eflags
  let cpu := { cpu with eax := loadWord cpu.memory cpu.esp, esp := cpu.esp + 4 }
  { cpu with eax := cpu.eax ||| 0x0200, eflags := orFlags }

/-- The assembly of `process_start`; the compiler chooses the registers that hold its
operands. -/
def enterUser (tables : Tables) (adjust : Bool) (orFlags newEsp entryPoint : Word) (cpu : Cpu) :
    Option Cpu :=
  let cpu := ((loadUserDs adjust cpu).pushl (userDs.setWidth 32)).pushl newEsp
  let cpu := loadFlags orFlags cpu
  let cpu := (cpu.pushl cpu.eax).pushl (userCs.setWidth 32)
  (cpu.pushl entryPoint).iret tables

section

variable {cpu : Cpu} {top : Word} {room : Nat} {outside : Memory} {cells : List Cell}

/-- The program that is to begin. -/
def beginning (adjust : Bool) (newEsp entryPoint : Word) (cpu : Cpu) : Cpu :=
  { cpu with
    eip := entryPoint, cs := userCs, eflags := zeroFlags adjust cpu.eflags ||| 0x0200
    esp := newEsp, ss := userDs }

/-- The entry of the interrupt that its frame seems to be of. -/
def seemingEntry (cpu : Cpu) : Entry where
  cs := kernelCs
  eip := 0
  cpl := 0
  stack := some (cpu.ss, cpu.esp)
  disables := false

theorem changesStack_seemingEntry (adjust : Bool) (newEsp entryPoint : Word) (cpu : Cpu) :
    Cpu.ChangesStack (seemingEntry cpu) (beginning adjust newEsp entryPoint cpu).cpl := by
  constructor
  · intro unchanged
    exact absurd unchanged (Option.some_ne_none _)
  · intro _
    show (kernelCs.setWidth 2 : BitVec 2) < userCs.setWidth 2
    decide

theorem left_seemingEntry (tables : Tables) (adjust : Bool) (newEsp entryPoint : Word) (cpu : Cpu)
    (selector : BitVec 16) :
    Cpu.left tables (seemingEntry cpu) (beginning adjust newEsp entryPoint cpu) selector =
      tables.lowered 3 selector := by
  have level : (beginning adjust newEsp entryPoint cpu).cpl = 3 := by
    show (userCs.setWidth 2 : BitVec 2) = 3
    decide
  have switched : (seemingEntry cpu).stack ≠ none := Option.some_ne_none _
  rw [Cpu.left, if_neg switched, level]

theorem loadFlags_eq (orFlags : Word) (small : room < 2 ^ 32)
    (stacked : cpu.OnStack top room outside cells) (fits : 4 + size cells ≤ room) :
    ∃ memory, loadFlags orFlags cpu =
        { cpu with eax := cpu.eflags ||| 0x0200, eflags := orFlags, memory := memory } ∧
      Stacked top room outside cells cpu.esp memory := by
  have pushed : (cpu.pushl cpu.eflags).OnStack top room outside (.word cpu.eflags :: cells) :=
    stacked.push small fits
  have popped := pushed.tail
  have esp : (cpu.pushl cpu.eflags).esp + 4 = cpu.esp := BitVec.sub_add_cancel ..
  refine ⟨(cpu.pushl cpu.eflags).memory, ?_, esp ▸ popped⟩
  have eflags : loadWord (cpu.pushl cpu.eflags).memory (cpu.pushl cpu.eflags).esp = _ :=
    pushed.loadWord_top
  rw [loadFlags, eflags, esp]
  rfl

end

/-- **New processes.** Whatever the kernel's stack and registers hold, the new process
begins at its entry point in user mode, with its own stack and data segment and with the
interrupt flag set; only 20 bytes of the kernel's stack have changed. Nothing loads the
other data segments for it. -/
theorem enterUser_eq (placement : Placement) (ldtStack tssStack : BitVec 64) (esp0 : Word)
    (adjust : Bool) (orFlags newEsp entryPoint : Word) {cpu : Cpu} (kernel : cpu.cs = kernelCs) :
    let tables := Interrupts.tables placement ldtStack tssStack esp0
    ∃ memory : Memory,
      (∀ address, Beyond cpu.esp 20 address → memory address = cpu.memory address) ∧
      enterUser tables adjust orFlags newEsp entryPoint cpu =
        some { cpu with
          eax := zeroFlags adjust cpu.eflags ||| 0x0200
          eip := entryPoint, esp := newEsp, eflags := zeroFlags adjust cpu.eflags ||| 0x0200
          cs := userCs, ds := userDs, es := tables.lowered 3 cpu.es, fs := tables.lowered 3 cpu.fs
          gs := tables.lowered 3 cpu.gs, ss := userDs, memory := memory } := by
  intro tables
  have small : 20 < 2 ^ 32 := by decide
  let saved := ((loadUserDs adjust cpu).pushl (userDs.setWidth 32)).pushl newEsp
  have loaded : (loadUserDs adjust cpu).OnStack cpu.esp 20 cpu.memory [] := Stacked.empty ..
  have stack : saved.OnStack cpu.esp 20 cpu.memory
      (beginning adjust newEsp entryPoint cpu).stackFrame :=
    loaded.pushList (beginning adjust newEsp entryPoint cpu).stackFrame small
      (Nat.le_of_ble_eq_true rfl)
  obtain ⟨memory, flags, kept⟩ := loadFlags_eq orFlags small stack (Nat.le_of_ble_eq_true rfl)
  have ready : (loadFlags orFlags saved).OnStack cpu.esp 20 cpu.memory
      (beginning adjust newEsp entryPoint cpu).stackFrame := by
    rw [Cpu.OnStack, flags]
    exact kept
  have eax : (loadFlags orFlags saved).eax = zeroFlags adjust cpu.eflags ||| 0x0200 := by
    rw [flags]
    rfl
  have frame := ready.pushList (beginning adjust newEsp entryPoint cpu).returnFrame small
    (Nat.le_of_ble_eq_true rfl)
  have returned := Cpu.iret_eq tables
    (changesStack_seemingEntry adjust newEsp entryPoint cpu) frame
  have entered : enterUser tables adjust orFlags newEsp entryPoint cpu =
      ((beginning adjust newEsp entryPoint cpu).returnFrame.foldr Cpu.push
        (loadFlags orFlags saved)).iret tables := by
    show ((((loadFlags orFlags saved).pushl (loadFlags orFlags saved).eax).pushl _).pushl _).iret
      tables = _
    rw [eax]
    rfl
  -- The pushes leave everything but the stack as the flags left it.
  obtain ⟨esp, memory', pushed⟩ : ∃ esp memory',
      (beginning adjust newEsp entryPoint cpu).returnFrame.foldr Cpu.push (loadFlags orFlags saved) =
        { saved with
          eax := zeroFlags adjust cpu.eflags ||| 0x0200, eflags := orFlags, esp := esp
          memory := memory' } :=
    ⟨_, _, (Cpu.foldr_push _ _).trans (by rw [flags]; rfl)⟩
  have ds : tables.lowered 3 userDs = userDs :=
    (lowered_tables placement ldtStack tssStack esp0).1
  rw [pushed] at frame returned entered
  refine ⟨memory', frame.frame, ?_⟩
  rw [entered, returned kernel rfl]
  simp only [left_seemingEntry]
  rw [show saved.ds = userDs from rfl, ds]
  rfl

/-- A process whose ELF file starts at 0x080482E8, from a kernel whose data segments are
those that `boot.S` has loaded. -/
theorem enterUser_at_entry :
    let cpu : Cpu := ⟨0, 1, 2, 3, 0x7FDF00, 5, 6, 7, 0, 0x202, kernelCs, kernelDs, kernelDs, kernelDs,
      kernelDs, kernelDs, fun _ => 0⟩
    let tables := Interrupts.tables ⟨fun _ => 0x401000, 0x410000, 0x411000⟩ 0 0 0x7FDFFC
    ∃ memory : Memory,
      (∀ address, Beyond cpu.esp 20 address → memory address = cpu.memory address) ∧
      enterUser tables false 0x202 0x083FFFFC 0x080482E8 cpu =
        some { cpu with
          eax := zeroFlags false cpu.eflags ||| 0x0200
          eip := 0x080482E8, esp := 0x083FFFFC, eflags := zeroFlags false cpu.eflags ||| 0x0200
          cs := userCs, ds := userDs, es := tables.lowered 3 cpu.es, fs := tables.lowered 3 cpu.fs
          gs := tables.lowered 3 cpu.gs, ss := userDs, memory := memory } :=
  enterUser_eq _ 0 0 0x7FDFFC false 0x202 0x083FFFFC 0x080482E8 rfl

end MonolithicKernel.Interrupts
