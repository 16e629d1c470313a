import MonolithicKernel.Interrupts.Wrappers

/-!
Owns `exceptions.S` and what the C handlers of exceptions find: their parameter lists are
the saved registers and the processor's frame, read off the stack from the call on.

The handlers of `exception_handlers.c` never return, so what the wrappers do behind the
call is not owned here. Does not own what the handlers print.
-/

namespace MonolithicKernel.Interrupts

open MonolithicKernel.Foundation
open ByteStack Descriptors StackMachine WordRanges X86

/-! ### `exceptions.S` -/

/-- `pushal` to the load of the kernel's data segment. DS takes a whole word, of which
`pushl` fills the lower half; what is in the upper one depends on the processor. -/
def saveForException (upper : BitVec 16) (cpu : Cpu) : Cpu :=
  ((cpu.pushal.pushl (upper ++ cpu.ds)).movwSi kernelDs).movwDs

/-- `ERR_EXCEPTION_WRAPPER` up to the handler: the processor has pushed an error code. -/
def errExceptionWrapper (upper : BitVec 16) (after : Word) (cpu : Cpu) : Cpu :=
  (saveForException upper cpu).pushl after

/-- `EXCEPTION_WRAPPER` up to the handler: 0 stands in for an error code. -/
def exceptionWrapper (upper : BitVec 16) (after : Word) (cpu : Cpu) : Cpu :=
  errExceptionWrapper upper after (cpu.pushl 0)

/-- `page_fault` up to the handler. -/
def pageFault (upper : BitVec 16) (cr2 after : Word) (cpu : Cpu) : Cpu :=
  let cpu := { saveForException upper cpu with eax := cr2 }
  (cpu.pushl cpu.eax).pushl after

/-! ### Parameters -/

section

variable {cpu : Cpu} {entry : Entry} {top : Word} {room : Nat} {outside : Memory}

/-- The parameters from `ds` to `eax`. -/
def registerParameters (upper : BitVec 16) (cpu : Cpu) : List Word :=
  [upper ++ cpu.ds, cpu.edi, cpu.esi, cpu.ebp, cpu.esp, cpu.ebx, cpu.edx, cpu.ecx, cpu.eax]

/-- The parameters from `eip` on; there is no `useresp` and `ss` without a change of the
stack. -/
def frameParameters (entry : Entry) (cpu : Cpu) : List Word :=
  [cpu.eip, cpu.cs.setWidth 32, cpu.eflags] ++
    if entry.stack = none then [] else [cpu.esp, cpu.ss.setWidth 32]

theorem map_word_frameParameters (entry : Entry) (cpu : Cpu) :
    (frameParameters entry cpu).map Cell.word = cpu.interruptFrame entry := by
  rw [frameParameters, Cpu.interruptFrame, List.map_append]
  split <;> rfl

theorem onStack_saveForException (upper : BitVec 16) {cells : List Cell} (small : room < 2 ^ 32)
    (stacked : cpu.OnStack top room outside cells) (fits : 36 + size cells ≤ room) :
    (saveForException upper cpu).OnStack top room outside
      ((registerParameters upper cpu).map Cell.word ++ cells) := by
  have saved := stacked.pushList ((registerParameters upper cpu).map Cell.word) small
    (by rw [Cpu.size_map_word]; exact fits)
  exact saved

/-- The words on the stack behind a call are the arguments of the function. -/
theorem argument_of_words {returnAddress : Word} {words : List Word}
    (stacked : cpu.OnStack top room outside (.word returnAddress :: words.map Cell.word))
    (index : Fin words.length) : cpu.argument index = words.get index := by
  have split : words = words.take index ++ words.get index :: words.drop (index + 1) := by
    rw [List.get_eq_getElem, ← List.drop_eq_getElem_cons index.isLt, List.take_append_drop]
  have opened : cpu.OnStack top room outside (.word returnAddress ::
      ((words.take index).map Cell.word ++ .word (words.get index) ::
        (words.drop (index + 1)).map Cell.word)) := by
    rw [← List.map_cons, ← List.map_append, ← split]
    exact stacked
  have found := Cpu.argument_eq (words.take index) opened
  rwa [List.length_take, Nat.min_eq_left index.isLt.le] at found

/-- The parameters of a C handler: the registers as the exception found them, but for
`esp`, which points at the error code, and what the processor has pushed. -/
def exceptionParameters (upper : BitVec 16) (entry : Entry) (cpu : Cpu) (errorCode : Word) :
    List Word :=
  let esp := (cpu.newStack entry).2 - BitVec.ofNat 32 (size (cpu.interruptFrame entry) + 4)
  registerParameters upper { cpu with esp := esp } ++ errorCode :: frameParameters entry cpu

theorem size_exceptionParameters_le (upper : BitVec 16) (entry : Entry) (cpu : Cpu)
    (errorCode : Word) :
    size ((exceptionParameters upper entry cpu errorCode).map Cell.word) ≤ 60 := by
  have length_le : (exceptionParameters upper entry cpu errorCode).length ≤ 15 := by
    rw [exceptionParameters, frameParameters]
    split <;> exact Nat.le_of_ble_eq_true rfl
  rw [Cpu.size_map_word]
  omega

theorem onStack_exception (upper : BitVec 16) (entry : Entry) (cpu : Cpu) (errorCode : Word) :
    (saveForException upper ((cpu.enter entry).pushl errorCode)).OnStack (cpu.newStack entry).2 68
      cpu.memory ((exceptionParameters upper entry cpu errorCode).map Cell.word) := by
  have small : 68 < 2 ^ 32 := by decide
  have short := size_interruptFrame_le entry cpu
  have entered : (cpu.enter entry).OnStack (cpu.newStack entry).2 68 cpu.memory
      (cpu.interruptFrame entry) := Cpu.onStack_enter small (by omega)
  have coded : ((cpu.enter entry).pushl errorCode).OnStack (cpu.newStack entry).2 68 cpu.memory
      (.word errorCode :: cpu.interruptFrame entry) :=
    entered.push small (by rw [Cell.size_word]; omega)
  have saved := onStack_saveForException upper small coded (by rw [size_cons, Cell.size_word]; omega)
  have registers : registerParameters upper ((cpu.enter entry).pushl errorCode) =
      registerParameters upper { cpu with
        esp := (cpu.newStack entry).2 - BitVec.ofNat 32 (size (cpu.interruptFrame entry) + 4) } := by
    rw [← sub_ofNat_sub_ofNat, ← entered.esp_eq, Cpu.pushl, Cpu.push, Cell.size_word, Cpu.enter_eq]
    rfl
  rw [exceptionParameters, List.map_append, List.map_cons, map_word_frameParameters, ← registers]
  exact saved

/-- **Exceptions** without an error code pass the interrupted program's state. -/
theorem argument_exceptionWrapper (upper : BitVec 16) (entry : Entry) (cpu : Cpu) (after : Word)
    (index : Fin (exceptionParameters upper entry cpu 0).length) :
    (exceptionWrapper upper after (cpu.enter entry)).argument index =
      (exceptionParameters upper entry cpu 0).get index := by
  have short := size_exceptionParameters_le upper entry cpu 0
  have called : (exceptionWrapper upper after (cpu.enter entry)).OnStack (cpu.newStack entry).2 68
      cpu.memory (.word after :: (exceptionParameters upper entry cpu 0).map Cell.word) :=
    (onStack_exception upper entry cpu 0).push (by decide) (by rw [Cell.size_word]; omega)
  exact argument_of_words called index

/-- **Page faults** pass the address that was not mapped, and then the same. -/
theorem argument_pageFault (upper : BitVec 16) (entry : Entry) (cpu : Cpu)
    (cr2 after errorCode : Word)
    (index : Fin (cr2 :: exceptionParameters upper entry cpu errorCode).length) :
    (pageFault upper cr2 after ((cpu.enter entry).pushl errorCode)).argument index =
      (cr2 :: exceptionParameters upper entry cpu errorCode).get index := by
  have short := size_exceptionParameters_le upper entry cpu errorCode
  let saved : Cpu := { saveForException upper ((cpu.enter entry).pushl errorCode) with eax := cr2 }
  have onStack : saved.OnStack (cpu.newStack entry).2 68 cpu.memory
    ((exceptionParameters upper entry cpu errorCode).map Cell.word) := onStack_exception upper entry cpu errorCode
  have passed : (saved.pushl cr2).OnStack (cpu.newStack entry).2 68 cpu.memory
      (.word cr2 :: (exceptionParameters upper entry cpu errorCode).map Cell.word) :=
    onStack.push (by decide) (by rw [Cell.size_word]; omega)
  have called : (pageFault upper cr2 after ((cpu.enter entry).pushl errorCode)).OnStack
      (cpu.newStack entry).2 68 cpu.memory
      (.word after :: (cr2 :: exceptionParameters upper entry cpu errorCode).map Cell.word) :=
    passed.push (by decide) (by rw [List.map_cons, size_cons, Cell.size_word, Cell.size_word]; omega)
  exact argument_of_words called index

end

end MonolithicKernel.Interrupts
