import MonolithicKernel.Foundation.ByteStack
import MonolithicKernel.Foundation.Descriptors

/-!
Owns a 32-bit x86 processor as far as its stack goes: pushes, pops, calls and
returns, the frame that an interrupt pushes and `iret` takes off, and what the calling
convention says of a compiled function.

Segments are flat, and arithmetic flags are not followed. Does not own the faults of
`iret` but the one of a return to more privilege.
-/

namespace MonolithicKernel.Foundation.StackMachine

open ByteStack Descriptors WordRanges X86

@[ext]
structure Cpu where
  eax : Word
  ecx : Word
  edx : Word
  ebx : Word
  esp : Word
  ebp : Word
  esi : Word
  edi : Word
  eip : Word
  eflags : Word
  cs : BitVec 16
  ds : BitVec 16
  es : BitVec 16
  fs : BitVec 16
  gs : BitVec 16
  ss : BitVec 16
  memory : Memory

namespace Cpu

/-! ### Instructions -/

def push (cell : Cell) (cpu : Cpu) : Cpu :=
  { cpu with
    esp := cpu.esp - BitVec.ofNat 32 cell.size
    memory := storeBytes (cpu.esp - BitVec.ofNat 32 cell.size) cell.bytes cpu.memory }

def pushl (value : Word) (cpu : Cpu) : Cpu := cpu.push (.word value)

/-- `pushw %ds` -/
def pushwDs (cpu : Cpu) : Cpu := cpu.push (.half cpu.ds)

/-- `popw %ds` -/
def popwDs (cpu : Cpu) : Cpu := { cpu with ds := loadHalf cpu.memory cpu.esp, esp := cpu.esp + 2 }

/-- `pushal`: the stack pointer is pushed as it was before. -/
def pushal (cpu : Cpu) : Cpu :=
  let pushed := (((cpu.pushl cpu.eax).pushl cpu.ecx).pushl cpu.edx).pushl cpu.ebx
  (((pushed.pushl cpu.esp).pushl cpu.ebp).pushl cpu.esi).pushl cpu.edi

/-- `popal`: the stack pointer on the stack is passed over. -/
def popal (cpu : Cpu) : Cpu :=
  { cpu with
    edi := loadWord cpu.memory cpu.esp
    esi := loadWord cpu.memory (cpu.esp + 4)
    ebp := loadWord cpu.memory (cpu.esp + 8)
    ebx := loadWord cpu.memory (cpu.esp + 16)
    edx := loadWord cpu.memory (cpu.esp + 20)
    ecx := loadWord cpu.memory (cpu.esp + 24)
    eax := loadWord cpu.memory (cpu.esp + 28)
    esp := cpu.esp + 32 }

/-- `movw $value, %si` -/
def movwSi (value : BitVec 16) (cpu : Cpu) : Cpu :=
  { cpu with esi := cpu.esi.extractLsb' 16 16 ++ value }

/-- `movw %si, %ds` -/
def movwDs (cpu : Cpu) : Cpu := { cpu with ds := cpu.esi.setWidth 16 }

/-- `movl %eax, displacement(%esp)` -/
def storeEax (displacement : Nat) (cpu : Cpu) : Cpu :=
  { cpu with
    memory := storeBytes (cpu.esp + BitVec.ofNat 32 displacement) (Cell.word cpu.eax).bytes cpu.memory }

/-- `addl $value, %esp` -/
def release (value : Nat) (cpu : Cpu) : Cpu := { cpu with esp := cpu.esp + BitVec.ofNat 32 value }

theorem release_zero (cpu : Cpu) : cpu.release (size []) = cpu := by
  rw [release, size_nil, BitVec.add_zero]

def ret (cpu : Cpu) : Cpu := { cpu with eip := loadWord cpu.memory cpu.esp, esp := cpu.esp + 4 }

/-- A call that comes back behind itself. -/
def call (returnAddress : Word) (routine : Cpu → Option Cpu) (cpu : Cpu) : Option Cpu :=
  (routine (cpu.pushl returnAddress)).bind fun back =>
    if back.eip = returnAddress then some back else none

/-! ### Interrupts -/

/-- Nested tasks, virtual mode, resume and trap flag are cleared, and the interrupt
flag behind an interrupt gate. -/
def handlerFlags (disables : Bool) (eflags : Word) : Word :=
  eflags &&& ~~~(if disables then 0x00034300 else 0x00034100)

/-- The stack that the handler of an interrupt starts on. -/
def newStack (entry : Entry) (cpu : Cpu) : BitVec 16 × Word := entry.stack.getD (cpu.ss, cpu.esp)

/-- Where an interrupt returns to. -/
def returnFrame (cpu : Cpu) : List Cell :=
  [.word cpu.eip, .word (cpu.cs.setWidth 32), .word cpu.eflags]

/-- The stack that an interrupt returns to, when it has changed the stack. -/
def stackFrame (cpu : Cpu) : List Cell := [.word cpu.esp, .word (cpu.ss.setWidth 32)]

/-- What the processor pushes, from the new stack pointer up. -/
def interruptFrame (entry : Entry) (cpu : Cpu) : List Cell :=
  cpu.returnFrame ++ if entry.stack = none then [] else cpu.stackFrame

/-- The processor goes to the handler of an interrupt. -/
def enter (entry : Entry) (cpu : Cpu) : Cpu :=
  let switched := { cpu with ss := (cpu.newStack entry).1, esp := (cpu.newStack entry).2 }
  { (cpu.interruptFrame entry).foldr push switched with
    eip := entry.eip
    cs := entry.cs
    eflags := handlerFlags entry.disables cpu.eflags }

/-- The privilege level. -/
def cpl (cpu : Cpu) : BitVec 2 := cpu.cs.setWidth 2

/-- The place to return to is taken off the stack. -/
def returned (cpu : Cpu) : Cpu :=
  { cpu with
    eip := loadWord cpu.memory cpu.esp
    cs := (loadWord cpu.memory (cpu.esp + 4)).setWidth 16
    eflags := loadWord cpu.memory (cpu.esp + 8)
    esp := cpu.esp + 12 }

/-- The registers of data segments at a lower privilege level. -/
def lower (tables : Tables) (level : BitVec 2) (cpu : Cpu) : Cpu :=
  { cpu with
    ds := tables.lowered level cpu.ds
    es := tables.lowered level cpu.es
    fs := tables.lowered level cpu.fs
    gs := tables.lowered level cpu.gs }

/-- A return to more privilege is a fault. -/
def iret (tables : Tables) (cpu : Cpu) : Option Cpu :=
  let returned := cpu.returned
  if returned.cpl = cpu.cpl then some returned
  else if cpu.cpl < returned.cpl then
    some { returned.lower tables returned.cpl with
      esp := loadWord cpu.memory returned.esp
      ss := (loadWord cpu.memory (returned.esp + 4)).setWidth 16 }
  else none

/-! ### Stacks -/

/-- The stack of the processor. -/
abbrev OnStack (cpu : Cpu) (top : Word) (room : Nat) (outside : Memory) (cells : List Cell) : Prop :=
  Stacked top room outside cells cpu.esp cpu.memory

/-- What `pushal` pushes, from the new stack pointer up. -/
def registers (cpu : Cpu) : List Cell :=
  [.word cpu.edi, .word cpu.esi, .word cpu.ebp, .word cpu.esp, .word cpu.ebx, .word cpu.edx,
    .word cpu.ecx, .word cpu.eax]

@[simp] theorem size_registers (cpu : Cpu) : size cpu.registers = 32 := rfl

section

variable {top : Word} {room : Nat} {outside : Memory} {cells : List Cell} {cpu : Cpu}

theorem OnStack.push {cell : Cell} (small : room < 2 ^ 32)
    (stacked : cpu.OnStack top room outside cells) (fits : cell.size + size cells ≤ room) :
    (cpu.push cell).OnStack top room outside (cell :: cells) :=
  Stacked.push small stacked fits

theorem OnStack.pushList (stacked : cpu.OnStack top room outside cells) (pushed : List Cell)
    (small : room < 2 ^ 32) (fits : size pushed + size cells ≤ room) :
    (pushed.foldr Cpu.push cpu).OnStack top room outside (pushed ++ cells) := by
  induction pushed with
  | nil => exact stacked
  | cons cell pushed inductionHypothesis =>
      rw [size_cons] at fits
      apply OnStack.push small (inductionHypothesis (by omega))
      rw [size_append]
      omega

theorem pushal_eq (cpu : Cpu) : cpu.pushal = cpu.registers.foldr Cpu.push cpu := rfl

/-- A push changes the stack only. -/
theorem foldr_push (pushed : List Cell) (cpu : Cpu) :
    pushed.foldr Cpu.push cpu =
      { cpu with
        esp := (pushed.foldr Cpu.push cpu).esp
        memory := (pushed.foldr Cpu.push cpu).memory } := by
  induction pushed with
  | nil => rfl
  | cons cell pushed inductionHypothesis =>
      rw [List.foldr_cons]
      conv_lhs => rw [inductionHypothesis]
      rfl

/-- **Restored registers.** -/
theorem popal_of_registers {saved : Cpu}
    (stacked : cpu.OnStack top room outside (saved.registers ++ cells)) :
    cpu.popal =
      { cpu with
        eax := saved.eax, ecx := saved.ecx, edx := saved.edx, ebx := saved.ebx, ebp := saved.ebp,
        esi := saved.esi, edi := saved.edi, esp := cpu.esp + 32 } := by
  have edi : loadWord cpu.memory cpu.esp = _ := stacked.loadWord_top
  have esi : loadWord cpu.memory (cpu.esp + 4) = _ := stacked.tail.loadWord_top
  have ebp : loadWord cpu.memory (cpu.esp + 8) = _ :=
    Stacked.loadWord_at (saved.registers.take 2) stacked
  have ebx : loadWord cpu.memory (cpu.esp + 16) = _ :=
    Stacked.loadWord_at (saved.registers.take 4) stacked
  have edx : loadWord cpu.memory (cpu.esp + 20) = _ :=
    Stacked.loadWord_at (saved.registers.take 5) stacked
  have ecx : loadWord cpu.memory (cpu.esp + 24) = _ :=
    Stacked.loadWord_at (saved.registers.take 6) stacked
  have eax : loadWord cpu.memory (cpu.esp + 28) = _ :=
    Stacked.loadWord_at (saved.registers.take 7) stacked
  rw [popal, edi, esi, ebp, ebx, edx, ecx, eax]

/-! ### Functions -/

/-- A function comes back behind its call, on the same stack, and leaves the `saved`
bytes behind its arguments alone. Compiled code uses neither FS nor GS; ES is free. -/
structure Returns (arguments saved : Nat) (entry back : Cpu) : Prop where
  eip : back.eip = loadWord entry.memory entry.esp
  esp : back.esp = entry.esp + 4
  cs : back.cs = entry.cs
  ss : back.ss = entry.ss
  fs : back.fs = entry.fs
  gs : back.gs = entry.gs
  kept : ∀ index < saved, back.memory (entry.esp + BitVec.ofNat 32 (4 + arguments + index)) =
    entry.memory (entry.esp + BitVec.ofNat 32 (4 + arguments + index))

/-- **Calls.** Behind a call and the release of its arguments the stack is as before. -/
theorem Returns.onStack {returnAddress : Word} {entry back : Cpu} (arguments : List Cell)
    (returns : Returns (size arguments) (size cells) entry back)
    (stacked : entry.OnStack top room outside (.word returnAddress :: (arguments ++ cells))) :
    back.eip = returnAddress ∧
      (back.release (size arguments)).OnStack top room back.memory cells := by
  refine ⟨returns.eip.trans stacked.loadWord_top, ?_⟩
  have released : back.esp + BitVec.ofNat 32 (size arguments) =
      entry.esp + BitVec.ofNat 32 (4 + size arguments) := by
    rw [returns.esp, ← ofNat_add_ofNat]
    rfl
  have below := stacked.tail.drop
  rw [Cell.size_word, ofNat_add_ofNat] at below
  rw [OnStack, release, released]
  apply below.rebase
  intro index inside
  rw [ofNat_add_ofNat]
  exact returns.kept index inside

/-- The words that a function finds as its arguments. -/
def argument (cpu : Cpu) (index : Nat) : Word :=
  loadWord cpu.memory (cpu.esp + BitVec.ofNat 32 (4 + 4 * index))

theorem size_map_word (words : List Word) : size (words.map Cell.word) = 4 * words.length := by
  induction words with
  | nil => rfl
  | cons word words inductionHypothesis =>
      rw [List.map_cons, size_cons, inductionHypothesis, List.length_cons, Cell.size_word]
      omega

theorem argument_eq {returnAddress value : Word} (before : List Word)
    (stacked : cpu.OnStack top room outside
      (.word returnAddress :: (before.map Cell.word ++ .word value :: cells))) :
    cpu.argument before.length = value := by
  have found := stacked.tail.loadWord_at
  rwa [Cell.size_word, ofNat_add_ofNat, size_map_word] at found

/-! ### Entries and returns -/

/-- The handler starts on the interrupt's frame, with everything else as it was. -/
theorem enter_eq (entry : Entry) (cpu : Cpu) :
    cpu.enter entry =
      { cpu with
        esp := (cpu.enter entry).esp, memory := (cpu.enter entry).memory
        ss := (cpu.newStack entry).1, eip := entry.eip, cs := entry.cs
        eflags := handlerFlags entry.disables cpu.eflags } := by
  conv_lhs => rw [enter, foldr_push]
  rfl

theorem onStack_enter {entry : Entry} (small : room < 2 ^ 32)
    (fits : size (cpu.interruptFrame entry) ≤ room) :
    (cpu.enter entry).OnStack (cpu.newStack entry).2 room cpu.memory
      (cpu.interruptFrame entry) := by
  let switched := { cpu with ss := (cpu.newStack entry).1, esp := (cpu.newStack entry).2 }
  have empty : switched.OnStack (cpu.newStack entry).2 room cpu.memory [] := Stacked.empty ..
  have pushed := empty.pushList (cpu.interruptFrame entry) small (by simpa using fits)
  rwa [List.append_nil] at pushed

/-- The stack changes with the privilege level. -/
structure ChangesStack (entry : Entry) (cpl : BitVec 2) : Prop where
  same : entry.stack = none → entry.cs.setWidth 2 = cpl
  more : entry.stack ≠ none → entry.cs.setWidth 2 < cpl

theorem setWidth_setWidth (selector : BitVec 16) :
    (selector.setWidth 32).setWidth 16 = selector := by
  simp

theorem returned_eq {handler : Cpu}
    (stacked : handler.OnStack top room outside (cpu.returnFrame ++ cells)) :
    handler.returned =
      { handler with
        eip := cpu.eip, cs := cpu.cs, eflags := cpu.eflags, esp := handler.esp + 12 } := by
  have eip : loadWord handler.memory handler.esp = _ := stacked.loadWord_top
  have cs : loadWord handler.memory (handler.esp + 4) = _ := stacked.tail.loadWord_top
  have eflags : loadWord handler.memory (handler.esp + 8) = _ :=
    Stacked.loadWord_at (cpu.returnFrame.take 2) stacked
  rw [returned, eip, cs, eflags, setWidth_setWidth]

/-- What a return from the handler of an entry leaves in a register of a data segment. -/
def left (tables : Tables) (entry : Entry) (cpu : Cpu) (selector : BitVec 16) : BitVec 16 :=
  if entry.stack = none then selector else tables.lowered cpu.cpl selector

/-- **Returns.** An `iret` on the frame of an interrupt goes back to where it came in. -/
theorem iret_eq (tables : Tables) {entry : Entry} {handler : Cpu}
    (changes : ChangesStack entry cpu.cpl)
    (stacked : handler.OnStack (cpu.newStack entry).2 room outside (cpu.interruptFrame entry))
    (cs : handler.cs = entry.cs) (ss : handler.ss = (cpu.newStack entry).1) :
    handler.iret tables =
      some { handler with
        eip := cpu.eip, cs := cpu.cs, eflags := cpu.eflags, esp := cpu.esp, ss := cpu.ss
        ds := left tables entry cpu handler.ds, es := left tables entry cpu handler.es
        fs := left tables entry cpu handler.fs, gs := left tables entry cpu handler.gs } := by
  have level : handler.cpl = entry.cs.setWidth 2 := congrArg (BitVec.setWidth 2) cs
  have rest : ({ handler with esp := handler.esp + 12 } : Cpu).OnStack _ _ _ _ := stacked.drop
  have back := returned_eq stacked
  have backLevel : handler.returned.cpl = cpu.cpl := by rw [back]; rfl
  by_cases unchanged : entry.stack = none
  · rw [if_pos unchanged] at rest
    have esp : handler.esp + 12 = _ := rest.esp_eq
    rw [newStack, unchanged, size_nil, BitVec.sub_zero] at esp
    rw [newStack, unchanged] at ss
    rw [iret, if_pos (by rw [backLevel, level, changes.same unchanged]), back, esp]
    simp only [left, if_pos unchanged]
    rw [show cpu.ss = handler.ss from ss.symm]
    rfl
  · rw [if_neg unchanged] at rest
    have esp : loadWord handler.memory (handler.esp + 12) = _ := rest.loadWord_top
    have stack : loadWord handler.memory (handler.esp + 12 + 4) = _ := rest.tail.loadWord_top
    have lower : handler.cpl < handler.returned.cpl := by
      rw [backLevel, level]
      exact changes.more unchanged
    rw [iret, if_neg (BitVec.ne_of_lt lower).symm, if_pos lower, backLevel, back, esp, stack,
      setWidth_setWidth]
    simp only [left, if_neg unchanged]
    rfl

end

/-- An interrupt that the tables let through changes the stack with the privilege. -/
theorem changesStack_of_enter {tables : Tables} {cause : Cause} {cpl : BitVec 2}
    {vector : BitVec 8} {entry : Entry} (entered : tables.enter cause cpl vector = some entry) :
    ChangesStack entry cpl := by
  obtain ⟨gate, -, entered⟩ := Option.bind_eq_some_iff.mp entered
  split_ifs at entered
  obtain ⟨code, -, entered⟩ := Option.bind_eq_some_iff.mp entered
  split_ifs at entered with allowed
  obtain ⟨stack, switched, rfl⟩ := Option.map_eq_some_iff.mp entered
  have level : (gate.selector &&& 0xFFFC ||| code.dpl.setWidth 16).setWidth 2 = code.dpl := by
    apply BitVec.eq_of_getLsbD_eq
    intro bit inLevel
    interval_cases bit <;> simp
  unfold Tables.switchStack at switched
  split_ifs at switched with same
  · cases switched
    refine ⟨fun _ => level.trans same, fun changed => ?_⟩
    exact absurd rfl changed
  · obtain ⟨descriptor, -, switched⟩ := Option.bind_eq_some_iff.mp switched
    split_ifs at switched
    cases switched
    refine ⟨fun unchanged => absurd unchanged (Option.some_ne_none _), fun _ => ?_⟩
    rw [level]
    exact BitVec.lt_of_le_ne allowed.2.1 same

end Cpu

end MonolithicKernel.Foundation.StackMachine
