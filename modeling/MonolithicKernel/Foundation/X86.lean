import MonolithicKernel.Foundation.BoundedLoops
import MonolithicKernel.Foundation.WordRanges

/-!
Owns a fragment of 32-bit x86 with flat segments: five registers, the segment
selectors DS and ES, the zero, carry and direction flags, a byte memory, moves,
arithmetic, conditional jumps and the `rep` string instructions. Owns the rules
by which a program is run to a postcondition.

A program maps each label to its text, the list of the instructions from the
label to the end, so a position is the text that is left. Instructions are
written in AT&T order, the source first. Does not own any particular program.
-/

namespace MonolithicKernel.Foundation.X86

open WordRanges

inductive Register
  | eax | ecx | edx | esi | edi
deriving DecidableEq

structure Machine where
  eax : Word
  ecx : Word
  edx : Word
  esi : Word
  edi : Word
  ds : BitVec 16
  es : BitVec 16
  zf : Bool
  cf : Bool
  /-- The direction flag: string instructions count down when it is set. -/
  df : Bool
  memory : Memory

inductive Instruction (Label : Type)
  /-- `testl %left, %right` -/
  | test (left right : Register)
  /-- `testl $value, %register` -/
  | testImmediate (value : Word) (register : Register)
  /-- `cmp %left, %right`: the flags of `right - left` -/
  | cmp (left right : Register)
  /-- `addl $value, %register` -/
  | add (value : Word) (register : Register)
  /-- `subl $value, %register` -/
  | sub (value : Word) (register : Register)
  /-- `andl $value, %register` -/
  | and (value : Word) (register : Register)
  /-- `shrl $count, %register`, for a count from 1 to 31 -/
  | shr (count : Nat) (register : Register)
  /-- `movl %source, %target` -/
  | mov (source target : Register)
  /-- `leal displacement(%base, %index), %target` -/
  | lea (displacement : Word) (base index target : Register)
  /-- `movb (%address), %target`, into the low byte -/
  | loadByte (address target : Register)
  /-- `movb %source, (%address)`, of the low byte -/
  | storeByte (source address : Register)
  /-- `movw %ds, %target`, into the low half -/
  | loadDs (target : Register)
  /-- `movw %source, %es` -/
  | storeEs (source : Register)
  | cld
  | std
  | repMovsb
  | repMovsl
  | repStosl
  /-- Jump if the zero flag is set. -/
  | jz (label : Label)
  /-- Jump if the carry flag is clear. -/
  | jae (label : Label)
  | jmp (label : Label)

namespace Machine

def get (machine : Machine) : Register → Word
  | .eax => machine.eax
  | .ecx => machine.ecx
  | .edx => machine.edx
  | .esi => machine.esi
  | .edi => machine.edi

def set (machine : Machine) (value : Word) : Register → Machine
  | .eax => { machine with eax := value }
  | .ecx => { machine with ecx := value }
  | .edx => { machine with edx := value }
  | .esi => { machine with esi := value }
  | .edi => { machine with edi := value }

/-- The flags of a result. -/
def flags (machine : Machine) (result : Word) (carry : Bool) : Machine :=
  { machine with zf := result == 0, cf := carry }

/-- How far a string instruction moves its pointers. -/
def stride (machine : Machine) (width : Word) : Word := if machine.df then -width else width

/-- One round of `rep movs`. -/
def movs (width : Nat) (machine : Machine) : Machine :=
  { machine with
    memory := copyRange machine.esi machine.edi width machine.memory
    esi := machine.esi + machine.stride (BitVec.ofNat 32 width)
    edi := machine.edi + machine.stride (BitVec.ofNat 32 width)
    ecx := machine.ecx - 1 }

/-- The bytes of a word from `address` on, the low byte first. -/
def storeWord (address value : Word) (memory : Memory) : Memory := fun index =>
  if (index - address).toNat < 4 then
    (value >>> (8 * (index - address).toNat)).setWidth 8
  else memory index

/-- One round of `rep stosl`. -/
def stosl (machine : Machine) : Machine :=
  { machine with
    memory := storeWord machine.edi machine.eax machine.memory
    edi := machine.edi + machine.stride 4
    ecx := machine.ecx - 1 }

/-! ### Repeated string instructions -/

/-- With the direction flag clear, the rounds of `rep movs` copy one range. -/
theorem movs_iterate_rising {machine : Machine} {width count : Nat} (rising : machine.df = false)
    (fits : width * count ≤ 2 ^ 32)
    (safe : RisingSafe machine.esi machine.edi (width * count)) :
    (movs width)^[count] machine =
      { machine with
        memory := copyRange machine.esi machine.edi (width * count) machine.memory
        esi := machine.esi + BitVec.ofNat 32 (width * count)
        edi := machine.edi + BitVec.ofNat 32 (width * count)
        ecx := machine.ecx - BitVec.ofNat 32 count } := by
  induction count with
  | zero => simp
  | succ count inductionHypothesis =>
      rw [Nat.mul_succ] at fits safe ⊢
      rw [Function.iterate_succ_apply',
        inductionHypothesis (by omega) (safe.mono (by omega)), movs]
      simp only [stride, rising, Bool.false_eq_true, if_false, copyRange_add fits safe,
        ofNat_add_ofNat]
      congr 1
      rw [BitVec.sub_sub, BitVec.ofNat_add]
      rfl

/-- With the direction flag set, the rounds of `rep movsb` copy the range that
ends at its pointers from its end on. -/
theorem movsb_iterate_falling {machine : Machine} {source destination : Word} {count : Nat}
    (falling : machine.df = true) (fits : count ≤ 2 ^ 32)
    (safe : FallingSafe source destination count)
    (atSource : machine.esi = source + BitVec.ofNat 32 count - 1)
    (atDestination : machine.edi = destination + BitVec.ofNat 32 count - 1)
    {rounds left : Nat} (total : left + rounds = count) :
    ((movs 1)^[rounds] machine).memory =
        copyRange (source + BitVec.ofNat 32 left) (destination + BitVec.ofNat 32 left) rounds
          machine.memory ∧
      ((movs 1)^[rounds] machine).esi = source + BitVec.ofNat 32 left - 1 ∧
      ((movs 1)^[rounds] machine).edi = destination + BitVec.ofNat 32 left - 1 ∧
      ((movs 1)^[rounds] machine).df = true := by
  induction rounds generalizing left with
  | zero =>
      rw [Nat.add_zero] at total
      subst left
      simp [atSource, atDestination, falling]
  | succ rounds inductionHypothesis =>
      have total' : left + 1 + rounds = count := by omega
      obtain ⟨memory, esi, edi, df⟩ := inductionHypothesis total'
      rw [add_ofNat_succ_sub_one] at esi edi
      rw [add_ofNat_succ, add_ofNat_succ] at memory
      have suffix : FallingSafe (source + BitVec.ofNat 32 left)
          (destination + BitVec.ofNat 32 left) (rounds + 1) :=
        FallingSafe.drop (by rw [total]; exact safe)
      rw [Function.iterate_succ_apply', movs]
      refine ⟨?_, ?_, ?_, df⟩
      · rw [esi, edi, memory]
        exact copyRange_front (by omega) suffix machine.memory
      · simp only [stride, esi, df, if_true]
        exact (BitVec.sub_eq_add_neg _ _).symm
      · simp only [stride, edi, df, if_true]
        exact (BitVec.sub_eq_add_neg _ _).symm

/-- Each byte of the word is `byte`. -/
def Repeats (word : Word) (byte : Byte) : Prop :=
  ∀ index < 4, (word >>> (8 * index)).setWidth 8 = byte

theorem storeWord_eq_fillRange {word : Word} {byte : Byte} (repeats : Repeats word byte)
    (address : Word) (memory : Memory) :
    storeWord address word memory = fillRange address 4 byte memory := by
  funext index
  by_cases inside : (index - address).toNat < 4
  · rw [storeWord, fillRange, if_pos inside, if_pos inside, repeats _ inside]
  · rw [storeWord, fillRange, if_neg inside, if_neg inside]

/-- With the direction flag clear, the rounds of `rep stosl` fill one range. -/
theorem stosl_iterate {machine : Machine} {byte : Byte} {count : Nat}
    (rising : machine.df = false) (fits : 4 * count ≤ 2 ^ 32)
    (repeats : Repeats machine.eax byte) :
    stosl^[count] machine =
      { machine with
        memory := fillRange machine.edi (4 * count) byte machine.memory
        edi := machine.edi + BitVec.ofNat 32 (4 * count)
        ecx := machine.ecx - BitVec.ofNat 32 count } := by
  induction count with
  | zero => simp
  | succ count inductionHypothesis =>
      rw [Nat.mul_succ] at fits ⊢
      rw [Function.iterate_succ_apply', inductionHypothesis (by omega), stosl]
      simp only [stride, rising, Bool.false_eq_true, if_false, storeWord_eq_fillRange repeats,
        fillRange_add fits]
      congr 1
      · rw [BitVec.sub_sub, BitVec.ofNat_add]
        rfl
      · exact ofNat_add_ofNat _ _ 4

end Machine

namespace Instruction

variable {Label : Type}

/-- What an instruction does to the machine. -/
def execute (machine : Machine) : Instruction Label → Machine
  | .test left right => machine.flags (machine.get left &&& machine.get right) false
  | .testImmediate value register => machine.flags (value &&& machine.get register) false
  | .cmp left right =>
      machine.flags (machine.get right - machine.get left)
        (machine.get right < machine.get left)
  | .add value register =>
      let result := machine.get register + value
      (machine.set result register).flags result (result < value)
  | .sub value register =>
      let result := machine.get register - value
      (machine.set result register).flags result (machine.get register < value)
  | .and value register =>
      let result := machine.get register &&& value
      (machine.set result register).flags result false
  | .shr count register =>
      let result := machine.get register >>> count
      (machine.set result register).flags result ((machine.get register).getLsbD (count - 1))
  | .mov source target => machine.set (machine.get source) target
  | .lea displacement base index target =>
      machine.set (machine.get base + machine.get index + displacement) target
  | .loadByte address target =>
      machine.set ((machine.get target).extractLsb' 8 24 ++ machine.memory (machine.get address) :
        BitVec (24 + 8)) target
  | .storeByte source address =>
      { machine with
        memory := Function.update machine.memory (machine.get address)
          ((machine.get source).setWidth 8) }
  | .loadDs target =>
      machine.set ((machine.get target).extractLsb' 16 16 ++ machine.ds : BitVec (16 + 16)) target
  | .storeEs source => { machine with es := (machine.get source).setWidth 16 }
  | .cld => { machine with df := false }
  | .std => { machine with df := true }
  | .repMovsb => (Machine.movs 1)^[machine.ecx.toNat] machine
  | .repMovsl => (Machine.movs 4)^[machine.ecx.toNat] machine
  | .repStosl => Machine.stosl^[machine.ecx.toNat] machine
  | .jz _ | .jae _ | .jmp _ => machine

/-- The text behind an instruction that stands in front of `rest`. -/
def follow (code : Label → List (Instruction Label)) (machine : Machine)
    (rest : List (Instruction Label)) : Instruction Label → List (Instruction Label)
  | .jz label => if machine.zf then code label else rest
  | .jae label => if machine.cf then rest else code label
  | .jmp label => code label
  | _ => rest

def isJump : Instruction Label → Bool
  | .jz _ | .jae _ | .jmp _ => true
  | _ => false

end Instruction

section

variable {Label : Type} (code : Label → List (Instruction Label))

/-- Run to the end of the text. -/
def run : Nat → List (Instruction Label) → Machine → Option Machine
  | 0, _, _ => none
  | _ + 1, [], machine => some machine
  | rounds + 1, instruction :: rest, machine =>
      run rounds (instruction.follow code machine rest) (instruction.execute machine)

/-- The run from a text ends in a machine with the postcondition. -/
def Ends (text : List (Instruction Label)) (machine : Machine) (post : Machine → Prop) : Prop :=
  ∃ final, EndsWith (fun rounds => run code rounds text machine) final ∧ post final

variable {code} {machine : Machine} {post : Machine → Prop}

theorem Ends.nil (holds : post machine) : Ends code [] machine post := by
  have ended : EndsWith (fun _ => some machine) machine := .pure machine
  exact ⟨machine, EndsWith.round (fun _ => rfl) ended, holds⟩

/-- One instruction. -/
theorem Ends.cons {instruction : Instruction Label} {rest : List (Instruction Label)}
    (ends : Ends code (instruction.follow code machine rest) (instruction.execute machine) post) :
    Ends code (instruction :: rest) machine post := by
  obtain ⟨final, ended, holds⟩ := ends
  exact ⟨final, EndsWith.round (fun _ => rfl) ended, holds⟩

theorem Ends.mono {other : Machine → Prop} {text : List (Instruction Label)}
    (ends : Ends code text machine post) (weaker : ∀ final, post final → other final) :
    Ends code text machine other := by
  obtain ⟨final, ended, holds⟩ := ends
  exact ⟨final, ended, weaker final holds⟩

/-- A block without jumps. -/
theorem Ends.block {block rest : List (Instruction Label)}
    (straight : ∀ instruction ∈ block, instruction.isJump = false)
    (ends : Ends code rest (block.foldl Instruction.execute machine) post) :
    Ends code (block ++ rest) machine post := by
  induction block generalizing machine with
  | nil => exact ends
  | cons instruction block inductionHypothesis =>
      have falls : instruction.follow code machine (block ++ rest) = block ++ rest := by
        have notJump := straight instruction (by simp)
        cases instruction <;> first | rfl | cases notJump
      rw [List.cons_append]
      apply Ends.cons
      rw [falls]
      exact inductionHypothesis (fun other member => straight other (by simp [member])) ends

/-- A jump taken on zero. -/
theorem Ends.jz {label : Label} {rest : List (Instruction Label)}
    (taken : machine.zf = true → Ends code (code label) machine post)
    (falls : machine.zf = false → Ends code rest machine post) :
    Ends code (.jz label :: rest) machine post := by
  apply Ends.cons
  cases zero : machine.zf with
  | true => simpa [Instruction.follow, Instruction.execute, zero] using taken zero
  | false => simpa [Instruction.follow, Instruction.execute, zero] using falls zero

/-- A jump taken on no carry. -/
theorem Ends.jae {label : Label} {rest : List (Instruction Label)}
    (taken : machine.cf = false → Ends code (code label) machine post)
    (falls : machine.cf = true → Ends code rest machine post) :
    Ends code (.jae label :: rest) machine post := by
  apply Ends.cons
  cases carry : machine.cf with
  | true => simpa [Instruction.follow, Instruction.execute, carry] using falls carry
  | false => simpa [Instruction.follow, Instruction.execute, carry] using taken carry

theorem Ends.jmp {label : Label} {rest : List (Instruction Label)}
    (ends : Ends code (code label) machine post) : Ends code (.jmp label :: rest) machine post :=
  Ends.cons ends

/-- A test of a register against itself and the jump taken when it is zero. -/
theorem Ends.testJz {register : Register} {label : Label} {rest : List (Instruction Label)}
    (taken : machine.get register = 0 →
      Ends code (code label) (machine.flags (machine.get register) false) post)
    (falls : machine.get register ≠ 0 →
      Ends code rest (machine.flags (machine.get register) false) post) :
    Ends code (.test register register :: .jz label :: rest) machine post := by
  apply Ends.cons
  rw [Instruction.execute, BitVec.and_self]
  exact Ends.jz (fun zero => taken (eq_of_beq zero)) fun nonzero => falls (ne_of_beq_false nonzero)

/-- A loop that ends when its counter is zero: `round` runs the body from a
counter that is not zero, given the rounds that follow. -/
theorem Ends.countdown {counter : Register} {done : Label} {body : List (Instruction Label)}
    (pre : Nat → Machine → Prop) (goal : Nat → Machine → Machine → Prop)
    (stop : ∀ machine : Machine,
      Ends code (code done) (machine.flags (machine.get counter) false) (goal 0 machine))
    (round : ∀ (count : Nat) (machine : Machine),
      machine.get counter = BitVec.ofNat 32 (count + 1) → count + 1 < 2 ^ 32 →
      pre (count + 1) machine →
      (∀ next : Machine, next.get counter = BitVec.ofNat 32 count → pre count next →
        Ends code (.test counter counter :: .jz done :: body) next (goal count next)) →
      Ends code body (machine.flags (machine.get counter) false) (goal (count + 1) machine))
    {count : Nat} (counted : machine.get counter = BitVec.ofNat 32 count)
    (small : count < 2 ^ 32) (holds : pre count machine) :
    Ends code (.test counter counter :: .jz done :: body) machine (goal count machine) := by
  induction count generalizing machine with
  | zero =>
      apply Ends.testJz
      · intro zero
        exact stop machine
      · intro nonzero
        exact absurd counted nonzero
  | succ count inductionHypothesis =>
      apply Ends.testJz
      · intro zero
        exact absurd ((ofNat_eq_zero_iff small).mp (counted.symm.trans zero)) (by omega)
      · intro nonzero
        exact round count machine counted small holds fun next countedNext holdsNext =>
          inductionHypothesis countedNext (by omega) holdsNext

/-- A test of some bits of a register and the jump taken when they are zero. -/
theorem Ends.testImmediateJz {value : Word} {register : Register} {label : Label}
    {rest : List (Instruction Label)}
    (taken : value &&& machine.get register = 0 →
      Ends code (code label) (machine.flags (value &&& machine.get register) false) post)
    (falls : value &&& machine.get register ≠ 0 →
      Ends code rest (machine.flags (value &&& machine.get register) false) post) :
    Ends code (.testImmediate value register :: .jz label :: rest) machine post := by
  apply Ends.cons
  exact Ends.jz (fun zero => taken (eq_of_beq zero)) fun nonzero => falls (ne_of_beq_false nonzero)

/-- The low byte of a register that a byte was loaded into. -/
theorem setWidth_loadByte (word : Word) (byte : Byte) :
    (word.extractLsb' 8 24 ++ byte : BitVec (24 + 8)).setWidth 8 = byte := by
  ext i inside
  rw [BitVec.getElem_setWidth, BitVec.getLsbD_append]
  simp [inside]

end

end MonolithicKernel.Foundation.X86
