import MonolithicKernel.Foundation.BitFields

/-!
Owns the 64-bit descriptors of 32-bit x86 as the processor takes them apart: the
base, limit and rights of segments, gates, which gate an interrupt may go through,
and what it does to the privilege level, the stack and the interrupt flag.

Does not own any particular table.
-/

namespace MonolithicKernel.Foundation.Descriptors

open WordRanges

abbrev present : Field 64 := ⟨47, 1, by decide⟩
abbrev privilege : Field 64 := ⟨45, 2, by decide⟩
/-- Clear in gates and in descriptors of system segments. -/
abbrev notSystem : Field 64 := ⟨44, 1, by decide⟩

/-- Masking and shifting, as C code takes a part out of a word. -/
theorem ofNat_masked {low width : Nat} {mask : Word}
    (covers : ∀ bit < width, mask.getLsbD (low + bit) = true) (word : Word) :
    BitVec.ofNat width ((word &&& mask) >>> low).toNat = word.extractLsb' low width := by
  apply BitVec.eq_of_getLsbD_eq
  intro bit inField
  rw [BitVec.ofNat_toNat, BitVec.getLsbD_setWidth, BitVec.getLsbD_ushiftRight, BitVec.getLsbD_and,
    covers bit inField, Bool.and_true, BitVec.getLsbD_extractLsb']

/-- The same for the lowest part. -/
theorem ofNat_maskedLow {width : Nat} {mask : Word}
    (covers : ∀ bit < width, mask.getLsbD bit = true) (word : Word) :
    BitVec.ofNat width (word &&& mask).toNat = word.extractLsb' 0 width := by
  have covers' : ∀ bit < width, mask.getLsbD (0 + bit) = true := by simpa using covers
  simpa using ofNat_masked covers' word

/-! ### Segments -/

abbrev limitLow : Field 64 := ⟨0, 16, by decide⟩
abbrev baseLow : Field 64 := ⟨16, 16, by decide⟩
abbrev baseMiddle : Field 64 := ⟨32, 8, by decide⟩
abbrev kind : Field 64 := ⟨40, 4, by decide⟩
abbrev limitHigh : Field 64 := ⟨48, 4, by decide⟩
abbrev granularity : Field 64 := ⟨55, 1, by decide⟩
abbrev baseHigh : Field 64 := ⟨56, 8, by decide⟩

@[ext]
structure Segment where
  base : Word
  /-- The highest offset, in bytes. -/
  limit : Nat
  isSystem : Bool
  kind : BitVec 4
  dpl : BitVec 2
deriving DecidableEq, Repr

/-- The limit counts bytes or pages. -/
def limitBytes (inPages : Bool) (limit : BitVec 20) : Nat :=
  if inPages then limit.toNat * 4096 + 4095 else limit.toNat

def decodeSegment (entry : BitVec 64) : Option Segment :=
  if present.get entry = 1 then
    some
      { base := baseHigh.get entry ++ (baseMiddle.get entry ++ baseLow.get entry)
        limit := limitBytes (granularity.get entry = 1) (limitHigh.get entry ++ limitLow.get entry)
        isSystem := notSystem.get entry = 0
        kind := kind.get entry
        dpl := privilege.get entry }
  else none

namespace Segment

/-- Code that runs at the privilege of its descriptor only. -/
def IsCode (segment : Segment) : Prop :=
  segment.isSystem = false ∧ segment.kind &&& 12 = 8

/-- Data that may be written, with offsets up to the limit. -/
def IsWritable (segment : Segment) : Prop :=
  segment.isSystem = false ∧ segment.kind &&& 14 = 2

/-- Data, or code that runs at the privilege of its descriptor only. -/
def IsGuarded (segment : Segment) : Prop :=
  segment.isSystem = false ∧ segment.kind &&& 12 ≠ 12

instance decidableIsCode (segment : Segment) : Decidable segment.IsCode :=
  inferInstanceAs (Decidable (_ ∧ _))

instance decidableIsWritable (segment : Segment) : Decidable segment.IsWritable :=
  inferInstanceAs (Decidable (_ ∧ _))

instance decidableIsGuarded (segment : Segment) : Decidable segment.IsGuarded :=
  inferInstanceAs (Decidable (_ ∧ _))

end Segment

/-! ### Gates -/

abbrev offsetLow : Field 64 := ⟨0, 16, by decide⟩
abbrev selector : Field 64 := ⟨16, 16, by decide⟩
/-- Interrupts stay enabled behind the gate. -/
abbrev trap : Field 64 := ⟨40, 1, by decide⟩
abbrev gate : Field 64 := ⟨41, 2, by decide⟩
/-- A gate to 32-bit code. -/
abbrev wide : Field 64 := ⟨43, 1, by decide⟩
abbrev offsetHigh : Field 64 := ⟨48, 16, by decide⟩

inductive GateKind
  | interrupt
  | trap
deriving DecidableEq, Repr

@[ext]
structure Gate where
  offset : Word
  selector : BitVec 16
  kind : GateKind
  dpl : BitVec 2
deriving DecidableEq, Repr

def decodeGate (entry : BitVec 64) : Option Gate :=
  if present.get entry = 1 ∧ notSystem.get entry = 0 ∧ wide.get entry = 1 ∧ gate.get entry = 3 then
    some
      { offset := offsetHigh.get entry ++ offsetLow.get entry
        selector := selector.get entry
        kind := if trap.get entry = 1 then .trap else .interrupt
        dpl := privilege.get entry }
  else none

/-! ### Interrupts -/

/-- The tables that the processor looks into, and the stack for privilege level 0
in its task state segment. -/
structure Tables where
  gdt : List (BitVec 64)
  idt : BitVec 8 → BitVec 64
  ss0 : BitVec 16
  esp0 : Word

/-- The descriptor that a selector names; nothing is in a local table here. -/
def Tables.segment (tables : Tables) (selector : BitVec 16) : Option Segment :=
  if selector >>> 3 = 0 ∨ selector.getLsbD 2 = true then none
  else tables.gdt[(selector >>> 3).toNat]? >>= decodeSegment

/-- What a return to a privilege level leaves in a register of a data segment: a segment
with more privilege is not left to it. -/
def Tables.lowered (tables : Tables) (level : BitVec 2) (selector : BitVec 16) : BitVec 16 :=
  match tables.segment selector with
  | none => 0
  | some segment => if segment.IsGuarded ∧ segment.dpl < level then 0 else selector

inductive Cause
  /-- An `int` instruction of the running program. -/
  | software
  /-- A device, or an exception. -/
  | hardware
deriving DecidableEq, Repr

/-- Where an interrupt goes. -/
structure Entry where
  cs : BitVec 16
  eip : Word
  cpl : BitVec 2
  /-- The new stack, if the privilege level changes. -/
  stack : Option (BitVec 16 × Word)
  disables : Bool
deriving DecidableEq, Repr

/-- The stack that the processor switches to when the privilege level changes. -/
def Tables.switchStack (tables : Tables) (cpl target : BitVec 2) :
    Option (Option (BitVec 16 × Word)) :=
  if target = cpl then some none
  else (tables.segment tables.ss0).bind fun stack =>
    if stack.IsWritable ∧ stack.dpl = target ∧ tables.ss0.setWidth 2 = target then
      some (some (tables.ss0, tables.esp0))
    else none

/-- Entering the handler of a vector from a privilege level; `none` is a fault. -/
def Tables.enter (tables : Tables) (cause : Cause) (cpl : BitVec 2) (vector : BitVec 8) :
    Option Entry :=
  (decodeGate (tables.idt vector)).bind fun gate =>
    if cause = .software ∧ gate.dpl < cpl then none
    else (tables.segment gate.selector).bind fun code =>
      if code.IsCode ∧ code.dpl ≤ cpl ∧ gate.offset.toNat ≤ code.limit then
        (tables.switchStack cpl code.dpl).map fun stack =>
          { cs := gate.selector &&& 0xFFFC ||| code.dpl.setWidth 16
            eip := code.base + gate.offset
            cpl := code.dpl
            stack := stack
            disables := gate.kind = .interrupt }
      else none

end MonolithicKernel.Foundation.Descriptors
