import MonolithicKernel.Foundation.WordMemory

/-!
Owns stacks of words and half words in a byte memory: what is from the stack pointer
up to the top, how pushing, popping and storing in place change it, and that none of
these touches memory outside the room of the stack. Stacks grow downwards, and
addresses wrap.

Does not own any instruction.
-/

namespace MonolithicKernel.Foundation.ByteStack

open WordRanges X86

inductive Cell
  | word (value : Word)
  | half (value : BitVec 16)
deriving DecidableEq, Repr

namespace Cell

/-- The low byte first. -/
def bytes : Cell → List Byte
  | word value =>
      [value.setWidth 8, (value >>> 8).setWidth 8, (value >>> 16).setWidth 8,
        (value >>> 24).setWidth 8]
  | half value => [value.setWidth 8, (value >>> 8).setWidth 8]

def size : Cell → Nat
  | word _ => 4
  | half _ => 2

@[simp] theorem length_bytes (cell : Cell) : cell.bytes.length = cell.size := by
  cases cell <;> rfl

@[simp] theorem size_word (value : Word) : (word value).size = 4 := rfl

end Cell

/-- The bytes of a stack, from the stack pointer up. -/
def bytes (cells : List Cell) : List Byte := cells.flatMap Cell.bytes

def size (cells : List Cell) : Nat := (cells.map Cell.size).sum

@[simp] theorem size_nil : size [] = 0 := rfl

@[simp] theorem size_cons (cell : Cell) (cells : List Cell) :
    size (cell :: cells) = cell.size + size cells := List.sum_cons

@[simp] theorem size_append (first second : List Cell) :
    size (first ++ second) = size first + size second := by
  rw [size, List.map_append, List.sum_append]
  rfl

@[simp] theorem length_bytes (cells : List Cell) : (bytes cells).length = size cells := by
  rw [bytes, List.length_flatMap]
  simp [size]

/-- Store bytes from an address on. -/
def storeBytes (address : Word) (bytes : List Byte) (memory : Memory) : Memory := fun index =>
  bytes[(index - address).toNat]?.getD (memory index)

/-- The half word whose low byte is at `address`. -/
def loadHalf (memory : Memory) (address : Word) : BitVec 16 := memory (address + 1) ++ memory address

/-- The memory has the bytes from `address` on. -/
def Holds (memory : Memory) (address : Word) (bytes : List Byte) : Prop :=
  ∀ index byte, bytes[index]? = some byte → memory (address + BitVec.ofNat 32 index) = byte

/-! ### Offsets -/

theorem toNat_offset (address : Word) {index : Nat} (small : index < 2 ^ 32) :
    (address + BitVec.ofNat 32 index - address).toNat = index := by
  rw [BitVec.add_comm, BitVec.add_sub_cancel, BitVec.toNat_ofNat, Nat.mod_eq_of_lt small]

theorem sub_ofNat_sub_ofNat (top : Word) (first second : Nat) :
    top - BitVec.ofNat 32 first - BitVec.ofNat 32 second = top - BitVec.ofNat 32 (first + second) := by
  rw [BitVec.sub_sub, ← BitVec.ofNat_add]

theorem sub_ofNat_add_ofNat (top : Word) (first second : Nat) :
    top - BitVec.ofNat 32 (first + second) + BitVec.ofNat 32 first = top - BitVec.ofNat 32 second := by
  rw [Nat.add_comm, ← sub_ofNat_sub_ofNat, BitVec.sub_add_cancel]

/-! ### Stores -/

variable {memory memory' : Memory} {address : Word} {first second : List Byte}

theorem holds_append :
    Holds memory address (first ++ second) ↔ Holds memory address first ∧
      Holds memory (address + BitVec.ofNat 32 first.length) second := by
  constructor
  · intro holds
    constructor
    · intro index byte here
      apply holds index byte
      rw [List.getElem?_append_left (List.getElem?_eq_some_iff.mp here).1]
      exact here
    · intro index byte here
      rw [ofNat_add_ofNat]
      apply holds
      rw [List.getElem?_append_right (Nat.le_add_right ..), Nat.add_sub_cancel_left]
      exact here
  · intro both index byte here
    by_cases low : index < first.length
    · rw [List.getElem?_append_left low] at here
      exact both.1 index byte here
    · rw [List.getElem?_append_right (Nat.not_lt.mp low)] at here
      have behind := both.2 _ byte here
      rwa [ofNat_add_ofNat, Nat.add_sub_cancel' (Nat.not_lt.mp low)] at behind

/-- What was stored is there. -/
theorem holds_storeBytes (small : first.length ≤ 2 ^ 32) :
    Holds (storeBytes address first memory) address first := by
  intro index byte here
  have inside := (List.getElem?_eq_some_iff.mp here).1
  rw [storeBytes, toNat_offset address (inside.trans_le small), here]
  rfl

/-- A store leaves the bytes outside its range alone. -/
theorem storeBytes_of_outside {index : Word} (outside : first.length ≤ (index - address).toNat) :
    storeBytes address first memory index = memory index := by
  rw [storeBytes, List.getElem?_eq_none outside]
  rfl

theorem Holds.congr (holds : Holds memory address first)
    (same : ∀ index < first.length, memory' (address + BitVec.ofNat 32 index) =
      memory (address + BitVec.ofNat 32 index)) : Holds memory' address first := by
  intro index byte here
  rw [same index (List.getElem?_eq_some_iff.mp here).1]
  exact holds index byte here

/-- Bytes behind a store are kept. -/
theorem Holds.storeBytes_behind {skipped : Nat} (below : first.length ≤ skipped)
    (fits : skipped + second.length ≤ 2 ^ 32)
    (holds : Holds memory (address + BitVec.ofNat 32 skipped) second) :
    Holds (storeBytes address first memory) (address + BitVec.ofNat 32 skipped) second := by
  apply holds.congr
  intro index inside
  rw [ofNat_add_ofNat]
  apply storeBytes_of_outside
  rw [toNat_offset address (by omega)]
  omega

/-- Bytes before a store are kept. -/
theorem Holds.storeBytes_before {skipped : Nat} (below : second.length ≤ skipped)
    (fits : skipped + first.length ≤ 2 ^ 32) (holds : Holds memory address second) :
    Holds (storeBytes (address + BitVec.ofNat 32 skipped) first memory) address second := by
  apply holds.congr
  intro index inside
  apply storeBytes_of_outside
  by_contra near
  have behind := ((offset_add_lt_iff fits).mp (Nat.not_le.mp near)).1
  rw [toNat_offset address (by omega)] at behind
  omega

theorem loadWord_of_holds {value : Word} {rest : List Byte}
    (holds : Holds memory address ((Cell.word value).bytes ++ rest)) :
    loadWord memory address = value := by
  have first := holds 0 _ rfl
  have second : memory (address + 1) = _ := holds 1 _ rfl
  have third : memory (address + 2) = _ := holds 2 _ rfl
  have fourth : memory (address + 3) = _ := holds 3 _ rfl
  rw [BitVec.add_zero] at first
  rw [loadWord, fourth, third, second, first]
  exact append_bytes value

theorem loadHalf_of_holds {value : BitVec 16} {rest : List Byte}
    (holds : Holds memory address ((Cell.half value).bytes ++ rest)) :
    loadHalf memory address = value := by
  have first := holds 0 _ rfl
  have second : memory (address + 1) = _ := holds 1 _ rfl
  rw [BitVec.add_zero] at first
  rw [loadHalf, second, first]
  apply BitVec.eq_of_getLsbD_eq
  intro bit inHalf
  rw [BitVec.getLsbD_append, BitVec.getLsbD_setWidth, BitVec.getLsbD_setWidth,
    BitVec.getLsbD_ushiftRight]
  by_cases low : bit < 8
  · simp [low]
  · simp [low, show 8 + (bit - 8) = bit by omega, show bit - 8 < 8 by omega]

/-! ### Stacks -/

/-- The address is outside the `room` bytes below `top`. -/
def Beyond (top : Word) (room : Nat) (address : Word) : Prop :=
  room ≤ (address - (top - BitVec.ofNat 32 room)).toNat

/-- A store inside the room of a stack leaves the rest alone. -/
theorem storeBytes_of_beyond {top : Word} {room used : Nat} {index : Word} (small : room < 2 ^ 32)
    (inRoom : used ≤ room) (fits : first.length ≤ used) (beyond : Beyond top room index) :
    storeBytes (top - BitVec.ofNat 32 used) first memory index = memory index := by
  apply storeBytes_of_outside
  obtain ⟨spare, rfl⟩ := Nat.exists_eq_add_of_le' inRoom
  rw [← sub_ofNat_add_ofNat top spare used]
  have beyond' : spare + used ≤ (index - (top - BitVec.ofNat 32 (spare + used))).toNat := beyond
  by_contra near
  have inside := (Nat.not_le.mp near).trans_le fits
  have before := ((offset_add_lt_iff (by omega)).mp inside).2
  omega

/-- The stack from `esp` up to `top` has the cells, and the memory beyond the room of
the stack is as in `outside`. -/
structure Stacked (top : Word) (room : Nat) (outside : Memory) (cells : List Cell) (esp : Word)
    (memory : Memory) : Prop where
  esp_eq : esp = top - BitVec.ofNat 32 (size cells)
  fits : size cells ≤ room
  holds : Holds memory esp (bytes cells)
  frame : ∀ address, Beyond top room address → memory address = outside address

namespace Stacked

variable {top esp : Word} {room : Nat} {outside : Memory} {cells before after : List Cell}
  {cell : Cell}

theorem empty (top : Word) (room : Nat) (memory : Memory) :
    Stacked top room memory [] top memory where
  esp_eq := (BitVec.sub_zero top).symm
  fits := Nat.zero_le room
  holds := by
    intro index byte here
    simp [bytes] at here
  frame := fun _ _ => rfl

/-- Memory below the stack and beyond its room may change. -/
theorem rebase (stacked : Stacked top room outside cells esp memory)
    (kept : ∀ index < size cells, memory' (esp + BitVec.ofNat 32 index) =
      memory (esp + BitVec.ofNat 32 index)) : Stacked top room memory' cells esp memory' where
  esp_eq := stacked.esp_eq
  fits := stacked.fits
  holds := stacked.holds.congr (by simpa using kept)
  frame := fun _ _ => rfl

theorem push (small : room < 2 ^ 32) (stacked : Stacked top room outside cells esp memory)
    (fits : cell.size + size cells ≤ room) :
    Stacked top room outside (cell :: cells) (esp - BitVec.ofNat 32 cell.size)
      (storeBytes (esp - BitVec.ofNat 32 cell.size) cell.bytes memory) := by
  have esp_eq : esp - BitVec.ofNat 32 cell.size = top - BitVec.ofNat 32 (size (cell :: cells)) := by
    rw [stacked.esp_eq, sub_ofNat_sub_ofNat, size_cons, Nat.add_comm]
  constructor
  · exact esp_eq
  · rw [size_cons]
    exact fits
  · rw [bytes, List.flatMap_cons, ← bytes, holds_append]
    constructor
    · exact holds_storeBytes (by rw [Cell.length_bytes]; omega)
    · apply Holds.storeBytes_behind le_rfl
      · rw [Cell.length_bytes, length_bytes]
        omega
      · rw [Cell.length_bytes, BitVec.sub_add_cancel]
        exact stacked.holds
  · intro address beyond
    rw [esp_eq, storeBytes_of_beyond small (by rw [size_cons]; exact fits) (by simp) beyond,
      stacked.frame address beyond]

theorem tail (stacked : Stacked top room outside (cell :: cells) esp memory) :
    Stacked top room outside cells (esp + BitVec.ofNat 32 cell.size) memory := by
  have esp_eq := stacked.esp_eq
  have fits := stacked.fits
  have holds := stacked.holds
  rw [size_cons] at esp_eq fits
  rw [bytes, List.flatMap_cons, ← bytes, holds_append, Cell.length_bytes] at holds
  constructor
  · rw [esp_eq, sub_ofNat_add_ofNat]
  · omega
  · exact holds.2
  · exact stacked.frame

theorem drop (stacked : Stacked top room outside (before ++ after) esp memory) :
    Stacked top room outside after (esp + BitVec.ofNat 32 (size before)) memory := by
  induction before generalizing esp with
  | nil => simpa using stacked
  | cons cell before inductionHypothesis =>
      have dropped := inductionHypothesis stacked.tail
      rwa [ofNat_add_ofNat, ← size_cons] at dropped

theorem loadWord_top {value : Word}
    (stacked : Stacked top room outside (.word value :: cells) esp memory) :
    loadWord memory esp = value := by
  have holds := stacked.holds
  rw [bytes, List.flatMap_cons] at holds
  exact loadWord_of_holds holds

theorem loadHalf_top {value : BitVec 16}
    (stacked : Stacked top room outside (.half value :: cells) esp memory) :
    loadHalf memory esp = value := by
  have holds := stacked.holds
  rw [bytes, List.flatMap_cons] at holds
  exact loadHalf_of_holds holds

/-- A word in the middle of the stack. -/
theorem loadWord_at {value : Word} (before : List Cell)
    (stacked : Stacked top room outside (before ++ .word value :: after) esp memory) :
    loadWord memory (esp + BitVec.ofNat 32 (size before)) = value :=
  stacked.drop.loadWord_top

/-- A cell is replaced by one of the same size. -/
theorem poke (stacked : Stacked top room outside (before ++ cell :: after) esp memory)
    (cell' : Cell) (small : room < 2 ^ 32) (same : cell'.size = cell.size) :
    Stacked top room outside (before ++ cell' :: after) esp
      (storeBytes (esp + BitVec.ofNat 32 (size before)) cell'.bytes memory) := by
  have sizes : size (before ++ cell' :: after) = size (before ++ cell :: after) := by
    rw [size_append, size_append, size_cons, size_cons, same]
  have fits := stacked.fits
  have holds := stacked.holds
  rw [size_append, size_cons] at fits
  rw [bytes, List.flatMap_append, List.flatMap_cons, ← bytes, ← bytes, holds_append, holds_append,
    length_bytes, Cell.length_bytes] at holds
  constructor
  · rw [sizes]
    exact stacked.esp_eq
  · rw [sizes]
    exact stacked.fits
  · rw [bytes, List.flatMap_append, List.flatMap_cons, ← bytes, ← bytes, holds_append, holds_append,
      length_bytes, Cell.length_bytes, same]
    refine ⟨holds.1.storeBytes_before (by rw [length_bytes]) ?_, holds_storeBytes ?_,
      holds.2.2.storeBytes_behind ?_ ?_⟩
    all_goals simp only [Cell.length_bytes, length_bytes, same]
    all_goals omega
  · intro address beyond
    rw [← stacked.frame address beyond, stacked.esp_eq, size_append, sub_ofNat_add_ofNat]
    apply storeBytes_of_beyond small _ _ beyond
    · rw [size_cons]
      omega
    · rw [Cell.length_bytes, size_cons, same]
      exact Nat.le_add_right ..

end Stacked

end MonolithicKernel.Foundation.ByteStack
