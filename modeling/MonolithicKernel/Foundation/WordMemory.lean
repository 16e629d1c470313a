import MonolithicKernel.Foundation.X86

/-!
Owns 32-bit words in a byte memory: loading the word at an address, the low byte
first, and what a load sees of a store of a word or of a byte. Two words are
apart when they share no byte, addresses wrapping.

Does not own what the words mean.
-/

namespace MonolithicKernel.Foundation.X86

open WordRanges
open Machine (storeWord)

/-- The word whose low byte is at `address`. -/
def loadWord (memory : Memory) (address : Word) : Word :=
  memory (address + 3) ++ memory (address + 2) ++ memory (address + 1) ++ memory address

/-- The words at the two addresses share no byte. -/
def WordsApart (address other : Word) : Prop :=
  4 ≤ (address - other).toNat ∧ 4 ≤ (other - address).toNat

/-- Words at different multiples of four are apart. -/
theorem wordsApart_of_aligned {address other : Word} (aligned : address.toNat % 4 = 0)
    (aligned' : other.toNat % 4 = 0) (ne : address ≠ other) : WordsApart address other := by
  unfold WordsApart
  bv_omega

theorem loadWord_congr {memory memory' : Memory} {address : Word}
    (same : ∀ index < 4, memory (address + BitVec.ofNat 32 index) =
      memory' (address + BitVec.ofNat 32 index)) :
    loadWord memory address = loadWord memory' address := by
  have first := same 0 (by decide)
  rw [BitVec.add_zero] at first
  have second : memory (address + 1) = memory' (address + 1) := same 1 (by decide)
  have third : memory (address + 2) = memory' (address + 2) := same 2 (by decide)
  have fourth : memory (address + 3) = memory' (address + 3) := same 3 (by decide)
  rw [loadWord, loadWord, first, second, third, fourth]

/-- A word in four bytes is the word again. -/
theorem append_bytes (value : Word) :
    (value >>> 24).setWidth 8 ++ (value >>> 16).setWidth 8 ++ (value >>> 8).setWidth 8 ++
      value.setWidth 8 = value := by
  apply BitVec.eq_of_getLsbD_eq
  intro bit inWord
  simp only [BitVec.getLsbD_append, BitVec.getLsbD_setWidth, BitVec.getLsbD_ushiftRight]
  by_cases first : bit < 8
  · simp [first]
  · by_cases second : bit - 8 < 8
    · simp [first, second, show 8 + (bit - 8) = bit by omega]
    · by_cases third : bit - 8 - 8 < 8
      · simp [first, second, third, show 16 + (bit - 8 - 8) = bit by omega]
      · simp [first, second, third, show 24 + (bit - 8 - 8 - 8) = bit by omega,
          show bit - 8 - 8 - 8 < 8 by omega]

@[simp] theorem loadWord_storeWord (address value : Word) (memory : Memory) :
    loadWord (storeWord address value memory) address = value := by
  have byte (index : Word) (inside : index.toNat < 4) :
      storeWord address value memory (address + index) =
        (value >>> (8 * index.toNat)).setWidth 8 := by
    have offset : address + index - address = index := by
      rw [BitVec.add_comm, BitVec.add_sub_cancel]
    rw [storeWord, offset, if_pos inside]
  have first : storeWord address value memory address = value.setWidth 8 := by
    simpa using byte 0 (by decide)
  rw [loadWord, byte 3 (by decide), byte 2 (by decide), byte 1 (by decide), first]
  exact append_bytes value

theorem storeWord_of_outside {address index : Word} (outside : 4 ≤ (index - address).toNat)
    (value : Word) (memory : Memory) : storeWord address value memory index = memory index := by
  rw [storeWord, if_neg (by omega)]

theorem loadWord_storeWord_of_apart {address other : Word} (apart : WordsApart address other)
    (value : Word) (memory : Memory) :
    loadWord (storeWord other value memory) address = loadWord memory address := by
  apply loadWord_congr
  intro index inside
  apply storeWord_of_outside
  unfold WordsApart at apart
  bv_omega

/-- A store of a byte behind or before a word leaves the word alone. -/
theorem loadWord_update_of_outside {address target : Word}
    (outside : 4 ≤ (target - address).toNat) (value : Byte) (memory : Memory) :
    loadWord (Function.update memory target value) address = loadWord memory address := by
  apply loadWord_congr
  intro index inside
  apply Function.update_of_ne
  bv_omega

end MonolithicKernel.Foundation.X86
