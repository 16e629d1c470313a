import Mathlib

/-!
Owns ranges of a byte memory with 32-bit addresses: copying a range onto
another and filling one, both with addresses that wrap, how copies and fills of
neighbouring ranges compose, and when a copy made piece by piece equals the
copy made at once.

Does not own any instruction.
-/

namespace MonolithicKernel.Foundation.WordRanges

abbrev Word := BitVec 32

abbrev Byte := BitVec 8

abbrev Memory := Word → Byte

/-- The `count` bytes from `source` on, all read before any is written, now
stand from `destination` on. -/
def copyRange (source destination : Word) (count : Nat) (memory : Memory) : Memory := fun address =>
  if (address - destination).toNat < count then memory (source + (address - destination))
  else memory address

/-- The `count` bytes from `destination` on are `byte`. -/
def fillRange (destination : Word) (count : Nat) (byte : Byte) (memory : Memory) : Memory :=
  fun address => if (address - destination).toNat < count then byte else memory address

/-- A copy in rising order reads no byte that it has already overwritten. -/
def RisingSafe (source destination : Word) (count : Nat) : Prop :=
  ∀ i j : Nat, j < i → i < count → source + BitVec.ofNat 32 i ≠ destination + BitVec.ofNat 32 j

/-- A copy in falling order reads no byte that it has already overwritten. -/
def FallingSafe (source destination : Word) (count : Nat) : Prop :=
  ∀ i j : Nat, i < j → j < count → source + BitVec.ofNat 32 i ≠ destination + BitVec.ofNat 32 j

/-! ### Offsets -/

theorem offset_add_lt_iff {address destination : Word} {skipped count : Nat}
    (fits : skipped + count ≤ 2 ^ 32) :
    (address - (destination + BitVec.ofNat 32 skipped)).toNat < count ↔
      skipped ≤ (address - destination).toNat ∧
        (address - destination).toNat < skipped + count := by
  bv_omega

theorem offset_lt_one_iff {address destination : Word} :
    (address - destination).toNat < 1 ↔ address = destination := by
  bv_omega

/-- An address is its offset behind the start of a range. -/
theorem add_offset (address destination : Word) :
    destination + BitVec.ofNat 32 (address - destination).toNat = address := by
  rw [BitVec.ofNat_toNat, BitVec.setWidth_eq, BitVec.add_comm, BitVec.sub_add_cancel]

theorem ofNat_add_ofNat (start : Word) (i j : Nat) :
    start + BitVec.ofNat 32 i + BitVec.ofNat 32 j = start + BitVec.ofNat 32 (i + j) := by
  rw [BitVec.ofNat_add, BitVec.add_assoc]

theorem add_ofNat_succ (start : Word) (i : Nat) :
    start + BitVec.ofNat 32 (i + 1) = start + BitVec.ofNat 32 i + 1 :=
  (ofNat_add_ofNat start i 1).symm

theorem add_ofNat_succ_sub_one (start : Word) (i : Nat) :
    start + BitVec.ofNat 32 (i + 1) - 1 = start + BitVec.ofNat 32 i := by
  rw [add_ofNat_succ, BitVec.add_sub_cancel]

theorem ofNat_eq_zero_iff {i : Nat} (small : i < 2 ^ 32) : BitVec.ofNat 32 i = 0 ↔ i = 0 := by
  bv_omega

theorem toNat_of_eq_ofNat {word : Word} {i : Nat} (same : word = BitVec.ofNat 32 i)
    (small : i < 2 ^ 32) : word.toNat = i := by
  rw [same, BitVec.toNat_ofNat, Nat.mod_eq_of_lt small]

theorem RisingSafe.mono {source destination : Word} {count shorter : Nat}
    (safe : RisingSafe source destination count) (le : shorter ≤ count) :
    RisingSafe source destination shorter :=
  fun i j before inside => safe i j before (by omega)

theorem RisingSafe.drop {source destination : Word} {skipped count : Nat}
    (safe : RisingSafe source destination (skipped + count)) :
    RisingSafe (source + BitVec.ofNat 32 skipped) (destination + BitVec.ofNat 32 skipped) count := by
  intro i j before inside
  rw [ofNat_add_ofNat, ofNat_add_ofNat]
  exact safe _ _ (by omega) (by omega)

theorem RisingSafe.tail {source destination : Word} {count : Nat}
    (safe : RisingSafe source destination (count + 1)) :
    RisingSafe (source + 1) (destination + 1) count := by
  rw [Nat.add_comm] at safe
  exact safe.drop

theorem FallingSafe.drop {source destination : Word} {skipped count : Nat}
    (safe : FallingSafe source destination (skipped + count)) :
    FallingSafe (source + BitVec.ofNat 32 skipped) (destination + BitVec.ofNat 32 skipped)
      count := by
  intro i j before inside
  rw [ofNat_add_ofNat, ofNat_add_ofNat]
  exact safe _ _ (by omega) (by omega)

/-! ### Copies -/

@[simp] theorem copyRange_zero (source destination : Word) (memory : Memory) :
    copyRange source destination 0 memory = memory := by
  funext address
  simp [copyRange]

@[simp] theorem fillRange_zero (destination : Word) (byte : Byte) (memory : Memory) :
    fillRange destination 0 byte memory = memory := by
  funext address
  simp [fillRange]

theorem copyRange_one (source destination : Word) (memory : Memory) :
    copyRange source destination 1 memory =
      Function.update memory destination (memory source) := by
  funext address
  by_cases same : address = destination
  · subst address
    simp [copyRange]
  · rw [Function.update_of_ne same, copyRange, if_neg (mt offset_lt_one_iff.mp same)]

theorem fillRange_one (destination : Word) (byte : Byte) (memory : Memory) :
    fillRange destination 1 byte memory = Function.update memory destination byte := by
  funext address
  by_cases same : address = destination
  · subst address
    simp [fillRange]
  · rw [Function.update_of_ne same, fillRange, if_neg (mt offset_lt_one_iff.mp same)]

/-- The source byte of an address and its offset. -/
theorem source_add_offset (source address destination : Word) :
    source + BitVec.ofNat 32 (address - destination).toNat = source + (address - destination) := by
  rw [BitVec.ofNat_toNat, BitVec.setWidth_eq]

theorem source_skip (source address destination skipped : Word) :
    source + skipped + (address - (destination + skipped)) = source + (address - destination) := by
  bv_omega

/-- The copy of a range and then of the range behind it. -/
theorem copyRange_add {source destination : Word} {first second : Nat}
    (fits : first + second ≤ 2 ^ 32) (safe : RisingSafe source destination (first + second))
    (memory : Memory) :
    copyRange (source + BitVec.ofNat 32 first) (destination + BitVec.ofNat 32 first) second
        (copyRange source destination first memory) =
      copyRange source destination (first + second) memory := by
  funext address
  by_cases late : first ≤ (address - destination).toNat ∧
      (address - destination).toNat < first + second
  · -- A byte of the second range reads a source byte that the first copy left.
    have kept : ¬ (source + (address - destination) - destination).toNat < first := by
      intro overwritten
      apply safe (address - destination).toNat
        (source + (address - destination) - destination).toNat (by omega) late.2
      rw [add_offset, source_add_offset]
    rw [copyRange, if_pos ((offset_add_lt_iff fits).mpr late), source_skip, copyRange,
      if_neg kept, copyRange, if_pos late.2]
  · rw [copyRange, if_neg (mt (offset_add_lt_iff fits).mp late), copyRange, copyRange]
    by_cases early : (address - destination).toNat < first
    · rw [if_pos early, if_pos (by omega)]
    · rw [if_neg early, if_neg (by omega)]

/-- The copy of a byte and then of the range behind it. -/
theorem copyRange_behind {source destination : Word} {count : Nat} (fits : count + 1 ≤ 2 ^ 32)
    (safe : RisingSafe source destination (count + 1)) (memory : Memory) :
    copyRange (source + 1) (destination + 1) count (copyRange source destination 1 memory) =
      copyRange source destination (count + 1) memory := by
  rw [Nat.add_comm] at fits safe ⊢
  exact copyRange_add fits safe memory

/-- The copy of a range and then of the byte in front of it. -/
theorem copyRange_front {source destination : Word} {count : Nat} (fits : count + 1 ≤ 2 ^ 32)
    (safe : FallingSafe source destination (count + 1)) (memory : Memory) :
    copyRange source destination 1
        (copyRange (source + 1) (destination + 1) count memory) =
      copyRange source destination (count + 1) memory := by
  have behind : ∀ address : Word, (address - (destination + 1)).toNat < count ↔
      1 ≤ (address - destination).toNat ∧ (address - destination).toNat < 1 + count :=
    fun address => @offset_add_lt_iff address destination 1 count (by omega)
  funext address
  by_cases front : address = destination
  · -- The first byte reads a source byte that the copy behind it left.
    have kept : ¬ (source - (destination + 1)).toNat < count := by
      intro overwritten
      have bounds := (behind source).mp overwritten
      apply safe 0 (source - destination).toNat (by omega) (by omega)
      rw [add_offset, BitVec.add_zero]
    subst address
    rw [copyRange_one, Function.update_self, copyRange, if_neg kept, copyRange]
    simp
  · have positive : 0 < (address - destination).toNat := by
      have notFirst := mt offset_lt_one_iff.mp front
      omega
    rw [copyRange_one, Function.update_of_ne front, copyRange, copyRange]
    by_cases inside : (address - destination).toNat < 1 + count
    · rw [if_pos ((behind address).mpr ⟨by omega, inside⟩), if_pos (by omega), source_skip]
    · rw [if_neg (fun copied => inside ((behind address).mp copied).2), if_neg (by omega)]

theorem fillRange_add {destination : Word} {first second : Nat} (fits : first + second ≤ 2 ^ 32)
    (byte : Byte) (memory : Memory) :
    fillRange (destination + BitVec.ofNat 32 first) second byte
        (fillRange destination first byte memory) =
      fillRange destination (first + second) byte memory := by
  funext address
  rw [fillRange, fillRange, fillRange]
  by_cases late : (address - (destination + BitVec.ofNat 32 first)).toNat < second
  · rw [if_pos late, if_pos ((offset_add_lt_iff fits).mp late).2]
  · have notLate := mt (offset_add_lt_iff fits).mpr late
    rw [if_neg late]
    by_cases early : (address - destination).toNat < first
    · rw [if_pos early, if_pos (by omega)]
    · rw [if_neg early, if_neg (by omega)]

/-- The fill of a byte and then of the range behind it. -/
theorem fillRange_behind {destination : Word} {count : Nat} (fits : count + 1 ≤ 2 ^ 32)
    (byte : Byte) (memory : Memory) :
    fillRange (destination + 1) count byte (fillRange destination 1 byte memory) =
      fillRange destination (count + 1) byte memory := by
  rw [Nat.add_comm] at fits ⊢
  exact fillRange_add fits byte memory

/-! ### Ranges that do not wrap -/

section

variable {source destination : Word} {count : Nat}

theorem offset_of_lt {index : Nat} (inside : index < count) (fits : count ≤ 2 ^ 32) :
    (destination + BitVec.ofNat 32 index - destination).toNat = index := by
  bv_omega

theorem copyRange_inside (fits : count ≤ 2 ^ 32) (memory : Memory) {index : Nat}
    (inside : index < count) :
    copyRange source destination count memory (destination + BitVec.ofNat 32 index) =
      memory (source + BitVec.ofNat 32 index) := by
  rw [copyRange, offset_of_lt inside fits, if_pos inside, ← source_add_offset,
    offset_of_lt inside fits]

theorem fillRange_inside (fits : count ≤ 2 ^ 32) (byte : Byte) (memory : Memory) {index : Nat}
    (inside : index < count) :
    fillRange destination count byte memory (destination + BitVec.ofNat 32 index) = byte := by
  rw [fillRange, offset_of_lt inside fits, if_pos inside]

/-- Addresses in front of a range and behind it are outside. -/
theorem not_offset_lt {address : Word} (noWrap : destination.toNat + count ≤ 2 ^ 32)
    (outside : address.toNat < destination.toNat ∨ destination.toNat + count ≤ address.toNat) :
    ¬ (address - destination).toNat < count := by
  bv_omega

theorem copyRange_outside {address : Word} (noWrap : destination.toNat + count ≤ 2 ^ 32)
    (outside : address.toNat < destination.toNat ∨ destination.toNat + count ≤ address.toNat)
    (memory : Memory) : copyRange source destination count memory address = memory address := by
  rw [copyRange, if_neg (not_offset_lt noWrap outside)]

theorem fillRange_outside {address : Word} (noWrap : destination.toNat + count ≤ 2 ^ 32)
    (outside : address.toNat < destination.toNat ∨ destination.toNat + count ≤ address.toNat)
    (byte : Byte) (memory : Memory) :
    fillRange destination count byte memory address = memory address := by
  rw [fillRange, if_neg (not_offset_lt noWrap outside)]

/-- Towards lower addresses the rising order is safe. -/
theorem risingSafe_of_le (noWrap : source.toNat + count ≤ 2 ^ 32)
    (le : destination.toNat ≤ source.toNat) : RisingSafe source destination count := by
  intro i j before inside
  bv_omega

/-- Towards higher addresses the falling order is safe. -/
theorem fallingSafe_of_lt (noWrap : destination.toNat + count ≤ 2 ^ 32)
    (lt : source.toNat < destination.toNat) : FallingSafe source destination count := by
  intro i j before inside
  bv_omega

theorem risingSafe_of_disjoint (noWrap : source.toNat + count ≤ 2 ^ 32)
    (disjoint : source.toNat + count ≤ destination.toNat ∨
      destination.toNat + count ≤ source.toNat) : RisingSafe source destination count := by
  intro i j before inside
  bv_omega

end

end MonolithicKernel.Foundation.WordRanges
