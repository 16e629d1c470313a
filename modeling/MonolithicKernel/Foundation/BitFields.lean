import MonolithicKernel.Foundation.WordRanges

/-!
Owns the fields of a packed word: a run of bits inside a word of any width, given
by its position or as a member of a packed structure, what reading it gives, what
assigning it changes, and the laws by which a chain of assignments is read back.
Assigning a field leaves every field that does not overlap it alone.

Does not own any particular layout.
-/

namespace MonolithicKernel.Foundation

/-- `width` bits of a word, from bit `low` on. -/
structure Field (size : Nat) where
  low : Nat
  width : Nat
  fits : low + width ≤ size

namespace Field

variable {size : Nat} {field other : Field size} {word : BitVec size}

def get (field : Field size) (word : BitVec size) : BitVec field.width :=
  word.extractLsb' field.low field.width

/-- The bits of the field are cleared, and those of the value are put there. -/
def set (field : Field size) (value : BitVec field.width) (word : BitVec size) : BitVec size :=
  word &&& ~~~((BitVec.allOnes field.width).setWidth size <<< field.low) |||
    value.setWidth size <<< field.low

/-- Assign a number, which is cut to the width of the field. -/
def assign (field : Field size) (value : Nat) (word : BitVec size) : BitVec size :=
  field.set (BitVec.ofNat field.width value) word

/-- The two fields have no bit in common. -/
def Apart (field other : Field size) : Prop :=
  field.low + field.width ≤ other.low ∨ other.low + other.width ≤ field.low

instance decidableApart (field other : Field size) : Decidable (field.Apart other) :=
  inferInstanceAs (Decidable (_ ∨ _))

/-- A member of a packed structure whose members have these widths, the first at bit 0. -/
def member (widths : List Nat) (index : Nat) (packed : widths.sum ≤ size) : Field size where
  low := (widths.take index).sum
  width := widths.getD index 0
  fits := by
    have upTo : (widths.take index).sum + widths.getD index 0 = (widths.take (index + 1)).sum := by
      rw [List.take_add_one, List.sum_append, List.getD_eq_getElem?_getD]
      cases widths[index]? <;> rfl
    have whole : (widths.take (index + 1)).sum + (widths.drop (index + 1)).sum = widths.sum := by
      rw [← List.sum_append, List.take_append_drop]
    omega

/-! ### Bits -/

theorem getLsbD_get {bit : Nat} :
    (field.get word).getLsbD bit = (decide (bit < field.width) && word.getLsbD (field.low + bit)) :=
  BitVec.getLsbD_extractLsb' ..

/-- The bits after an assignment: those of the value inside the field, and the
old ones outside. -/
theorem getLsbD_set (value : BitVec field.width) (word : BitVec size) (bit : Nat) :
    (field.set value word).getLsbD bit =
      if field.low ≤ bit ∧ bit < field.low + field.width then value.getLsbD (bit - field.low)
      else word.getLsbD bit := by
  have fits := field.fits
  unfold set
  rw [BitVec.getLsbD_or, BitVec.getLsbD_and, BitVec.getLsbD_not, BitVec.getLsbD_shiftLeft,
    BitVec.getLsbD_shiftLeft, BitVec.getLsbD_setWidth, BitVec.getLsbD_setWidth,
    BitVec.getLsbD_allOnes]
  by_cases inside : field.low ≤ bit ∧ bit < field.low + field.width
  · rw [if_pos inside]
    have inWord : bit < size := by omega
    have inField : bit - field.low < field.width := by omega
    have inWord' : bit - field.low < size := by omega
    simp [inWord, inField, inWord', Nat.not_lt.mpr inside.1]
  · rw [if_neg inside]
    by_cases below : bit < field.low
    · by_cases inWord : bit < size
      · simp [below, inWord]
      · simp [inWord, BitVec.getLsbD_of_ge word bit (by omega)]
    · have outside : ¬ bit - field.low < field.width := by omega
      by_cases inWord : bit < size
      · simp [below, inWord, outside, BitVec.getLsbD_of_ge value (bit - field.low) (by omega)]
      · simp [inWord, BitVec.getLsbD_of_ge word bit (by omega)]

/-! ### Reading an assignment back -/

@[simp] theorem get_set (value : BitVec field.width) (word : BitVec size) :
    field.get (field.set value word) = value := by
  apply BitVec.eq_of_getLsbD_eq
  intro bit inField
  rw [getLsbD_get, getLsbD_set, if_pos (by omega), Nat.add_sub_cancel_left]
  simp [inField]

theorem get_set_of_apart (apart : field.Apart other) (value : BitVec other.width)
    (word : BitVec size) : field.get (other.set value word) = field.get word := by
  unfold Apart at apart
  apply BitVec.eq_of_getLsbD_eq
  intro bit inField
  rw [getLsbD_get, getLsbD_get, getLsbD_set, if_neg (by omega)]

@[simp] theorem get_assign (value : Nat) (word : BitVec size) :
    field.get (field.assign value word) = BitVec.ofNat field.width value :=
  get_set _ word

theorem get_assign_of_apart (apart : field.Apart other) (value : Nat) (word : BitVec size) :
    field.get (other.assign value word) = field.get word :=
  get_set_of_apart apart _ word

@[simp] theorem get_zero (field : Field size) : field.get 0 = 0 := by
  apply BitVec.eq_of_getLsbD_eq
  intro bit _
  simp [getLsbD_get]

end Field

end MonolithicKernel.Foundation
