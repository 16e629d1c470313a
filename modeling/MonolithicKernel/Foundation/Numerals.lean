import Mathlib

/-!
Owns positional numerals: the numeral of a number in a radix, most significant
symbol first, the value that a string of symbols has in a radix, and the laws
between the two. The symbols are any type; the two directions are tied by one
hypothesis, that `value` reads back the symbol of every digit below the radix.

Does not own any particular alphabet or any conversion routine.
-/

namespace MonolithicKernel.Foundation

variable {α : Type*}

/-- The symbols of the digits of `number`, most significant first. Zero has the
one digit 0. -/
def numeral (symbol : Nat → α) (radix number : Nat) : List α :=
  if number = 0 then [symbol 0] else ((Nat.digits radix number).map symbol).reverse

/-- The value of a string of symbols, most significant first. -/
def valueOf (value : α → Nat) (radix : Nat) (symbols : List α) : Nat :=
  symbols.foldl (fun read symbol => read * radix + value symbol) 0

section

variable {symbol : Nat → α} {value : α → Nat} {radix number : Nat}

theorem numeral_of_ne_zero (nonzero : number ≠ 0) :
    numeral symbol radix number = ((Nat.digits radix number).map symbol).reverse := by
  rw [numeral, if_neg nonzero]

/-- Every symbol of a numeral is the symbol of a digit below the radix. -/
theorem exists_digit_of_mem_numeral (large : 1 < radix) {letter : α}
    (member : letter ∈ numeral symbol radix number) :
    ∃ digit, digit < radix ∧ letter = symbol digit := by
  by_cases zero : number = 0
  · rw [numeral, if_pos zero, List.mem_singleton] at member
    exact ⟨0, by omega, member⟩
  · rw [numeral_of_ne_zero zero, List.mem_reverse, List.mem_map] at member
    obtain ⟨digit, isDigit, same⟩ := member
    exact ⟨digit, Nat.digits_lt_base large isDigit, same.symm⟩

theorem numeral_ne_nil : numeral symbol radix number ≠ [] := by
  by_cases zero : number = 0
  · simp [numeral, zero]
  · rw [numeral_of_ne_zero zero]
    simpa using Nat.digits_ne_nil_iff_ne_zero.mpr zero

/-- A number below `radix ^ width` has at most `width` digits. -/
theorem length_numeral_le (large : 1 < radix) {width : Nat} (room : 0 < width)
    (small : number < radix ^ width) : (numeral symbol radix number).length ≤ width := by
  by_cases zero : number = 0
  · simp only [numeral, if_pos zero, List.length_singleton]
    exact room
  · rw [numeral_of_ne_zero zero, List.length_reverse, List.length_map]
    exact (Nat.digits_length_le_iff large number).mpr small

/-- The first symbol of the numeral of a nonzero number is not that of 0. -/
theorem head?_numeral (large : 1 < radix) (nonzero : number ≠ 0) :
    ∃ digit, 0 < digit ∧ digit < radix ∧
      (numeral symbol radix number).head? = some (symbol digit) := by
  have nonempty : Nat.digits radix number ≠ [] := Nat.digits_ne_nil_iff_ne_zero.mpr nonzero
  refine ⟨(Nat.digits radix number).getLast nonempty,
    Nat.pos_of_ne_zero (Nat.getLast_digit_ne_zero radix nonzero),
    Nat.digits_lt_base large (List.getLast_mem nonempty), ?_⟩
  rw [numeral_of_ne_zero nonzero, List.head?_reverse, List.getLast?_map,
    List.getLast?_eq_some_getLast nonempty, Option.map_some]

/-- Reading symbols most significant first gives the number with those digits. -/
theorem valueOf_reverse (symbols : List α) :
    valueOf value radix symbols.reverse = Nat.ofDigits radix (symbols.map value) := by
  induction symbols with
  | nil => rfl
  | cons first rest inductionHypothesis =>
      rw [valueOf] at inductionHypothesis ⊢
      rw [List.reverse_cons, List.foldl_append, inductionHypothesis, List.map_cons,
        Nat.ofDigits_cons]
      simp [Nat.add_comm, Nat.mul_comm]

/-- Symbols of value 0 in front do not change the value. -/
theorem valueOf_replicate_append {zero : α} (isZero : value zero = 0) (count : Nat)
    (symbols : List α) :
    valueOf value radix (List.replicate count zero ++ symbols) = valueOf value radix symbols := by
  induction count with
  | zero => rfl
  | succ count inductionHypothesis =>
      rw [valueOf] at inductionHypothesis ⊢
      rw [List.replicate_succ, List.cons_append, List.foldl_cons, isZero, Nat.zero_mul]
      exact inductionHypothesis

/-- **Round trip.** The numeral of a number reads back as the number. -/
theorem valueOf_numeral (large : 1 < radix)
    (readsBack : ∀ digit, digit < radix → value (symbol digit) = digit) :
    valueOf value radix (numeral symbol radix number) = number := by
  by_cases zero : number = 0
  · simp [numeral, valueOf, zero, readsBack 0 (by omega)]
  · have digitsBack : ((Nat.digits radix number).map symbol).map value =
        Nat.digits radix number := by
      rw [List.map_map]
      exact (List.map_congr_left fun digit isDigit =>
        readsBack digit (Nat.digits_lt_base large isDigit)).trans (List.map_id _)
    rw [numeral_of_ne_zero zero, valueOf_reverse, digitsBack, Nat.ofDigits_digits]

end

end MonolithicKernel.Foundation
