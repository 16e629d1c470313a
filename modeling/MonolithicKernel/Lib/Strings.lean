import Mathlib

/-!
Owns the string routines of `lib.c` on byte lists: `strlen`, `strncmp`,
`strncpy`. A pointer to bytes is the list of the bytes that follow it; reading
past the list reads NUL, so the contents of a NUL-terminated string are such a
list.

Does not own the block copies `memcpy` and `memmove`.
-/

namespace MonolithicKernel.Lib

/-- The bytes that follow a pointer. -/
abbrev Bytes := List UInt8

/-- `strlen`: the number of bytes before the first NUL. -/
def strlen (s : Bytes) : Nat := (s.takeWhile (· ≠ 0)).length

/-- The `int8_t` value of a byte. -/
def int8 (byte : UInt8) : Int := byte.toBitVec.toInt

/-- `strncmp`: stops at the first difference or after a NUL, and compares at
most `n` bytes. -/
def strncmp (s1 s2 : Bytes) : Nat → Int
  | 0 => 0
  | n + 1 =>
      if s1.headD 0 ≠ s2.headD 0 ∨ s1.headD 0 = 0 then int8 (s1.headD 0) - int8 (s2.headD 0)
      else strncmp s1.tail s2.tail n

/-- `strncpy`: the `n` bytes it writes at the destination, the source up to its
NUL followed by NULs. -/
def strncpy (src : Bytes) : Nat → Bytes
  | 0 => []
  | n + 1 =>
      if src.headD 0 = 0 then List.replicate (n + 1) 0
      else src.headD 0 :: strncpy src.tail n

/-- A byte list without NULs, such as the contents of a C string. -/
def NoNul (s : Bytes) : Prop := ∀ byte ∈ s, byte ≠ 0

instance (s : Bytes) : Decidable (NoNul s) := List.decidableBAll (· ≠ 0) s

theorem NoNul.tail {a : UInt8} {rest : Bytes} (noNul : NoNul (a :: rest)) : NoNul rest :=
  fun byte member => noNul byte (List.mem_cons_of_mem a member)

theorem NoNul.takeWhile {s : Bytes} (noNul : NoNul s) : s.takeWhile (· ≠ 0) = s :=
  List.takeWhile_eq_self_iff.mpr fun byte member => by simp [noNul byte member]

/-! ### Length -/

theorem strlen_le (s : Bytes) : strlen s ≤ s.length := (List.takeWhile_prefix _).length_le

theorem strlen_of_noNul {s : Bytes} (noNul : NoNul s) : strlen s = s.length := by
  rw [strlen, noNul.takeWhile]

theorem take_strlen (s : Bytes) : s.take (strlen s) = s.takeWhile (· ≠ 0) :=
  (List.prefix_iff_eq_take.mp (List.takeWhile_prefix _)).symm

/-- The bytes before the first NUL have no NUL. -/
theorem noNul_take_strlen (s : Bytes) : NoNul (s.take (strlen s)) := by
  intro byte member
  rw [take_strlen] at member
  simpa using List.mem_takeWhile_imp member

/-! ### Comparison -/

theorem int8_injective : Function.Injective int8 := by
  intro a b equal
  exact UInt8.eq_of_toBitVec_eq (BitVec.eq_of_toInt_eq equal)

/-- Two strings compare equal on `n` bytes when the first has no NUL there and
the second starts with the same bytes. -/
theorem strncmp_eq_zero_iff_of_noNul {s1 s2 : Bytes} {n : Nat} (noNul : NoNul (s1.take n))
    (long : n ≤ s1.length) :
    strncmp s1 s2 n = 0 ↔ s1.take n = s2.take n := by
  induction n generalizing s1 s2 with
  | zero => simp [strncmp]
  | succ n inductionHypothesis =>
      cases s1 with
      | nil => simp at long
      | cons a s1 =>
          have aNonNul : a ≠ 0 := noNul a (by simp)
          have tailNoNul : NoNul (s1.take n) := fun byte member => noNul byte (by simp [member])
          have tailLong : n ≤ s1.length := by simpa using long
          cases s2 with
          | nil =>
              have differ : int8 a - int8 0 ≠ 0 := fun zero =>
                aNonNul (int8_injective (Int.sub_eq_zero.mp zero))
              simpa [strncmp, aNonNul] using differ
          | cons b s2 =>
              by_cases same : a = b
              · subst b
                simp [strncmp, aNonNul, inductionHypothesis tailNoNul tailLong]
              · have differ : int8 a - int8 b ≠ 0 := fun zero =>
                  same (int8_injective (Int.sub_eq_zero.mp zero))
                simpa [strncmp, same] using differ

/-- Which string comes first does not matter for equality. -/
theorem strncmp_eq_zero_comm (s1 s2 : Bytes) (n : Nat) :
    strncmp s1 s2 n = 0 ↔ strncmp s2 s1 n = 0 := by
  induction n generalizing s1 s2 with
  | zero => simp [strncmp]
  | succ n inductionHypothesis =>
      unfold strncmp
      by_cases same : s1.headD 0 = s2.headD 0
      · rw [same]
        split
        · simp
        · exact inductionHypothesis _ _
      · rw [if_pos (.inl same), if_pos (.inl (Ne.symm same))]
        omega

/-! ### Copies -/

@[simp] theorem length_strncpy (src : Bytes) (n : Nat) : (strncpy src n).length = n := by
  induction n generalizing src with
  | zero => rfl
  | succ n inductionHypothesis =>
      unfold strncpy
      split
      · simp
      · simp [inductionHypothesis]

/-- A copy of at least the field's size keeps the bytes before the first NUL. -/
theorem takeWhile_strncpy (src : Bytes) (n : Nat) :
    (strncpy src n).takeWhile (· ≠ 0) = (src.takeWhile (· ≠ 0)).take n := by
  induction n generalizing src with
  | zero => simp [strncpy]
  | succ n inductionHypothesis =>
      cases src with
      | nil => simp [strncpy, List.replicate_succ]
      | cons a src =>
          by_cases nul : a = 0
          · simp [strncpy, nul, List.replicate_succ]
          · have tail := inductionHypothesis src
            simp only [ne_eq, decide_not] at tail
            simp [strncpy, nul, tail]

/-- A copy is the source up to its first NUL, clipped and padded. -/
theorem strncpy_eq (src : Bytes) (n : Nat) :
    strncpy src n = (src.takeWhile (· ≠ 0)).take n ++ List.replicate (n - strlen src) 0 := by
  induction n generalizing src with
  | zero => simp [strncpy]
  | succ n inductionHypothesis =>
      cases src with
      | nil => simp [strncpy, strlen]
      | cons a src =>
          by_cases nul : a = 0
          · simp [strncpy, nul, strlen]
          · have tail := inductionHypothesis src
            simp only [ne_eq, decide_not] at tail
            simp [strncpy, nul, tail, strlen]

/-- Two copies are the same when the sources are, as far as the copies reach. -/
theorem strncpy_congr {src src' : Bytes} {n : Nat}
    (same : (src.takeWhile (· ≠ 0)).take n = (src'.takeWhile (· ≠ 0)).take n) :
    strncpy src n = strncpy src' n := by
  have lengths := congrArg List.length same
  rw [List.length_take, List.length_take] at lengths
  rw [strncpy_eq, strncpy_eq, same]
  congr 2
  unfold strlen
  omega

/-- Copying a copy changes nothing. -/
theorem strncpy_strncpy (src : Bytes) (n : Nat) : strncpy (strncpy src n) n = strncpy src n := by
  apply strncpy_congr
  rw [takeWhile_strncpy, List.take_take, min_self]

end MonolithicKernel.Lib
