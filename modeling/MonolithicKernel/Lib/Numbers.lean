import MonolithicKernel.Lib.Printf

/-!
Owns the numbers in the kernel's output: that the string `itoa` leaves is the
numeral of its value, and that what `%u`, `%d` and `%x` print reads back as the
argument.

Does not own the format around a conversion.
-/

namespace MonolithicKernel.Lib

open MonolithicKernel.Foundation

/-- A nonempty string of digits below the radix that stands for `number`, without a
leading zero unless the number is 0. -/
structure IsNumeral (radix number : Nat) (text : Bytes) : Prop where
  nonempty : text ≠ []
  short : text.length ≤ 32
  digits : ∀ byte ∈ text, IsDigit byte ∧ digitValue byte < radix
  leading : number ≠ 0 → text.head? ≠ some 0x30
  value : valueOf digitValue radix text = number

theorem isNumeral_digitsOf {radix : Nat} (large : 1 < radix) (small : radix ≤ 36)
    (value : UInt32) : IsNumeral radix value.toNat (digitsOf radix value.toNat) where
  nonempty := numeral_ne_nil
  short :=
    length_digitsOf_le large (by decide)
      (Nat.lt_of_lt_of_le value.toNat_lt (Nat.pow_le_pow_left large 32))
  digits := fun _ member => isDigit_of_mem_digitsOf large small member
  leading := head?_digitsOf large small
  value := valueOf_digitsOf large small _

/-! ### What `itoa` leaves -/

/-- `itoa` ends and leaves the numeral of the value in `buf`. -/
def LeavesNumeral (value : UInt32) (buf : Nat) (radix : UInt32) (memory : Buffer) : Prop :=
  ∃ final text, EndsWith (fun rounds => itoa rounds value buf radix memory) final ∧
    StandsAt final buf text ∧ IsNumeral radix.toNat value.toNat text

section

variable {radix : UInt32} (large : 2 ≤ radix.toNat) (small : radix.toNat ≤ 36)

include large small

/-- The string that stands in `buf` after `itoa` is the numeral of the value. -/
theorem eq_digitsOf_of_standsAt {value : UInt32} {buf : Nat} {memory final : Buffer}
    {text : Bytes} (ends : EndsWith (fun rounds => itoa rounds value buf radix memory) final)
    (stands : StandsAt final buf text) : text = digitsOf radix.toNat value.toNat := by
  rw [ends.unique (endsWith_itoa large small value buf memory)] at stands
  exact stands.unique (standsAt_storeBytes (noNul_digitsOf large small _) memory buf)

theorem leavesNumeral (value : UInt32) (buf : Nat) (memory : Buffer) :
    LeavesNumeral value buf radix memory :=
  ⟨_, _, endsWith_itoa large small value buf memory,
    standsAt_storeBytes (noNul_digitsOf large small _) memory buf,
    isNumeral_digitsOf large small value⟩

/-- Two values that leave the same string are the same. -/
theorem value_unique {value value' : UInt32} {buf buf' : Nat}
    {memory memory' final final' : Buffer} {text : Bytes}
    (ends : EndsWith (fun rounds => itoa rounds value buf radix memory) final)
    (ends' : EndsWith (fun rounds => itoa rounds value' buf' radix memory') final')
    (stands : StandsAt final buf text) (stands' : StandsAt final' buf' text) :
    value = value' := by
  have same : digitsOf radix.toNat value.toNat = digitsOf radix.toNat value'.toNat :=
    (eq_digitsOf_of_standsAt large small ends stands).symm.trans
      (eq_digitsOf_of_standsAt large small ends' stands')
  have values := congrArg (valueOf digitValue radix.toNat) same
  rw [valueOf_digitsOf large small, valueOf_digitsOf large small] at values
  exact UInt32.toNat_inj.mp values

end

/-! ### What is printed -/

/-- The number that a decimal text with an optional `-` stands for. -/
def signedValue (text : Bytes) : Int :=
  if text.head? = some 0x2D then -(valueOf digitValue 10 text.tail : Int)
  else valueOf digitValue 10 text

theorem signedValue_signedText (value : Int) : signedValue (signedText value) = value := by
  have readsBack : valueOf digitValue 10 (digitsOf 10 value.natAbs) = value.natAbs :=
    valueOf_digitsOf (by decide) (by decide) _
  by_cases negative : value < 0
  · rw [signedText, if_pos negative, signedValue, List.head?_cons, if_pos rfl, List.tail_cons,
      readsBack]
    omega
  · have noSign : (digitsOf 10 value.natAbs).head? ≠ some 0x2D := by
      intro sign
      have digit := isDigit_of_mem_digitsOf (by decide) (by decide) (List.mem_of_head? sign)
      exact absurd digit.1 (by decide)
    rw [signedText, if_neg negative, signedValue, if_neg noSign, readsBack]
    omega

theorem valueOf_paddedHex (number : Nat) : valueOf digitValue 16 (paddedHex number) = number := by
  rw [paddedHex, valueOf_replicate_append (by decide)]
  exact valueOf_digitsOf (by decide) (by decide) _

/-- The conversions of numbers take the argument they stand at and print a text
that reads back as it: the word for `%u` and `%x`, its signed value for `%d`. -/
def PrintsBack (call : PrintfCall) (state : Printing) : Prop :=
  ∀ alternate : Bool,
    (∃ text, EndsWith (fun rounds => call.convert rounds alternate 0x75 state)
        (state.printArgument text) ∧
      valueOf digitValue 10 text = (call.arguments state.esp).toNat) ∧
    (∃ text, EndsWith (fun rounds => call.convert rounds alternate 0x64 state)
        (state.printArgument text) ∧
      signedValue text = int32 (call.arguments state.esp)) ∧
    (∃ text, EndsWith (fun rounds => call.convert rounds alternate 0x78 state)
        (state.printArgument text) ∧
      valueOf digitValue 16 text = (call.arguments state.esp).toNat)

theorem printsBack (call : PrintfCall) (state : Printing) : PrintsBack call state := by
  intro alternate
  refine ⟨⟨_, (endsWith_printUnsigned _ _).map state.printArgument, ?_⟩,
    ⟨_, (endsWith_printSigned _ _).map state.printArgument, signedValue_signedText _⟩, ?_⟩
  · exact valueOf_digitsOf (by decide) (by decide) _
  · cases alternate with
    | false =>
        exact ⟨_, (endsWith_printHex_plain _ _).map state.printArgument,
          valueOf_digitsOf (by decide) (by decide) _⟩
    | true =>
        exact ⟨_, (endsWith_printHex_alternate _ _).map state.printArgument,
          valueOf_paddedHex _⟩

/-- **Numbers read back.** In every radix of the table `itoa` leaves the numeral
of its value, so different values leave different strings, and the conversions
of `printf` print numbers that read back as their arguments. -/
theorem itoa_round_trip {radix : UInt32} (large : 2 ≤ radix.toNat) (small : radix.toNat ≤ 36) :
    (∀ value buf memory, LeavesNumeral value buf radix memory) ∧
    (∀ value value' buf buf' memory memory' final final' text,
      EndsWith (fun rounds => itoa rounds value buf radix memory) final →
      EndsWith (fun rounds => itoa rounds value' buf' radix memory') final' →
      StandsAt final buf text → StandsAt final' buf' text → value = value') ∧
    ∀ call state, PrintsBack call state :=
  ⟨leavesNumeral large small,
    fun _ _ _ _ _ _ _ _ _ ends ends' stands stands' =>
      value_unique large small ends ends' stands stands',
    printsBack⟩

theorem itoa_round_trip_hex :
    (∀ value buf memory, LeavesNumeral value buf 16 memory) ∧
    (∀ value value' buf buf' memory memory' final final' text,
      EndsWith (fun rounds => itoa rounds value buf 16 memory) final →
      EndsWith (fun rounds => itoa rounds value' buf' 16 memory') final' →
      StandsAt final buf text → StandsAt final' buf' text → value = value') ∧
    ∀ call state, PrintsBack call state :=
  itoa_round_trip (by decide) (by decide)

end MonolithicKernel.Lib
