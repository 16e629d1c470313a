import MonolithicKernel.Foundation.BoundedLoops
import MonolithicKernel.Foundation.Numerals
import MonolithicKernel.Lib.Strings

/-!
Owns `itoa`, `strrev` and `strlen` on memory: the loops of the code with a bound
on their rounds, the string that `itoa` leaves in its buffer, and the value of
that string as a number.

A loop that has used its rounds up has no result. Does not own what `printf`
does with the string.
-/

namespace MonolithicKernel.Lib

open MonolithicKernel.Foundation

/-- The bytes of an object by their offset. -/
abbrev Buffer := Nat → UInt8

/-! ### The code -/

/-- `strlen`: the loop from `len` on. -/
def strlenLoop (memory : Buffer) (s : Nat) : Nat → Nat → Option Nat
  | 0, _ => none
  | rounds + 1, len =>
      if memory (s + len) ≠ 0 then strlenLoop memory s rounds (len + 1) else some len

/-- The loop of `strrev`. -/
def strrevLoop (s : Nat) : Nat → Nat → Nat → Buffer → Option Buffer
  | 0, _, _, _ => none
  | rounds + 1, start, stop, memory =>
      if start < stop then
        let tmp := memory (s + stop)
        let memory := Function.update memory (s + stop) (memory (s + start))
        let memory := Function.update memory (s + start) tmp
        strrevLoop s rounds (start + 1) (stop - 1) memory
      else some memory

/-- `strrev`. On the empty string `end` is -1 in the code and 0 here; the loop
makes no round from either. -/
def strrev (rounds : Nat) (s : Nat) (memory : Buffer) : Option Buffer :=
  (strlenLoop memory s rounds 0).bind fun len => strrevLoop s rounds 0 (len - 1) memory

/-- `lookup` of `itoa`: 0-9, A-Z and the NUL of the literal. -/
def lookup : List UInt8 :=
  [0x30, 0x31, 0x32, 0x33, 0x34, 0x35, 0x36, 0x37, 0x38, 0x39,
    0x41, 0x42, 0x43, 0x44, 0x45, 0x46, 0x47, 0x48, 0x49, 0x4A, 0x4B, 0x4C, 0x4D,
    0x4E, 0x4F, 0x50, 0x51, 0x52, 0x53, 0x54, 0x55, 0x56, 0x57, 0x58, 0x59, 0x5A, 0x00]

/-- The division loop of `itoa`: `newbuf` and the memory when it ends. Dividing
by zero and reading behind `lookup` have no result. -/
def itoaLoop (radix : UInt32) : Nat → UInt32 → Nat → Buffer → Option (Nat × Buffer)
  | 0, _, _, _ => none
  | rounds + 1, newval, newbuf, memory =>
      if 0 < newval then
        if radix = 0 then none
        else
          lookup[(newval % radix).toNat]?.bind fun digit =>
            itoaLoop radix rounds (newval / radix) (newbuf + 1)
              (Function.update memory newbuf digit)
      else some (newbuf, memory)

/-- `itoa`, which returns `buf` on both ways out. The signed `radix` takes part in
the division as an unsigned number. -/
def itoa (rounds : Nat) (value : UInt32) (buf : Nat) (radix : UInt32) (memory : Buffer) :
    Option Buffer :=
  if value = 0 then some (Function.update (Function.update memory buf 0x30) (buf + 1) 0)
  else
    (itoaLoop radix rounds value buf memory).bind fun ended =>
      strrev rounds buf (Function.update ended.2 ended.1 0)

/-! ### Bytes in memory -/

/-- `memory` with `bytes` written from `address` on. -/
def storeBytes (memory : Buffer) : Nat → Bytes → Buffer
  | _, [] => memory
  | address, byte :: bytes => storeBytes (Function.update memory address byte) (address + 1) bytes

/-- The string `text` and its NUL stand at `address`. -/
def StandsAt (memory : Buffer) : Nat → Bytes → Prop
  | address, [] => memory address = 0
  | address, byte :: text => byte ≠ 0 ∧ memory address = byte ∧ StandsAt memory (address + 1) text

instance decidableStandsAt (memory : Buffer) :
    ∀ (address : Nat) (text : Bytes), Decidable (StandsAt memory address text)
  | address, [] => inferInstanceAs (Decidable (memory address = 0))
  | address, byte :: text =>
      have : Decidable (StandsAt memory (address + 1) text) :=
        decidableStandsAt memory (address + 1) text
      inferInstanceAs (Decidable (byte ≠ 0 ∧ memory address = byte ∧ _))

theorem storeBytes_apply (memory : Buffer) (address : Nat) (bytes : Bytes) (index : Nat) :
    storeBytes memory address bytes index =
      if address ≤ index then bytes.getD (index - address) (memory index) else memory index := by
  induction bytes generalizing memory address with
  | nil => simp [storeBytes]
  | cons byte bytes inductionHypothesis =>
      rw [storeBytes, inductionHypothesis]
      by_cases here : index = address
      · subst index
        simp
      · rw [Function.update_of_ne here]
        by_cases behind : address + 1 ≤ index
        · have offset : index - address = (index - (address + 1)) + 1 := by omega
          rw [if_pos behind, if_pos (by omega), offset, List.getD_cons_succ]
        · rw [if_neg behind, if_neg (by omega)]

theorem storeBytes_append (memory : Buffer) (address : Nat) (first second : Bytes) :
    storeBytes memory address (first ++ second) =
      storeBytes (storeBytes memory address first) (address + first.length) second := by
  induction first generalizing memory address with
  | nil => rfl
  | cons byte first inductionHypothesis =>
      rw [List.cons_append, storeBytes, inductionHypothesis, storeBytes, List.length_cons]
      congr 1
      omega

/-- Bytes in front of the written ones stay. -/
theorem storeBytes_of_lt {memory : Buffer} {address index : Nat} {bytes : Bytes}
    (before : index < address) : storeBytes memory address bytes index = memory index := by
  rw [storeBytes_apply, if_neg (by omega)]

theorem StandsAt.congr {memory other : Buffer} {text : Bytes} :
    ∀ {address : Nat}, (∀ index, address ≤ index → other index = memory index) →
      StandsAt memory address text → StandsAt other address text := by
  induction text with
  | nil =>
      intro address same stands
      exact (same address (Nat.le_refl _)).trans stands
  | cons byte text inductionHypothesis =>
      intro address same stands
      obtain ⟨nonNul, here, behind⟩ := stands
      exact ⟨nonNul, (same address (Nat.le_refl _)).trans here,
        inductionHypothesis (fun index after => same index (by omega)) behind⟩

/-- A string written with its NUL stands there. -/
theorem standsAt_storeBytes {text : Bytes} (noNul : NoNul text) (memory : Buffer)
    (address : Nat) : StandsAt (storeBytes memory address (text ++ [0])) address text := by
  induction text generalizing memory address with
  | nil => simp [StandsAt, storeBytes]
  | cons byte text inductionHypothesis =>
      refine ⟨noNul byte (by simp), ?_, inductionHypothesis noNul.tail _ _⟩
      rw [List.cons_append, storeBytes, storeBytes_of_lt (by omega), Function.update_self]

/-- Bytes written in front of a string become part of it. -/
theorem StandsAt.prepend {front text : Bytes} (noNul : NoNul front) :
    ∀ {memory : Buffer} {address : Nat}, StandsAt memory (address + front.length) text →
      StandsAt (storeBytes memory address front) address (front ++ text) := by
  induction front with
  | nil => exact fun stands => stands
  | cons byte front inductionHypothesis =>
      intro memory address stands
      refine ⟨noNul byte (by simp), ?_, inductionHypothesis noNul.tail ?_⟩
      · rw [storeBytes, storeBytes_of_lt (by omega), Function.update_self]
      · have place : address + 1 + front.length = address + (byte :: front).length := by
          rw [List.length_cons]
          omega
        rw [place]
        exact stands.congr fun index after =>
          Function.update_of_ne (by rw [List.length_cons] at after; omega) _ _

/-- A place holds at most one string. -/
theorem StandsAt.unique {memory : Buffer} {first second : Bytes} :
    ∀ {address : Nat}, StandsAt memory address first → StandsAt memory address second →
      first = second := by
  induction first generalizing second with
  | nil =>
      intro address stands other
      cases second with
      | nil => rfl
      | cons byte second => exact absurd (other.2.1.symm.trans stands) other.1
  | cons byte first inductionHypothesis =>
      intro address stands other
      cases second with
      | nil => exact absurd (stands.2.1.symm.trans other) stands.1
      | cons byte' second =>
          rw [← stands.2.1, ← other.2.1, inductionHypothesis stands.2.2 other.2.2]

/-- `strlen` finds the NUL of the string that stands there. -/
theorem strlenLoop_eq_some {memory : Buffer} {s : Nat} {text : Bytes} :
    ∀ {rounds len : Nat}, StandsAt memory (s + len) text → text.length < rounds →
      strlenLoop memory s rounds len = some (len + text.length) := by
  induction text with
  | nil =>
      intro rounds len stands enough
      cases rounds with
      | zero => simp at enough
      | succ rounds =>
          have nul : memory (s + len) = 0 := stands
          simp [strlenLoop, nul]
  | cons byte text inductionHypothesis =>
      intro rounds len stands enough
      cases rounds with
      | zero => simp at enough
      | succ rounds =>
          obtain ⟨nonNul, here, behind⟩ := stands
          rw [strlenLoop, if_pos (by rw [here]; exact nonNul),
            inductionHypothesis behind (by simpa using enough), List.length_cons]
          congr 1
          omega

/-! ### The digits -/

/-- The byte of a digit: the table of the code. -/
def digitByte (digit : Nat) : UInt8 := lookup.getD digit 0

/-- The digit of a byte of 0-9 and A-Z. -/
def digitValue (byte : UInt8) : Nat :=
  if byte ≤ 0x39 then byte.toNat - 0x30 else byte.toNat - 0x41 + 10

/-- A byte of 0-9 or A-Z. -/
def IsDigit (byte : UInt8) : Prop := 0x30 ≤ byte ∧ byte ≤ 0x39 ∨ 0x41 ≤ byte ∧ byte ≤ 0x5A

instance (byte : UInt8) : Decidable (IsDigit byte) := inferInstanceAs (Decidable (_ ∨ _))

/-- The text that stands for a number in `radix`. -/
def digitsOf (radix number : Nat) : Bytes := numeral digitByte radix number

theorem digitByte_spec :
    ∀ digit < 36, IsDigit (digitByte digit) ∧ digitValue (digitByte digit) = digit := by
  decide

theorem lookup_eq_some {digit : Nat} (small : digit < 36) :
    lookup[digit]? = some (digitByte digit) := by
  have inTable : digit < lookup.length := Nat.lt_of_lt_of_le small (by decide)
  rw [digitByte, List.getD_eq_getElem _ _ inTable, List.getElem?_eq_getElem inTable]

theorem IsDigit.ne_zero {byte : UInt8} (isDigit : IsDigit byte) : byte ≠ 0 := by
  intro zero
  subst byte
  exact absurd isDigit (by decide)

section

variable {radix : Nat} (large : 1 < radix) (small : radix ≤ 36)

include large small

/-- Every byte of the text is one of 0-9A-Z and stands for a digit below the
radix. -/
theorem isDigit_of_mem_digitsOf {number : Nat} {byte : UInt8}
    (member : byte ∈ digitsOf radix number) : IsDigit byte ∧ digitValue byte < radix := by
  obtain ⟨digit, below, same⟩ := exists_digit_of_mem_numeral large member
  obtain ⟨isDigit, value⟩ := digitByte_spec digit (by omega)
  rw [same]
  exact ⟨isDigit, by rw [value]; exact below⟩

theorem noNul_digitsOf (number : Nat) : NoNul (digitsOf radix number) :=
  fun _ member => (isDigit_of_mem_digitsOf large small member).1.ne_zero

theorem valueOf_digitsOf (number : Nat) :
    valueOf digitValue radix (digitsOf radix number) = number :=
  valueOf_numeral large fun digit below => (digitByte_spec digit (by omega)).2

/-- The text of a nonzero number does not start with the digit 0. -/
theorem head?_digitsOf {number : Nat} (nonzero : number ≠ 0) :
    (digitsOf radix number).head? ≠ some 0x30 := by
  obtain ⟨digit, positive, below, first⟩ :
      ∃ digit, 0 < digit ∧ digit < radix ∧
        (digitsOf radix number).head? = some (digitByte digit) := head?_numeral large nonzero
  rw [first, ne_eq, Option.some.injEq]
  intro same
  have value := (digitByte_spec digit (by omega)).2
  rw [same] at value
  have isZero : digitValue 0x30 = 0 := by decide
  omega

end

theorem length_digitsOf_le {radix : Nat} (large : 1 < radix) {width : Nat} (room : 0 < width)
    {number : Nat} (below : number < radix ^ width) : (digitsOf radix number).length ≤ width :=
  length_numeral_le large room below

/-! ### The loops -/

/-- The division loop writes the digits of the number, least significant first. -/
theorem itoaLoop_eq_some {radix : UInt32} (large : 1 < radix.toNat) (small : radix.toNat ≤ 36)
    (rounds width : Nat) (newval : UInt32) (newbuf : Nat) (memory : Buffer)
    (below : newval.toNat < 2 ^ width) (enough : width < rounds) :
    itoaLoop radix rounds newval newbuf memory =
      some (newbuf + (Nat.digits radix.toNat newval.toNat).length,
        storeBytes memory newbuf ((Nat.digits radix.toNat newval.toNat).map digitByte)) := by
  induction rounds generalizing width newval newbuf memory with
  | zero => omega
  | succ rounds inductionHypothesis =>
      by_cases positive : 0 < newval
      · have positiveNat : 0 < newval.toNat := by simpa [UInt32.lt_iff_toNat_lt] using positive
        have nonzeroRadix : radix ≠ 0 := by
          intro zero
          rw [zero] at large
          exact absurd large (by decide)
        have digitBelow : (newval % radix).toNat < 36 := by
          rw [UInt32.toNat_mod]
          exact Nat.lt_of_lt_of_le (Nat.mod_lt _ (by omega)) small
        cases width with
        | zero => omega
        | succ width =>
            have quotientBelow : (newval / radix).toNat < 2 ^ width := by
              rw [UInt32.toNat_div]
              have half := Nat.div_le_div_left large (by decide) (a := newval.toNat)
              have bound : newval.toNat / 2 < 2 ^ width := by
                rw [Nat.div_lt_iff_lt_mul (by decide), ← Nat.pow_succ]
                exact below
              exact Nat.lt_of_le_of_lt half bound
            rw [itoaLoop, if_pos positive, if_neg nonzeroRadix, lookup_eq_some digitBelow,
              Option.bind_some, inductionHypothesis width _ _ _ quotientBelow (by omega),
              UInt32.toNat_div, UInt32.toNat_mod, Nat.digits_def' large positiveNat,
              List.map_cons, storeBytes, List.length_cons]
            congr 2
            omega
      · have zero : newval.toNat = 0 := by
          simpa [UInt32.lt_iff_toNat_lt] using positive
        rw [itoaLoop, if_neg positive, zero]
        simp [storeBytes]

/-- The swapping loop turns the bytes from `start` to `stop` round. -/
theorem strrevLoop_eq_some (s rounds start stop : Nat) (memory : Buffer) (nonzero : 0 < rounds)
    (enough : stop < start + rounds) :
    strrevLoop s rounds start stop memory =
      some fun index =>
        if s + start ≤ index ∧ index ≤ s + stop then memory (s + start + (s + stop) - index)
        else memory index := by
  induction rounds generalizing start stop memory with
  | zero => omega
  | succ rounds inductionHypothesis =>
      by_cases more : start < stop
      · rw [strrevLoop, if_pos more, inductionHypothesis _ _ _ (by omega) (by omega)]
        congr 1
        funext index
        by_cases first : index = s + start
        · -- The first byte was stored last, the rounds that follow leave it.
          subst index
          rw [if_neg (by omega), if_pos (by omega), Function.update_self]
          congr 1
          omega
        by_cases last : index = s + stop
        · subst index
          rw [if_neg (by omega), if_pos (by omega), Function.update_of_ne (by omega),
            Function.update_self]
          congr 1
          omega
        by_cases between : s + (start + 1) ≤ index ∧ index ≤ s + (stop - 1)
        · rw [if_pos between, if_pos (by omega), Function.update_of_ne (by omega),
            Function.update_of_ne (by omega)]
          congr 1
          omega
        · rw [if_neg between, if_neg (by omega), Function.update_of_ne first,
            Function.update_of_ne last]
      · rw [strrevLoop, if_neg more]
        congr 1
        funext index
        by_cases only : s + start ≤ index ∧ index ≤ s + stop
        · rw [if_pos only]
          congr 1
          omega
        · rw [if_neg only]

/-- Turned round, the bytes of a stored string are the reversed string. -/
theorem reversed_storeBytes (memory : Buffer) (buf : Nat) {text : Bytes} (nonempty : text ≠ []) :
    (fun index =>
      if buf ≤ index ∧ index ≤ buf + (text.length - 1) then
        storeBytes memory buf (text ++ [0]) (buf + (buf + (text.length - 1)) - index)
      else storeBytes memory buf (text ++ [0]) index) =
      storeBytes memory buf (text.reverse ++ [0]) := by
  have positive : 0 < text.length := List.length_pos_iff.mpr nonempty
  funext index
  by_cases inside : buf ≤ index ∧ index ≤ buf + (text.length - 1)
  · have offset : buf + (buf + (text.length - 1)) - index - buf =
        text.length - 1 - (index - buf) := by omega
    rw [if_pos inside, storeBytes_apply, if_pos (by omega), storeBytes_apply,
      if_pos inside.1, offset, List.getD_append _ _ _ _ (by omega),
      List.getD_append _ _ _ _ (by rw [List.length_reverse]; omega),
      List.getD_eq_getElem _ _ (by omega),
      List.getD_eq_getElem _ _ (by rw [List.length_reverse]; omega), List.getElem_reverse]
  · rw [if_neg inside, storeBytes_apply, storeBytes_apply]
    by_cases before : buf ≤ index
    · rw [if_pos before, if_pos before, List.getD_append_right _ _ _ _ (by omega),
        List.getD_append_right _ _ _ _ (by rw [List.length_reverse]; omega), List.length_reverse]
    · rw [if_neg before, if_neg before]

/-- `strrev` turns round the string that stands at `s`. -/
theorem strrev_storeBytes {text : Bytes} (noNul : NoNul text) (nonempty : text ≠ [])
    (rounds s : Nat) (memory : Buffer) (enough : text.length < rounds) :
    strrev rounds s (storeBytes memory s (text ++ [0])) =
      some (storeBytes memory s (text.reverse ++ [0])) := by
  have length : strlenLoop (storeBytes memory s (text ++ [0])) s rounds 0 =
      some (0 + text.length) :=
    strlenLoop_eq_some (standsAt_storeBytes noNul memory s) enough
  rw [strrev, length, Option.bind_some, Nat.zero_add,
    strrevLoop_eq_some s rounds 0 (text.length - 1) _ (by omega) (by omega),
    ← reversed_storeBytes memory s nonempty]
  rfl

/-- **What `itoa` leaves.** The digits of the value and a NUL stand in the
buffer, and nothing else has changed. -/
theorem itoa_eq_some {radix : UInt32} (large : 1 < radix.toNat) (small : radix.toNat ≤ 36)
    {rounds : Nat} (enough : 33 ≤ rounds) (value : UInt32) (buf : Nat) (memory : Buffer) :
    itoa rounds value buf radix memory =
      some (storeBytes memory buf (digitsOf radix.toNat value.toNat ++ [0])) := by
  by_cases zero : value = 0
  · subst value
    have zeroDigits : digitsOf radix.toNat (0 : UInt32).toNat = [0x30] := by
      simp [digitsOf, numeral, digitByte, lookup]
    rw [itoa, if_pos rfl, zeroDigits]
    rfl
  · have nonzero : value.toNat ≠ 0 := fun same => zero (UInt32.toNat_inj.mp same)
    have below : value.toNat < 2 ^ 32 := value.toNat_lt
    have lengthLe := length_digitsOf_le large (by decide)
      (Nat.lt_of_lt_of_le below (Nat.pow_le_pow_left large 32))
    have noNul := noNul_digitsOf large small value.toNat
    -- The loop leaves the digits in the opposite order.
    obtain ⟨written, isWritten⟩ :
        ∃ written, (Nat.digits radix.toNat value.toNat).map digitByte = written := ⟨_, rfl⟩
    have text : digitsOf radix.toNat value.toNat = written.reverse := by
      rw [digitsOf, numeral_of_ne_zero nonzero, isWritten]
    have length : (Nat.digits radix.toNat value.toNat).length = written.length := by
      rw [← isWritten, List.length_map]
    have nonempty : written ≠ [] := by
      rw [← isWritten]
      simpa using Nat.digits_ne_nil_iff_ne_zero.mpr nonzero
    rw [text] at noNul lengthLe ⊢
    have writtenNoNul : NoNul written := fun byte member => noNul byte (by simpa using member)
    have terminated : Function.update (storeBytes memory buf written) (buf + written.length) 0 =
        storeBytes memory buf (written ++ [0]) := by
      rw [storeBytes_append]
      rfl
    rw [itoa, if_neg zero, itoaLoop_eq_some large small rounds 32 value buf memory below enough,
      isWritten, length, Option.bind_some, terminated]
    exact strrev_storeBytes writtenNoNul nonempty rounds buf memory
      (by rw [List.length_reverse] at lengthLe; omega)

/-- `itoa` ends. -/
theorem endsWith_itoa {radix : UInt32} (large : 1 < radix.toNat) (small : radix.toNat ≤ 36)
    (value : UInt32) (buf : Nat) (memory : Buffer) :
    EndsWith (fun rounds => itoa rounds value buf radix memory)
      (storeBytes memory buf (digitsOf radix.toNat value.toNat ++ [0])) :=
  .of_le 33 fun _ enough => itoa_eq_some large small enough value buf memory

end MonolithicKernel.Lib
