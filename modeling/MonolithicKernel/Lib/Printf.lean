import MonolithicKernel.Lib.Itoa

/-!
Owns `puts` and `printf`: the loop over the format, the conversions with their
buffers, and what a format is documented to print. A call is the memory, the
place of the format, the words of the stack behind it, and what stands in each
`conv_buf` before it is written.

Does not own `putc` and the cursor, only the characters given to `putc`.
-/

namespace MonolithicKernel.Lib

open MonolithicKernel.Foundation

/-! ### The conversions of the code -/

/-- The `int32_t` value of a word. -/
def int32 (word : UInt32) : Int := word.toBitVec.toInt

/-- The loop of `puts`. -/
def putsLoop (memory : Buffer) (s : Nat) : Nat → Nat → Bytes → Option (Nat × Bytes)
  | 0, _, _ => none
  | rounds + 1, index, output =>
      if memory (s + index) ≠ 0 then
        putsLoop memory s rounds (index + 1) (output ++ [memory (s + index)])
      else some (index, output)

/-- `puts`: the value returned and the characters given to `putc`. -/
def puts (rounds : Nat) (memory : Buffer) (s : Nat) : Option (Nat × Bytes) :=
  putsLoop memory s rounds 0 []

/-- The loop of `%#x` that writes `'0'` in front of the digits. -/
def padLoop : Nat → Nat → Buffer → Option Buffer
  | 0, _, _ => none
  | rounds + 1, i, convBuf =>
      if i < 8 then padLoop rounds (i + 1) (Function.update convBuf i 0x30) else some convBuf

/-- `%x` and `%#x`. -/
def printHex (rounds : Nat) (convBuf : Buffer) (alternate : Bool) (argument : UInt32) :
    Option Bytes :=
  if alternate = false then
    (itoa rounds argument 0 16 convBuf).bind fun convBuf =>
      (puts rounds convBuf 0).map Prod.snd
  else
    (itoa rounds argument 8 16 convBuf).bind fun convBuf =>
      (strlenLoop convBuf 8 rounds 0).bind fun startingIndex =>
        (padLoop rounds startingIndex convBuf).bind fun convBuf =>
          (puts rounds convBuf startingIndex).map Prod.snd

/-- `%u`. -/
def printUnsigned (rounds : Nat) (convBuf : Buffer) (argument : UInt32) : Option Bytes :=
  (itoa rounds argument 0 10 convBuf).bind fun convBuf => (puts rounds convBuf 0).map Prod.snd

/-- `%d`. The negation wraps. -/
def printSigned (rounds : Nat) (convBuf : Buffer) (value : UInt32) : Option Bytes :=
  (if int32 value < 0 then itoa rounds (-value) 1 10 (Function.update convBuf 0 0x2D)
    else itoa rounds value 0 10 convBuf).bind fun convBuf =>
      (puts rounds convBuf 0).map Prod.snd

/-! ### The code of `printf` -/

/-- What a call of `printf` is given. -/
structure PrintfCall where
  memory : Buffer
  /-- The address of the format. -/
  format : Nat
  /-- The words behind `format` on the stack. -/
  arguments : Nat → UInt32
  /-- `conv_buf` as it is found for each of these words. -/
  convBuf : Nat → Buffer

structure Printing where
  /-- `buf - format`. -/
  buf : Nat
  /-- The arguments that `esp` has passed. -/
  esp : Nat
  /-- The characters given to `putc`. -/
  output : Bytes
  /-- The offsets of the format that were read. -/
  reads : List Nat

namespace Printing

def read (state : Printing) : Printing := { state with reads := state.reads ++ [state.buf] }

/-- `buf++`. -/
def advance (state : Printing) : Printing := { state with buf := state.buf + 1 }

def print (text : Bytes) (state : Printing) : Printing :=
  { state with output := state.output ++ text }

/-- `esp++` behind a conversion that printed `text`. -/
def printArgument (state : Printing) (text : Bytes) : Printing :=
  { state.print text with esp := state.esp + 1 }

end Printing

namespace PrintfCall

variable (call : PrintfCall)

/-- The cases of the inner `switch` other than `#`. -/
def convert (rounds : Nat) (alternate : Bool) (char : UInt8) (state : Printing) :
    Option Printing :=
  let argument := call.arguments state.esp
  let convBuf := call.convBuf state.esp
  if char = 0x25 then some (state.print [0x25])
  else if char = 0x78 then
    (printHex rounds convBuf alternate argument).map state.printArgument
  else if char = 0x75 then (printUnsigned rounds convBuf argument).map state.printArgument
  else if char = 0x64 then (printSigned rounds convBuf argument).map state.printArgument
  else if char = 0x63 then some (state.printArgument [argument.toUInt8])
  else if char = 0x73 then
    (puts rounds call.memory argument.toNat).map fun printed => state.printArgument printed.2
  else some state

/-- `format_char_switch`: `#` jumps back to it. -/
def formatCharSwitch : Nat → Bool → Printing → Option Printing
  | 0, _, _ => none
  | rounds + 1, alternate, state =>
      let char := call.memory (call.format + state.buf)
      if char = 0x23 then formatCharSwitch rounds true state.read.advance
      else call.convert rounds alternate char state.read

/-- The loop of `printf`. The last `buf++` follows every character and every
conversion. -/
def printfLoop : Nat → Printing → Option Printing
  | 0, _ => none
  | rounds + 1, state =>
      let char := call.memory (call.format + state.buf)
      if char = 0 then some state.read
      else
        (if char = 0x25 then call.formatCharSwitch rounds false state.read.advance
          else some (state.read.print [char])).bind fun state =>
            printfLoop rounds state.advance

end PrintfCall

structure Printed where
  returned : Nat
  output : Bytes
  reads : List Nat

def PrintfCall.printf (call : PrintfCall) (rounds : Nat) : Option Printed :=
  (call.printfLoop rounds { buf := 0, esp := 0, output := [], reads := [] }).map fun state =>
    { returned := state.buf, output := state.output, reads := state.reads }

/-! ### The documented output -/

/-- A character that stands for itself, or the character of a conversion. -/
inductive Piece
  | literal (char : UInt8)
  | conversion (alternate : Bool) (char : UInt8)
deriving DecidableEq

inductive Mode
  | literal
  | conversion (alternate : Bool)
deriving DecidableEq

def Mode.next : Mode → UInt8 → Mode
  | .literal, char => if char = 0x25 then .conversion false else .literal
  | .conversion _, char => if char = 0x23 then .conversion true else .literal

/-- The format does not end inside a conversion: behind every `%` that starts
one and any number of `#` there is a further character. -/
def Complete (text : Bytes) : Prop := text.foldl Mode.next .literal = .literal

instance (text : Bytes) : Decidable (Complete text) := inferInstanceAs (Decidable (_ = _))

/-- The pieces of a format. -/
def pieces : Mode → Bytes → List Piece
  | _, [] => []
  | .literal, char :: text =>
      if char = 0x25 then pieces (.conversion false) text
      else .literal char :: pieces .literal text
  | .conversion alternate, char :: text =>
      if char = 0x23 then pieces (.conversion true) text
      else .conversion alternate char :: pieces .literal text

/-- Decimal digits behind the sign of a negative number. -/
def signedText (value : Int) : Bytes :=
  if value < 0 then 0x2D :: digitsOf 10 value.natAbs else digitsOf 10 value.natAbs

/-- Hexadecimal digits behind as many zeros as make them 8. -/
def paddedHex (number : Nat) : Bytes :=
  List.replicate (8 - (digitsOf 16 number).length) 0x30 ++ digitsOf 16 number

namespace Piece

def takesArgument : Piece → Bool
  | .literal _ => false
  | .conversion _ char => char ∈ [0x78, 0x75, 0x64, 0x63, 0x73]

/-- What a piece prints, `string` being the string its argument points to. An
unknown conversion prints nothing. -/
def text (string : Bytes) (argument : UInt32) : Piece → Bytes
  | .literal char => [char]
  | .conversion alternate char =>
      if char = 0x25 then [0x25]
      else if char = 0x78 then
        if alternate then paddedHex argument.toNat else digitsOf 16 argument.toNat
      else if char = 0x75 then digitsOf 10 argument.toNat
      else if char = 0x64 then signedText (int32 argument)
      else if char = 0x63 then [argument.toUInt8]
      else if char = 0x73 then string
      else []

def isString : Piece → Bool
  | .literal _ => false
  | .conversion _ char => char = 0x73

/-- The number of the next argument. -/
def nextArgument (piece : Piece) (esp : Nat) : Nat := if piece.takesArgument then esp + 1 else esp

end Piece

/-- The documented output of the pieces, in order. -/
def documented (string : Nat → Bytes) (arguments : Nat → UInt32) : Nat → List Piece → Bytes
  | _, [] => []
  | esp, piece :: rest =>
      piece.text (string esp) (arguments esp) ++
        documented string arguments (piece.nextArgument esp) rest

/-- The argument of every `%s` points to its string. -/
def Matching (memory : Buffer) (string : Nat → Bytes) (arguments : Nat → UInt32) :
    Nat → List Piece → Prop
  | _, [] => True
  | esp, piece :: rest =>
      (piece.isString → StandsAt memory (arguments esp).toNat (string esp)) ∧
        Matching memory string arguments (piece.nextArgument esp) rest

/-! ### The conversions -/

theorem putsLoop_eq_some {memory : Buffer} {s : Nat} {text : Bytes} :
    ∀ {rounds index : Nat} {output : Bytes}, StandsAt memory (s + index) text →
      text.length < rounds →
      putsLoop memory s rounds index output = some (index + text.length, output ++ text) := by
  induction text with
  | nil =>
      intro rounds index output stands enough
      cases rounds with
      | zero => simp at enough
      | succ rounds =>
          have nul : memory (s + index) = 0 := stands
          simp [putsLoop, nul]
  | cons byte text inductionHypothesis =>
      intro rounds index output stands enough
      cases rounds with
      | zero => simp at enough
      | succ rounds =>
          obtain ⟨nonNul, here, behind⟩ := stands
          rw [putsLoop, if_pos (by rw [here]; exact nonNul),
            inductionHypothesis behind (by simpa using enough), here, List.length_cons,
            List.append_assoc, List.singleton_append]
          congr 2
          omega

/-- `puts` prints the string that stands at `s` and returns its length. -/
theorem endsWith_puts {memory : Buffer} {s : Nat} {text : Bytes}
    (stands : StandsAt memory s text) :
    EndsWith (fun rounds => puts rounds memory s) (text.length, text) := by
  refine .of_le (text.length + 1) fun rounds enough => ?_
  rw [puts, putsLoop_eq_some stands (by omega), Nat.zero_add, List.nil_append]

/-- What is printed of a conversion is the string that its buffer is left with. -/
theorem endsWith_printed {convert : Nat → Option Buffer} {convBuf : Buffer} {s : Nat}
    {text : Bytes} (ends : EndsWith convert convBuf) (stands : StandsAt convBuf s text) :
    EndsWith (fun rounds => (convert rounds).bind fun convBuf =>
      (puts rounds convBuf s).map Prod.snd) text :=
  ends.bind (endsWith_puts stands |>.map Prod.snd)

theorem endsWith_printUnsigned (convBuf : Buffer) (argument : UInt32) :
    EndsWith (fun rounds => printUnsigned rounds convBuf argument)
      (digitsOf 10 argument.toNat) := by
  have noNul : NoNul (digitsOf 10 argument.toNat) := noNul_digitsOf (by decide) (by decide) _
  have digits : EndsWith (fun rounds => itoa rounds argument 0 10 convBuf)
      (storeBytes convBuf 0 (digitsOf 10 argument.toNat ++ [0])) :=
    endsWith_itoa (by decide) (by decide) argument 0 convBuf
  exact endsWith_printed digits (standsAt_storeBytes noNul convBuf 0)

theorem int32_eq (value : UInt32) :
    int32 value = if 2 * value.toNat < 2 ^ 32 then (value.toNat : Int) else value.toNat - 2 ^ 32 :=
  BitVec.toInt_eq_toNat_cond value.toBitVec

theorem toNat_of_nonnegative {value : UInt32} (nonnegative : ¬ int32 value < 0) :
    value.toNat = (int32 value).natAbs := by
  have below := value.toNat_lt
  rw [int32_eq] at nonnegative ⊢
  split at nonnegative <;> omega

/-- The wrapped negation of a negative number is its absolute value. -/
theorem toNat_neg_of_negative {value : UInt32} (negative : int32 value < 0) :
    (-value).toNat = (int32 value).natAbs := by
  have below := value.toNat_lt
  have size : UInt32.size = 2 ^ 32 := rfl
  rw [int32_eq] at negative ⊢
  rw [UInt32.toNat_neg, size]
  split at negative <;> omega

theorem endsWith_printSigned (convBuf : Buffer) (value : UInt32) :
    EndsWith (fun rounds => printSigned rounds convBuf value) (signedText (int32 value)) := by
  have noNul : NoNul (digitsOf 10 (int32 value).natAbs) :=
    noNul_digitsOf (by decide) (by decide) _
  by_cases negative : int32 value < 0
  · have digits : EndsWith
        (fun rounds => itoa rounds (-value) 1 10 (Function.update convBuf 0 0x2D))
        (storeBytes (Function.update convBuf 0 0x2D) 1 (digitsOf 10 (-value).toNat ++ [0])) :=
      endsWith_itoa (by decide) (by decide) (-value) 1 _
    rw [toNat_neg_of_negative negative] at digits
    have stands : StandsAt (storeBytes (Function.update convBuf 0 0x2D) 1
        (digitsOf 10 (int32 value).natAbs ++ [0])) 0
        (0x2D :: digitsOf 10 (int32 value).natAbs) :=
      ⟨by decide, by rw [storeBytes_of_lt (by decide), Function.update_self],
        standsAt_storeBytes noNul _ 1⟩
    simp only [printSigned, signedText, if_pos negative]
    exact endsWith_printed digits stands
  · have digits : EndsWith (fun rounds => itoa rounds value 0 10 convBuf)
        (storeBytes convBuf 0 (digitsOf 10 value.toNat ++ [0])) :=
      endsWith_itoa (by decide) (by decide) value 0 convBuf
    rw [toNat_of_nonnegative negative] at digits
    simp only [printSigned, signedText, if_neg negative]
    exact endsWith_printed digits (standsAt_storeBytes noNul convBuf 0)

/-- The zeros in front of the digits. -/
theorem padLoop_eq_some (rounds i : Nat) (convBuf : Buffer) (nonzero : 0 < rounds)
    (enough : 8 < i + rounds) :
    padLoop rounds i convBuf = some (storeBytes convBuf i (List.replicate (8 - i) 0x30)) := by
  induction rounds generalizing i convBuf with
  | zero => omega
  | succ rounds inductionHypothesis =>
      by_cases more : i < 8
      · have count : 8 - i = (8 - (i + 1)) + 1 := by omega
        rw [padLoop, if_pos more, inductionHypothesis _ _ (by omega) (by omega), count,
          List.replicate_succ, storeBytes]
      · have none : 8 - i = 0 := by omega
        rw [padLoop, if_neg more, none]
        rfl

theorem endsWith_printHex_plain (convBuf : Buffer) (argument : UInt32) :
    EndsWith (fun rounds => printHex rounds convBuf false argument)
      (digitsOf 16 argument.toNat) := by
  have noNul : NoNul (digitsOf 16 argument.toNat) := noNul_digitsOf (by decide) (by decide) _
  have digits : EndsWith (fun rounds => itoa rounds argument 0 16 convBuf)
      (storeBytes convBuf 0 (digitsOf 16 argument.toNat ++ [0])) :=
    endsWith_itoa (by decide) (by decide) argument 0 convBuf
  simp only [printHex, if_pos]
  exact endsWith_printed digits (standsAt_storeBytes noNul convBuf 0)

/-- A word has at most 8 hexadecimal digits. -/
theorem length_hex_le (argument : UInt32) : (digitsOf 16 argument.toNat).length ≤ 8 :=
  length_digitsOf_le (by decide) (by decide) argument.toNat_lt

/-- `%#x` prints from the first zero, which stands as far from the start of the
buffer as there are digits. -/
theorem endsWith_printHex_alternate (convBuf : Buffer) (argument : UInt32) :
    EndsWith (fun rounds => printHex rounds convBuf true argument) (paddedHex argument.toNat) := by
  have noNul : NoNul (digitsOf 16 argument.toNat) := noNul_digitsOf (by decide) (by decide) _
  have short := length_hex_le argument
  have digits : EndsWith (fun rounds => itoa rounds argument 8 16 convBuf)
      (storeBytes convBuf 8 (digitsOf 16 argument.toNat ++ [0])) :=
    endsWith_itoa (by decide) (by decide) argument 8 convBuf
  have stands := standsAt_storeBytes noNul convBuf 8
  obtain ⟨written, isWritten⟩ :
      ∃ written, storeBytes convBuf 8 (digitsOf 16 argument.toNat ++ [0]) = written := ⟨_, rfl⟩
  rw [isWritten] at digits stands
  have length : EndsWith (fun rounds => strlenLoop written 8 rounds 0)
      (digitsOf 16 argument.toNat).length :=
    .of_le 9 fun rounds enough => by
      rw [strlenLoop_eq_some stands (by omega), Nat.zero_add]
  have padded : EndsWith (fun rounds => padLoop rounds (digitsOf 16 argument.toNat).length written)
      (storeBytes written (digitsOf 16 argument.toNat).length
        (List.replicate (8 - (digitsOf 16 argument.toNat).length) 0x30)) :=
    .of_le 9 fun rounds enough => padLoop_eq_some rounds _ written (by omega) (by omega)
  have zeros : NoNul (List.replicate (8 - (digitsOf 16 argument.toNat).length) 0x30) := by
    intro byte member
    rw [List.eq_of_mem_replicate member]
    decide
  have standsDigits : StandsAt written ((digitsOf 16 argument.toNat).length +
      (List.replicate (8 - (digitsOf 16 argument.toNat).length) (0x30 : UInt8)).length)
      (digitsOf 16 argument.toNat) := by
    rw [List.length_replicate, Nat.add_sub_cancel' short]
    exact stands
  simp only [printHex, Bool.true_eq_false, if_false]
  exact digits.bind (length.bind (endsWith_printed padded (.prepend zeros standsDigits)))

/-! ### One conversion -/

namespace PrintfCall

variable {call : PrintfCall} {string : Nat → Bytes}

/-- The state behind a piece. -/
def afterPiece (call : PrintfCall) (string : Nat → Bytes) (piece : Piece) (state : Printing) :
    Printing :=
  { state.print (piece.text (string state.esp) (call.arguments state.esp)) with
    esp := piece.nextArgument state.esp }

/-- A conversion prints its documented text and takes its argument. -/
theorem endsWith_convert {alternate : Bool} {char : UInt8} {state : Printing}
    (matching : (Piece.conversion alternate char).isString →
      StandsAt call.memory (call.arguments state.esp).toNat (string state.esp)) :
    EndsWith (fun rounds => call.convert rounds alternate char state)
      (call.afterPiece string (.conversion alternate char) state) := by
  by_cases percent : char = 0x25
  · subst char
    exact .pure _
  by_cases hex : char = 0x78
  · subst char
    cases alternate with
    | false => exact (endsWith_printHex_plain _ _).map state.printArgument
    | true => exact (endsWith_printHex_alternate _ _).map state.printArgument
  by_cases unsigned : char = 0x75
  · subst char
    exact (endsWith_printUnsigned _ _).map state.printArgument
  by_cases signed : char = 0x64
  · subst char
    exact (endsWith_printSigned _ _).map state.printArgument
  by_cases character : char = 0x63
  · subst char
    exact .pure _
  by_cases isString : char = 0x73
  · subst char
    exact (endsWith_puts (matching rfl)).map fun printed => state.printArgument printed.2
  · have unknown : (Piece.conversion alternate char).takesArgument = false := by
      simp [Piece.takesArgument, hex, unsigned, signed, character, isString]
    simp only [convert, afterPiece, Piece.text, Piece.nextArgument, unknown, percent, hex,
      unsigned, signed, character, isString, if_false, Bool.false_eq_true, Printing.print,
      List.append_nil]
    exact .pure _

/-- A conversion neither moves in the format nor reads it. -/
theorem buf_reads_convert {rounds : Nat} {alternate : Bool} {char : UInt8}
    {state after : Printing} (converted : call.convert rounds alternate char state = some after) :
    after.buf = state.buf ∧ after.reads = state.reads := by
  have printed : ∀ text, (state.printArgument text).buf = state.buf ∧
      (state.printArgument text).reads = state.reads := fun _ => ⟨rfl, rfl⟩
  have ofMap : ∀ (α : Type) (printing : Option α) (shown : α → Bytes),
      printing.map (fun value => state.printArgument (shown value)) = some after →
        after.buf = state.buf ∧ after.reads = state.reads := by
    intro α printing shown mapped
    obtain ⟨value, -, same⟩ := Option.map_eq_some_iff.mp mapped
    rw [← same]
    exact printed _
  unfold convert at converted
  dsimp only at converted
  split at converted
  · rw [← Option.some.inj converted]
    exact ⟨rfl, rfl⟩
  split at converted
  · exact ofMap _ _ id converted
  split at converted
  · exact ofMap _ _ id converted
  split at converted
  · exact ofMap _ _ id converted
  split at converted
  · rw [← Option.some.inj converted]
    exact printed _
  split at converted
  · exact ofMap _ _ Prod.snd converted
  · rw [← Option.some.inj converted]
    exact ⟨rfl, rfl⟩

/-! ### The loops over the format -/

/-- The rest of `printf` from `state` on, in a mode, ends in `final`. -/
def Continues (call : PrintfCall) (final : Printing) : Mode → Printing → Prop
  | .literal, state => EndsWith (fun rounds => call.printfLoop rounds state) final
  | .conversion alternate, state =>
      ∃ middle, EndsWith (fun rounds => call.formatCharSwitch rounds alternate state) middle ∧
        EndsWith (fun rounds => call.printfLoop rounds middle.advance) final

/-- The state at the end of the format, `text` being the rest of it. -/
def atEnd (call : PrintfCall) (string : Nat → Bytes) (mode : Mode) (text : Bytes)
    (state : Printing) : Printing :=
  { buf := state.buf + text.length
    esp := (pieces mode text).foldl (fun esp piece => piece.nextArgument esp) state.esp
    output := state.output ++ documented string call.arguments state.esp (pieces mode text)
    reads := state.reads ++ List.range' state.buf (text.length + 1) }

/-- Reading a character that is no piece. -/
theorem atEnd_skip {mode next : Mode} {char : UInt8} {text : Bytes} {state : Printing}
    (skip : pieces mode (char :: text) = pieces next text) :
    call.atEnd string next text state.read.advance =
      call.atEnd string mode (char :: text) state := by
  simp [atEnd, skip, Printing.read, Printing.advance, Nat.add_assoc, Nat.add_comm 1,
    List.range'_succ]

/-- Reading a character that makes a piece. -/
theorem atEnd_piece {mode : Mode} {piece : Piece} {char : UInt8} {text : Bytes} {state : Printing}
    (taken : pieces mode (char :: text) = piece :: pieces .literal text) :
    call.atEnd string .literal text (call.afterPiece string piece state.read).advance =
      call.atEnd string mode (char :: text) state := by
  simp [atEnd, taken, documented, afterPiece, Printing.read, Printing.advance, Printing.print,
    Nat.add_assoc, Nat.add_comm 1, List.range'_succ]

/-- The rest of a complete format is printed as documented. -/
theorem continues_atEnd (mode : Mode) (text : Bytes) (state : Printing)
    (stands : StandsAt call.memory (call.format + state.buf) text)
    (complete : text.foldl Mode.next mode = .literal)
    (matching : Matching call.memory string call.arguments state.esp (pieces mode text)) :
    call.Continues (call.atEnd string mode text state) mode state := by
  induction text generalizing mode state with
  | nil =>
      have literal : mode = .literal := complete
      have nul : call.memory (call.format + state.buf) = 0 := stands
      subst mode
      have ends : EndsWith (fun _ => some state.read)
          (call.atEnd string .literal [] state) := by
        simpa [atEnd, pieces, documented, Printing.read] using EndsWith.pure state.read
      refine EndsWith.round (fun rounds => ?_) ends
      simp [printfLoop, nul]
  | cons char text inductionHypothesis =>
      obtain ⟨nonNul, here, behind⟩ := stands
      cases mode with
      | literal =>
          by_cases percent : char = 0x25
          · have skip : pieces .literal (char :: text) = pieces (.conversion false) text := by
              rw [pieces, if_pos percent]
            have next : Mode.next .literal char = .conversion false := if_pos percent
            rw [List.foldl_cons, next] at complete
            rw [skip] at matching
            obtain ⟨middle, converts, ends⟩ :=
              inductionHypothesis _ state.read.advance behind complete matching
            rw [atEnd_skip skip] at ends
            have both : EndsWith (fun rounds =>
                (call.formatCharSwitch rounds false state.read.advance).bind fun middle =>
                  call.printfLoop rounds middle.advance)
                (call.atEnd string .literal (char :: text) state) := converts.bind ends
            refine EndsWith.round (fun rounds => ?_) both
            simp [printfLoop, here, percent]
          · have taken : pieces .literal (char :: text) =
                .literal char :: pieces .literal text := by
              rw [pieces, if_neg percent]
            have next : Mode.next .literal char = .literal := if_neg percent
            rw [List.foldl_cons, next] at complete
            rw [taken] at matching
            have ends := inductionHypothesis _
              (call.afterPiece string (.literal char) state.read).advance
              behind complete matching.2
            rw [atEnd_piece taken] at ends
            refine EndsWith.round (fun rounds => ?_) ends
            simp [printfLoop, here, nonNul, percent]
            rfl
      | conversion alternate =>
          by_cases sharp : char = 0x23
          · have skip : pieces (.conversion alternate) (char :: text) =
                pieces (.conversion true) text := by
              rw [pieces, if_pos sharp]
            have next : Mode.next (.conversion alternate) char = .conversion true := if_pos sharp
            rw [List.foldl_cons, next] at complete
            rw [skip] at matching
            obtain ⟨middle, converts, ends⟩ :=
              inductionHypothesis _ state.read.advance behind complete matching
            rw [atEnd_skip skip] at ends
            refine ⟨middle, EndsWith.round (fun rounds => ?_) converts, ends⟩
            simp [formatCharSwitch, here, sharp]
          · have taken : pieces (.conversion alternate) (char :: text) =
                .conversion alternate char :: pieces .literal text := by
              rw [pieces, if_neg sharp]
            have next : Mode.next (.conversion alternate) char = .literal := if_neg sharp
            rw [List.foldl_cons, next] at complete
            rw [taken] at matching
            have ends := inductionHypothesis _
              (call.afterPiece string (.conversion alternate char) state.read).advance
              behind complete matching.2
            rw [atEnd_piece taken] at ends
            have converts : EndsWith (fun rounds => call.convert rounds alternate char state.read)
                (call.afterPiece string (.conversion alternate char) state.read) :=
              endsWith_convert matching.1
            refine ⟨_, EndsWith.round (fun rounds => ?_) converts, ends⟩
            simp [formatCharSwitch, here, sharp]

end PrintfCall

end MonolithicKernel.Lib
