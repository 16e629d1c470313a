import MonolithicKernel.Lib.Printf

/-!
Owns the end of the format: which formats `printf` reads exactly up to their
NUL. A format that ends inside a conversion is read past it, since the inner
`switch` takes the NUL for the character of the conversion and the `buf++`
behind the conversions steps over it.

Does not own the conversions.
-/

namespace MonolithicKernel.Lib

open MonolithicKernel.Foundation

namespace PrintfCall

variable {call : PrintfCall}

/-! ### What is read -/

/-- Reads are only added by the jumps of `#`. -/
theorem reads_formatCharSwitch {rounds : Nat} {alternate : Bool} {state middle : Printing}
    (switched : call.formatCharSwitch rounds alternate state = some middle) :
    state.reads <+: middle.reads := by
  induction rounds generalizing alternate state with
  | zero => cases switched
  | succ rounds inductionHypothesis =>
      rw [formatCharSwitch] at switched
      split at switched
      · exact (List.prefix_append _ _).trans (inductionHypothesis switched)
      · rw [(buf_reads_convert switched).2]
        exact List.prefix_append _ _

/-- The loop reads the character it stands at, behind all that was read. -/
theorem reads_printfLoop {rounds : Nat} {state final : Printing}
    (ends : call.printfLoop rounds state = some final) :
    state.reads ++ [state.buf] <+: final.reads := by
  induction rounds generalizing state with
  | zero => cases ends
  | succ rounds inductionHypothesis =>
      rw [printfLoop] at ends
      split at ends
      · rw [← Option.some.inj ends]
        exact List.prefix_refl _
      · obtain ⟨middle, switched, rest⟩ := Option.bind_eq_some_iff.mp ends
        have later : middle.reads <+: final.reads :=
          (List.prefix_append middle.advance.reads _).trans (inductionHypothesis rest)
        refine List.IsPrefix.trans ?_ later
        split at switched
        · exact reads_formatCharSwitch switched
        · rw [← Option.some.inj switched]
          exact List.prefix_refl _

theorem buf_mem_reads {rounds : Nat} {state final : Printing}
    (ends : call.printfLoop rounds state = some final) : state.buf ∈ final.reads :=
  (reads_printfLoop ends).subset (by simp)

/-- The rest of `printf` from `state` on, in a mode, reads `offset` if it ends. -/
def Passes (call : PrintfCall) (offset : Nat) : Mode → Printing → Prop
  | .literal, state =>
      ∀ rounds final, call.printfLoop rounds state = some final → offset ∈ final.reads
  | .conversion alternate, state =>
      ∀ rounds middle, call.formatCharSwitch rounds alternate state = some middle →
        ∀ rounds final, call.printfLoop rounds middle.advance = some final → offset ∈ final.reads

/-- A format that ends inside a conversion is read behind its NUL. -/
theorem passes_of_incomplete (mode : Mode) (text : Bytes) (state : Printing)
    (stands : StandsAt call.memory (call.format + state.buf) text)
    (incomplete : text.foldl Mode.next mode ≠ .literal) :
    call.Passes (state.buf + text.length + 1) mode state := by
  induction text generalizing mode state with
  | nil =>
      have nul : call.memory (call.format + state.buf) = 0 := stands
      cases mode with
      | literal => exact absurd rfl incomplete
      | conversion alternate =>
          intro rounds middle switched rounds' final ends
          cases rounds with
          | zero => cases switched
          | succ rounds =>
              -- The NUL is the character of an unknown conversion.
              rw [formatCharSwitch] at switched
              rw [nul, if_neg (by decide)] at switched
              have place : middle.buf = state.buf := (buf_reads_convert switched).1
              have behind := buf_mem_reads ends
              rw [Printing.advance, place] at behind
              exact behind
  | cons char text inductionHypothesis =>
      obtain ⟨nonNul, here, behind⟩ := stands
      have place : state.buf + (char :: text).length + 1 = state.buf + 1 + text.length + 1 := by
        rw [List.length_cons]
        omega
      rw [place]
      rw [List.foldl_cons] at incomplete
      cases mode with
      | literal =>
          intro rounds final ends
          cases rounds with
          | zero => cases ends
          | succ rounds =>
              rw [printfLoop] at ends
              rw [here, if_neg nonNul] at ends
              obtain ⟨middle, switched, rest⟩ := Option.bind_eq_some_iff.mp ends
              by_cases percent : char = 0x25
              · rw [if_pos percent] at switched
                have next : Mode.next .literal char = .conversion false := if_pos percent
                rw [next] at incomplete
                exact inductionHypothesis _ state.read.advance behind incomplete
                  _ _ switched _ _ rest
              · rw [if_neg percent] at switched
                have next : Mode.next .literal char = .literal := if_neg percent
                rw [next] at incomplete
                rw [← Option.some.inj switched] at rest
                exact inductionHypothesis _ (state.read.print [char]).advance behind incomplete
                  _ _ rest
      | conversion alternate =>
          intro rounds middle switched rounds' final ends
          cases rounds with
          | zero => cases switched
          | succ rounds =>
              rw [formatCharSwitch] at switched
              rw [here] at switched
              by_cases sharp : char = 0x23
              · rw [if_pos sharp] at switched
                have next : Mode.next (.conversion alternate) char = .conversion true :=
                  if_pos sharp
                rw [next] at incomplete
                exact inductionHypothesis _ state.read.advance behind incomplete
                  _ _ switched _ _ ends
              · rw [if_neg sharp] at switched
                have next : Mode.next (.conversion alternate) char = .literal := if_neg sharp
                rw [next] at incomplete
                have moved : middle.advance.buf = state.buf + 1 :=
                  congrArg (· + 1) (buf_reads_convert switched).1
                have passes := inductionHypothesis .literal middle.advance
                  (by rw [moved]; exact behind) incomplete
                rw [moved] at passes
                exact passes _ _ ends

/-! ### Exact formats -/

/-- The call ends, reads its format up to the NUL and no further, returns the
length, and prints what is documented. -/
def PrintsExactly (call : PrintfCall) (text : Bytes) (string : Nat → Bytes) : Prop :=
  ∃ printed, EndsWith call.printf printed ∧
    (∀ offset ∈ printed.reads, offset ≤ text.length) ∧
    printed.returned = text.length ∧
    printed.output = documented string call.arguments 0 (pieces .literal text)

theorem printsExactly_of_complete {text : Bytes} {string : Nat → Bytes}
    (stands : StandsAt call.memory call.format text)
    (matching : Matching call.memory string call.arguments 0 (pieces .literal text))
    (complete : Complete text) : call.PrintsExactly text string := by
  have ends := continues_atEnd .literal text { buf := 0, esp := 0, output := [], reads := [] }
    stands complete matching
  refine ⟨_, EndsWith.map _ ends, ?_, ?_, ?_⟩
  · intro offset member
    have inRange : offset ∈ List.range' 0 (text.length + 1) := by simpa [atEnd] using member
    have bounds := List.mem_range'_1.mp inRange
    omega
  · exact Nat.zero_add _
  · exact List.nil_append _

theorem not_printsExactly_of_incomplete {text : Bytes} {string : Nat → Bytes}
    (stands : StandsAt call.memory call.format text) (incomplete : ¬ Complete text) :
    ¬ call.PrintsExactly text string := by
  intro exact
  obtain ⟨printed, ends, bounded, -⟩ := exact
  obtain ⟨rounds, ended⟩ := ends.exists_eq_some
  obtain ⟨final, loopEnded, same⟩ := Option.map_eq_some_iff.mp ended
  have past := passes_of_incomplete .literal text
    { buf := 0, esp := 0, output := [], reads := [] } stands incomplete rounds final loopEnded
  rw [← same] at bounded
  have within := bounded _ past
  omega

/-- **Exact formats.** With matching arguments, `printf` reads exactly its
format, returns its length and prints its documented output exactly when the
format does not end inside a conversion. -/
theorem printsExactly_iff {text : Bytes} {string : Nat → Bytes}
    (stands : StandsAt call.memory call.format text)
    (matching : Matching call.memory string call.arguments 0 (pieces .literal text)) :
    call.PrintsExactly text string ↔ Complete text := by
  constructor
  · intro exact
    by_contra incomplete
    exact not_printsExactly_of_incomplete stands incomplete exact
  · exact printsExactly_of_complete stands matching

/-- The format `%s!` and the string `hi` behind it. -/
def greeting : PrintfCall where
  memory := storeBytes (fun _ => 0) 0 [0x25, 0x73, 0x21, 0x00, 0x68, 0x69, 0x00]
  format := 0
  arguments := fun _ => 4
  convBuf := fun _ _ => 0

theorem printsExactly_greeting :
    greeting.PrintsExactly [0x25, 0x73, 0x21] fun _ => [0x68, 0x69] := by
  have stands : StandsAt greeting.memory greeting.format [0x25, 0x73, 0x21] := by decide
  have matching : Matching greeting.memory (fun _ => [0x68, 0x69]) greeting.arguments 0
      (pieces .literal [0x25, 0x73, 0x21]) := ⟨fun _ => by decide, by decide, trivial⟩
  exact (printsExactly_iff stands matching).mpr (by decide)

/-- The format `%`, and the character `A` behind its NUL. -/
def danglingPercent : PrintfCall where
  memory := storeBytes (fun _ => 0) 0 [0x25, 0x00, 0x41, 0x00]
  format := 0
  arguments := fun _ => 0
  convBuf := fun _ _ => 0

example : (danglingPercent.printf 5).map (fun printed => (printed.returned, printed.output)) =
    some (3, [0x41]) := by decide

/-- Some format with matching arguments is not printed exactly. -/
theorem not_forall_printsExactly :
    ¬ ∀ (call : PrintfCall) (text : Bytes) (string : Nat → Bytes),
      StandsAt call.memory call.format text →
        Matching call.memory string call.arguments 0 (pieces .literal text) →
          call.PrintsExactly text string := by
  intro holds
  have stands : StandsAt danglingPercent.memory danglingPercent.format [0x25] := by decide
  exact not_printsExactly_of_incomplete stands (by decide)
    (holds danglingPercent [0x25] (fun _ => []) stands trivial)

end PrintfCall

end MonolithicKernel.Lib
