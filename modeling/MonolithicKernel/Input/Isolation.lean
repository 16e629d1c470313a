import MonolithicKernel.Input.LineBounds

/-!
Owns whose bytes a read returns. `enter_state` is kept for each terminal, while
`terminal_buffer` and `buffer_index` follow the display, so a read stays with the
line of its own terminal as long as it goes on only while that terminal is
displayed.

The invariant says where every pending byte was typed. It leaves out a line that
is being cleared, because `buffer_index` is reset behind the loop.
-/

namespace MonolithicKernel.Input

open MonolithicKernel.Foundation
open MonolithicKernel.Lib
open MonolithicKernel.Process (Terminal)

/-- The number of bytes pending on a terminal. -/
def Lines.length (lines : Lines) (terminal : Terminal) : Nat :=
  if terminal = lines.currentTerminal then lines.bufferIndex.toNat
  else (lines.bufferIndices terminal).toNat

/-- The line typed but not yet read on a terminal. -/
def Lines.pending (lines : Lines) (terminal : Terminal) : Bytes :=
  (List.range (lines.length terminal)).map fun i => lines.terminalBuffers (terminal.val * 128 + i)

/-- All bytes that reads have returned were typed on the reader's terminal. -/
def ReturnsOwn (machine : Machine) : Prop :=
  ∀ terminal bytes, machine.readers terminal = .returned bytes →
    ∀ byte ∈ bytes, byte.2 = some terminal

/-- A step of a read leaves the lines pending on other terminals alone. -/
def KeepsPending (machine : Machine) : Label → Prop
  | .proceed terminal => ∀ next, machine.proceed terminal = some next → ∀ other, other ≠ terminal →
      next.keyboard.lines.pending other = machine.keyboard.lines.pending other
  | _ => True

/-- A read copies and clears only while its own terminal is displayed, and it
copies no more than the line still holds. -/
def ReadStage.Displayed (lines : Lines) (terminal : Terminal) : ReadStage → Prop
  | .counted nbytes => lines.currentTerminal = terminal ∧ nbytes ≤ lines.bufferIndex.toNat
  | .clearing _ _ => lines.currentTerminal = terminal
  | _ => True

instance (lines : Lines) (terminal : Terminal) (stage : ReadStage) :
    Decidable (stage.Displayed lines terminal) := by
  cases stage <;> unfold ReadStage.Displayed <;> infer_instance

/-- Reads go on only with their own line, and Enter is pressed only with room. -/
def ReadsDisplayed (machine : Machine) : Label → Prop
  | .key scanCode freePid => EnterFits machine (.key scanCode freePid)
  | .call _ _ _ _ => True
  | .proceed terminal => (machine.readers terminal).Displayed machine.keyboard.lines terminal

instance (machine : Machine) (label : Label) : Decidable (ReadsDisplayed machine label) := by
  cases label
  · exact inferInstanceAs (Decidable (_ → _))
  · exact instDecidableTrue
  · exact inferInstanceAs (Decidable (ReadStage.Displayed _ _ _))

section Lines

variable {lines : Lines} {terminal other : Terminal}

/-! ### Lengths and cells -/

theorem Lines.InBounds.length_le (inBounds : lines.InBounds) (terminal : Terminal) :
    lines.length terminal ≤ 128 := by
  unfold Lines.length
  split
  · exact inBounds.bufferIndex
  · exact inBounds.bufferIndices terminal

theorem Lines.length_displayed (displayed : terminal = lines.currentTerminal) :
    lines.length terminal = lines.bufferIndex.toNat :=
  if_pos displayed

theorem Lines.length_hidden (hidden : terminal ≠ lines.currentTerminal) :
    lines.length terminal = (lines.bufferIndices terminal).toNat :=
  if_neg hidden

/-- Cells of two regions differ. -/
theorem cell_ne {i j : Nat} (differ : other ≠ terminal) (first : i < 128) (second : j < 128) :
    other.val * 128 + i ≠ terminal.val * 128 + j := by
  have different := Fin.val_ne_of_ne differ
  omega

/-- A switch saves one length and takes up another. -/
theorem Lines.length_switchTerminal (lines : Lines) (termId : Terminal) (freePid : Bool)
    (terminal : Terminal) :
    (lines.switchTerminal termId freePid).length terminal = lines.length terminal := by
  unfold Lines.switchTerminal
  split
  · rfl
  · rename_i differ
    split
    · rfl
    · unfold Lines.length
      dsimp only
      by_cases here : terminal = termId
      · subst here
        rw [if_pos rfl, if_neg differ, Function.update_of_ne differ]
      · rw [if_neg here]
        by_cases displayed : terminal = lines.currentTerminal
        · subst displayed
          rw [Function.update_self, if_pos rfl]
        · rw [Function.update_of_ne displayed, if_neg displayed]

theorem Lines.typedOn_switchTerminal (lines : Lines) (termId : Terminal) (freePid : Bool) :
    (lines.switchTerminal termId freePid).typedOn = lines.typedOn := by
  unfold Lines.switchTerminal
  split
  · rfl
  · split
    · rfl
    · rfl

/-! ### Where the pending bytes were typed -/

/-- Every byte pending on a terminal was typed on it. -/
def Lines.TypedOn (lines : Lines) (terminal : Terminal) : Prop :=
  ∀ i, i < lines.length terminal → lines.typedOn (terminal.val * 128 + i) = some terminal

theorem Lines.TypedOn.typeByte (typed : lines.TypedOn terminal) (inBounds : lines.InBounds)
    (points : lines.PointsAtDisplayed) (room : lines.bufferIndex.toNat < 128) (byte : UInt8) :
    (lines.typeByte byte).TypedOn terminal := by
  intro i inLine
  show Function.update lines.typedOn (lines.terminalBuffer + lines.bufferIndex.toNat)
    (some lines.currentTerminal) (terminal.val * 128 + i) = some terminal
  rw [points]
  by_cases displayed : terminal = lines.currentTerminal
  · subst displayed
    have bound : i < (lines.bufferIndex + 1).toNat :=
      inLine.trans_eq (Lines.length_displayed rfl)
    rw [toNat_succ room] at bound
    by_cases new : i = lines.bufferIndex.toNat
    · rw [new, Function.update_self]
    · rw [Function.update_of_ne (by omega)]
      apply typed
      rw [Lines.length_displayed rfl]
      omega
  · have inLine : i < lines.length terminal := by
      rw [Lines.length_hidden displayed]
      exact inLine.trans_eq (Lines.length_hidden displayed)
    have bound := inBounds.length_le terminal
    rw [Function.update_of_ne (cell_ne displayed (by omega) room)]
    exact typed i inLine

theorem Lines.TypedOn.keyboardBackspace (typed : lines.TypedOn terminal)
    (inBounds : lines.InBounds) (points : lines.PointsAtDisplayed) :
    lines.keyboardBackspace.TypedOn terminal := by
  unfold Lines.keyboardBackspace
  split
  · exact typed
  · rename_i nonzero
    have before := toNat_pred nonzero
    have index := inBounds.bufferIndex
    intro i inLine
    show Function.update lines.typedOn (lines.terminalBuffer + (lines.bufferIndex - 1).toNat) none
      (terminal.val * 128 + i) = some terminal
    rw [points]
    by_cases displayed : terminal = lines.currentTerminal
    · subst displayed
      have bound : i < (lines.bufferIndex - 1).toNat :=
        inLine.trans_eq (Lines.length_displayed rfl)
      rw [Function.update_of_ne (by omega)]
      apply typed
      rw [Lines.length_displayed rfl]
      omega
    · have inLine : i < lines.length terminal := by
        rw [Lines.length_hidden displayed]
        exact inLine.trans_eq (Lines.length_hidden displayed)
      have bound := inBounds.length_le terminal
      have nonzero : lines.bufferIndex.toNat ≠ 0 := fun zero => nonzero (UInt8.toNat_inj.mp zero)
      rw [Function.update_of_ne (cell_ne displayed (by omega) (by omega))]
      exact typed i inLine

theorem Lines.TypedOn.move {scanCode : UInt8} {lines' : Lines} (typed : lines.TypedOn terminal)
    (inBounds : lines.InBounds) (points : lines.PointsAtDisplayed)
    (fits : scanCode = 0x1C → lines.bufferIndex.toNat < 128)
    (move : LineMove scanCode lines lines') : lines'.TypedOn terminal := by
  cases move with
  | keep => exact typed
  | typed byte room =>
      have room := UInt8.lt_iff_toNat_lt.mp room
      have limit : (127 : UInt8).toNat = 127 := rfl
      exact typed.typeByte inBounds points (by omega) byte
  | entered enter => exact typed.typeByte inBounds points (fits enter) 0x0A
  | erased => exact typed.keyboardBackspace inBounds points
  | switched termId freePid =>
      intro i inLine
      rw [Lines.length_switchTerminal] at inLine
      rw [Lines.typedOn_switchTerminal]
      exact typed i inLine

end Lines

/-! ### Reads -/

/-- What a read has copied, if it has. -/
def ReadStage.copied : ReadStage → List (UInt8 × Option Terminal)
  | .returned bytes => bytes
  | .clearing bytes _ => bytes
  | _ => []

/-- The read is clearing the line buffer. -/
def ReadStage.isClearing : ReadStage → Bool
  | .clearing _ _ => true
  | _ => false

structure IsolationOk (machine : Machine) : Prop extends BoundsOk machine where
  typed : ∀ terminal, (machine.readers terminal).isClearing = false →
    machine.keyboard.lines.TypedOn terminal
  copied : ∀ terminal, ∀ byte ∈ (machine.readers terminal).copied, byte.2 = some terminal

section Reads

variable {behind : KeyMap → UInt8 → UInt8} {machine machine' : Machine} {terminal : Terminal}

/-- The reader of one terminal comes to another stage, over lines that still hold
what the other terminals have pending. -/
theorem IsolationOk.setReader (ok : IsolationOk machine) {lines : Lines} {stage : ReadStage}
    (bounds : BoundsOk ((machine.setLines lines).setReader terminal stage))
    (typed : stage.isClearing = false → lines.TypedOn terminal)
    (others : ∀ other, other ≠ terminal → machine.keyboard.lines.TypedOn other → lines.TypedOn other)
    (copied : ∀ byte ∈ stage.copied, byte.2 = some terminal) :
    IsolationOk ((machine.setLines lines).setReader terminal stage) := by
  refine { toBoundsOk := bounds, typed := ?_, copied := ?_ }
  · intro other notClearing
    change (Function.update machine.readers terminal stage other).isClearing = false at notClearing
    by_cases here : other = terminal
    · subst here
      rw [Function.update_self] at notClearing
      exact typed notClearing
    · rw [Function.update_of_ne here] at notClearing
      exact others other here (ok.typed other notClearing)
  · intro other
    change ∀ byte ∈ (Function.update machine.readers terminal stage other).copied, _
    by_cases here : other = terminal
    · subst here
      rw [Function.update_self]
      exact copied
    · rw [Function.update_of_ne here]
      exact ok.copied other

/-- Each step of a read, while its terminal is displayed. -/
theorem isolated_proceed (ok : IsolationOk machine)
    (displayed : (machine.readers terminal).Displayed machine.keyboard.lines terminal)
    (taken : machine.proceed terminal = some machine') :
    IsolationOk machine' ∧ ∀ other, other ≠ terminal →
      machine'.keyboard.lines.pending other = machine.keyboard.lines.pending other := by
  have stepped : machine.step (fun _ _ => 0) (.proceed terminal) = some machine' := taken
  have bounds : BoundsOk machine' :=
    ⟨(inBounds_step_iff ok.toBoundsOk stepped).mpr trivial,
      pointsAtDisplayed_step ok.points stepped⟩
  unfold Machine.proceed at taken
  dsimp only at taken
  split at taken
  · cases taken
  · rename_i nbytes stage
    split at taken
    · cases taken
      exact ⟨ok, fun _ _ => rfl⟩
    · cases taken
      have typed := ok.typed terminal (by rw [stage]; rfl)
      exact ⟨ok.setReader bounds (fun _ => typed) (fun _ _ => id) (by simp [ReadStage.copied]),
        fun _ _ => rfl⟩
  · rename_i nbytes stage
    rw [stage] at displayed
    rcases displayed with ⟨shown, still⟩
    have typed := ok.typed terminal (by rw [stage]; rfl)
    cases taken
    refine ⟨ok.setReader bounds (by simp [ReadStage.isClearing]) (fun _ _ => id) ?_,
      fun _ _ => rfl⟩
    intro byte member
    rcases List.mem_map.mp member with ⟨i, inRange, rfl⟩
    have counted := List.mem_range.mp inRange
    show machine.keyboard.lines.typedOn (machine.keyboard.lines.terminalBuffer + i) = some terminal
    rw [ok.points, shown]
    apply typed
    rw [Lines.length_displayed shown.symm]
    omega
  · rename_i bytes i stage
    rw [stage] at displayed
    have shown : machine.keyboard.lines.currentTerminal = terminal := displayed
    have copied := ok.copied terminal
    rw [stage] at copied
    split at taken
    · rename_i inLoop
      cases taken
      have apart : ∀ other, other ≠ terminal → ∀ j, j < machine.keyboard.lines.length other →
          other.val * 128 + j ≠ machine.keyboard.lines.terminalBuffer + i := by
        intro other elsewhere j inLine
        have bound := ok.inBounds.length_le other
        rw [ok.points, shown]
        exact cell_ne elsewhere (by omega) inLoop
      refine ⟨ok.setReader bounds (by simp [ReadStage.isClearing]) ?_ copied, ?_⟩
      · intro other elsewhere typed j inLine
        exact (Function.update_of_ne (apart other elsewhere j inLine) ..).trans (typed j inLine)
      · intro other elsewhere
        apply List.map_congr_left
        intro j inRange
        exact Function.update_of_ne (apart other elsewhere j (List.mem_range.mp inRange)) ..
    · cases taken
      have sameLength : ∀ other, other ≠ terminal →
          Lines.length { machine.keyboard.lines with bufferIndex := 0 } other =
            machine.keyboard.lines.length other := by
        intro other elsewhere
        have hidden : other ≠ machine.keyboard.lines.currentTerminal := shown.symm ▸ elsewhere
        rw [Lines.length_hidden hidden, Lines.length_hidden (by exact hidden)]
      refine ⟨ok.setReader bounds ?_ ?_ copied, ?_⟩
      · intro _ j inLine
        rw [Lines.length_displayed (by exact shown.symm)] at inLine
        cases inLine
      · intro other elsewhere typed j inLine
        rw [sameLength other elsewhere] at inLine
        exact typed j inLine
      · intro other elsewhere
        exact congrArg (fun length => (List.range length).map fun i =>
          machine.keyboard.lines.terminalBuffers (other.val * 128 + i)) (sameLength other elsewhere)

theorem isolationOk_call {fd : Int} {isNull : Bool} {nbytes : Int} (ok : IsolationOk machine)
    (taken : machine.call terminal fd isNull nbytes = some machine') : IsolationOk machine' := by
  unfold Machine.call at taken
  split at taken
  · rename_i bytes stage
    have typed := ok.typed terminal (by rw [stage]; rfl)
    split_ifs at taken
    · cases taken
      exact ok
    · cases taken
      exact ok
    · cases taken
      exact ok
    · cases taken
      exact ok.setReader ⟨ok.inBounds, ok.points⟩ (fun _ => typed) (fun _ _ => id)
        (by simp [ReadStage.copied])
  · cases taken

theorem isolationOk_step {label : Label} (ok : IsolationOk machine)
    (condition : ReadsDisplayed machine label)
    (taken : machine.step behind label = some machine') : IsolationOk machine' := by
  cases label with
  | key scanCode freePid =>
      have bounds : BoundsOk machine' :=
        ⟨(inBounds_step_iff ok.toBoundsOk taken).mpr condition,
          pointsAtDisplayed_step ok.points taken⟩
      cases taken
      refine { toBoundsOk := bounds, typed := ?_, copied := ok.copied }
      intro terminal notClearing
      exact (ok.typed terminal notClearing).move ok.inBounds ok.points condition
        (lineMove_keyboardHandler behind freePid scanCode machine.keyboard)
  | call terminal fd isNull nbytes => exact isolationOk_call ok taken
  | proceed terminal => exact (isolated_proceed ok condition taken).1

theorem isolationOk_start : IsolationOk Machine.start := by
  refine { toBoundsOk := boundsOk_start, typed := ?_, copied := ?_ }
  · intro terminal _ i inLine
    have empty : Machine.start.keyboard.lines.length terminal = 0 := by
      unfold Lines.length
      split
      · rfl
      · rfl
    rw [empty] at inLine
    cases inLine
  · simp [Machine.start, ReadStage.copied]

/-- **Input isolation.** In a run from the initial statics whose reads copy and
clear only while their own terminal is displayed, and whose lines stay in bounds,
reads return only bytes typed on their own terminal, and no step of a read
changes the line pending on another terminal. -/
theorem isolated_of_readsDisplayed (behind : KeyMap → UInt8 → UInt8) (labels : List Label)
    (condition : Step.AllSteps (Machine.step behind) ReadsDisplayed Machine.start labels) :
    Step.AllStates (Machine.step behind) ReturnsOwn Machine.start labels ∧
      Step.AllSteps (Machine.step behind) KeepsPending Machine.start labels := by
  have kept : ∀ machine label machine', IsolationOk machine → ReadsDisplayed machine label →
      machine.step behind label = some machine' → IsolationOk machine' :=
    fun _ _ _ => isolationOk_step
  constructor
  · apply Step.allStates_of_allSteps kept _ isolationOk_start condition
    intro machine ok terminal bytes returned byte member
    apply ok.copied terminal byte
    rw [returned]
    exact member
  · apply Step.allSteps_of_allSteps kept _ isolationOk_start condition
    intro machine label machine' ok met taken
    cases label with
    | key scanCode freePid => trivial
    | call terminal fd isNull nbytes => trivial
    | proceed terminal => exact fun next goesOn => (isolated_proceed ok met goesOn).2

open Label in
/-- "a" and Enter on terminal 0, where a read waits for a whole line; the read
goes on to its end, and then terminal 1 is shown and "b" is typed. -/
def readThenSwitch : List Label :=
  [call 0 0 false 128, key 0x1E true, key 0x1C true] ++ .replicate 131 (proceed 0) ++
    [key 0x38 true, key 0x3C true, key 0xB8 true, key 0x30 true]

theorem isolated_readThenSwitch :
    Step.AllStates (Machine.step fun _ _ => 0) ReturnsOwn Machine.start readThenSwitch ∧
      Step.AllSteps (Machine.step fun _ _ => 0) KeepsPending Machine.start readThenSwitch :=
  isolated_of_readsDisplayed _ readThenSwitch (by decide +kernel)

open Label in
/-- The same keys, but terminal 1 is shown before the read on terminal 0 goes on. -/
def switchThenRead : List Label :=
  [call 0 0 false 128, key 0x1E true, key 0x1C true] ++
    [key 0x38 true, key 0x3C true, key 0xB8 true, key 0x30 true] ++ .replicate 131 (proceed 0)

theorem not_forall_isolated :
    ¬ ∀ behind labels, Step.AllStates (Machine.step behind) ReturnsOwn Machine.start labels ∧
      Step.AllSteps (Machine.step behind) KeepsPending Machine.start labels := by
  intro all
  have ran : (Step.run (Machine.step fun _ _ => 0) Machine.start switchThenRead).map
      (fun machine => ((machine.readers 0).isClearing, (machine.readers 0).copied)) =
        some (false, [(0x62, some 1)]) := by
    decide +kernel
  rcases Option.map_eq_some_iff.mp ran with ⟨final, finalEq, last⟩
  have returnsOwn := (all _ switchThenRead).1.final finalEq
  cases stage : final.readers 0 with
  | returned bytes =>
      rw [stage] at last
      cases last
      cases returnsOwn 0 _ stage _ List.mem_cons_self
  | waiting nbytes =>
      rw [stage] at last
      cases last
  | counted nbytes =>
      rw [stage] at last
      cases last
  | clearing bytes i =>
      rw [stage] at last
      cases last

end Reads

end MonolithicKernel.Input
