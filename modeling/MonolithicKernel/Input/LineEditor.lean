import MonolithicKernel.Input.LineBounds

/-!
Owns what a line is: an editor that appends, erases and ends lines, the edit that
each key stands for, and the displayed buffer as an implementation of one line of
it. The driver applies the edit of a key to the buffer, whatever the buffer holds.

Does not own reads, nor when the buffer holds the line that is being typed.
-/

namespace MonolithicKernel.Input

open MonolithicKernel.Lib
open MonolithicKernel.Process (Terminal)

inductive Edit where
  | char (byte : UInt8)
  | enter
  | erase
deriving DecidableEq, Repr

/-- The line that is being typed, and the lines with an Enter behind them. -/
structure Editor where
  current : Bytes
  finished : List Bytes

def Editor.edit (editor : Editor) : Edit → Editor
  | .char byte => { editor with current := editor.current ++ [byte] }
  | .enter => ⟨[], editor.finished ++ [editor.current]⟩
  | .erase => { editor with current := editor.current.dropLast }

/-! ### Keys -/

def Keyboard.keyMap (keyboard : Keyboard) : KeyMap :=
  match keyboard.shiftState, keyboard.capsState with
  | false, false => .plain
  | true, false => .shift
  | false, true => .caps
  | true, true => .capsShift

/-- The edit that a scan code stands for. -/
def Keyboard.edit (behind : KeyMap → UInt8 → UInt8) (keyboard : Keyboard) (scanCode : UInt8) :
    Option Edit :=
  if KeyMap.plain.lookup behind scanCode = 0 then
    if scanCode = 0x1C then some .enter
    else if scanCode = 0x0E then some .erase
    else none
  else if keyboard.ctrlState = false ∧ scanCode ≤ 0x58 then
    some (.char (keyboard.keyMap.lookup behind scanCode))
  else none

/-- What the driver does to the lines for an edit. -/
def Lines.apply (lines : Lines) : Edit → Lines
  | .char byte => if lines.bufferIndex < 127 then lines.typeByte byte else lines
  | .enter => lines.enter
  | .erase => lines.keyboardBackspace

section Keys

variable {behind : KeyMap → UInt8 → UInt8} (freePid : Bool) {scanCode : UInt8}
  {keyboard : Keyboard}

theorem lines_typeKeys (low : scanCode ≤ 0x58) (noControl : keyboard.ctrlState = false) :
    (typeKey behind scanCode .capsShift true true
      (typeKey behind scanCode .caps false true
        (typeKey behind scanCode .shift true false
          (typeKey behind scanCode .plain false false keyboard)))).lines =
      keyboard.lines.typeByte (keyboard.keyMap.lookup behind scanCode) := by
  rcases keyboard with ⟨ctrl, shift, alt, caps, dirty, lines⟩
  cases noControl
  cases shift <;> cases caps <;> simp [typeKey, low, Keyboard.keyMap]

theorem typeKeys_ignored (ignored : ¬ (keyboard.ctrlState = false ∧ scanCode ≤ 0x58)) :
    typeKey behind scanCode .capsShift true true
      (typeKey behind scanCode .caps false true
        (typeKey behind scanCode .shift true false
          (typeKey behind scanCode .plain false false keyboard))) = keyboard := by
  have skipped : ∀ keyMap shift caps, typeKey behind scanCode keyMap shift caps keyboard =
      keyboard := fun _ _ _ => if_neg fun taken => ignored ⟨taken.1, taken.2.2.2⟩
  rw [skipped, skipped, skipped, skipped]

theorem lines_of_edit {edit : Edit} (isEdit : keyboard.edit behind scanCode = some edit) :
    (keyboardHandler behind freePid scanCode keyboard).lines = keyboard.lines.apply edit := by
  unfold Keyboard.edit at isEdit
  unfold keyboardHandler
  split_ifs at isEdit with special isEnter isErase typed
  · cases isEdit
    rw [if_pos special, if_pos isEnter]
    rfl
  · cases isEdit
    rw [if_pos special, if_neg isEnter, if_pos isErase]
    rfl
  · cases isEdit
    rw [if_neg special, Lines.apply]
    split_ifs
    · exact lines_typeKeys typed.2 typed.1
    · rfl

/-- A key that edits nothing shows another terminal, or leaves the lines alone. -/
theorem lines_of_no_edit (noEdit : keyboard.edit behind scanCode = none) :
    (keyboardHandler behind freePid scanCode keyboard).lines = keyboard.lines ∨
      ∃ termId, (keyboardHandler behind freePid scanCode keyboard).lines =
        keyboard.lines.switchTerminal termId freePid := by
  have branch := @lines_ite fun lines =>
    lines = keyboard.lines ∨ ∃ termId, lines = keyboard.lines.switchTerminal termId freePid
  unfold Keyboard.edit at noEdit
  unfold keyboardHandler
  split_ifs at noEdit with special isEnter isErase typed
  · rw [if_pos special, if_neg isEnter, if_neg isErase]
    -- Modifier keys and Tab leave the lines alone.
    iterate 9 refine branch (fun _ => .inl rfl) ?_
    exact branch (fun _ => .inr ⟨_, rfl⟩) (.inl rfl)
  · rw [if_neg special, typeKeys_ignored typed]
    exact branch (fun _ => .inl rfl) (.inl rfl)

theorem switchTerminal_of_displayed {lines : Lines} {termId : Terminal}
    (displayed : (lines.switchTerminal termId freePid).currentTerminal = lines.currentTerminal) :
    lines.switchTerminal termId freePid = lines := by
  unfold Lines.switchTerminal at displayed ⊢
  split_ifs at displayed ⊢ with same refused
  · rfl
  · rfl
  · exact absurd displayed same

/-- Under one displayed terminal, keys that edit nothing leave the lines alone. -/
theorem lines_of_displayed (noEdit : keyboard.edit behind scanCode = none)
    (displayed : (keyboardHandler behind freePid scanCode keyboard).lines.currentTerminal =
      keyboard.lines.currentTerminal) :
    (keyboardHandler behind freePid scanCode keyboard).lines = keyboard.lines := by
  rcases lines_of_no_edit freePid noEdit with same | ⟨termId, switched⟩
  · exact same
  · rw [switched] at displayed ⊢
    exact switchTerminal_of_displayed freePid displayed

end Keys

/-! ### The buffer as a line -/

/-- The first `n` bytes of the displayed buffer. -/
def Lines.contents (lines : Lines) (n : Nat) : Bytes :=
  (List.range n).map fun i => lines.terminalBuffers (lines.terminalBuffer + i)

/-- The displayed buffer holds exactly this line. -/
structure Lines.Holds (lines : Lines) (line : Bytes) : Prop where
  length : lines.bufferIndex.toNat = line.length
  contents : lines.contents line.length = line

section Buffer

variable {lines : Lines} {line : Bytes}

/-- Stores behind the first `n` cells do not change them. -/
theorem contents_update {n cell : Nat} (behindEnd : n ≤ cell) (byte : UInt8) :
    (List.range n).map (fun i => Function.update lines.terminalBuffers
        (lines.terminalBuffer + cell) byte (lines.terminalBuffer + i)) = lines.contents n := by
  apply List.map_congr_left
  intro i member
  have below := List.mem_range.mp member
  exact Function.update_of_ne (by omega) ..

theorem Lines.Holds.typeByte (holds : lines.Holds line) (room : line.length < 128) (byte : UInt8) :
    (lines.typeByte byte).Holds (line ++ [byte]) := by
  have length := holds.length
  constructor
  · show (lines.bufferIndex + 1).toNat = _
    rw [toNat_succ (by omega), length, List.length_append, List.length_singleton]
  · rw [List.length_append, List.length_singleton, Lines.contents, List.range_succ,
      List.map_append]
    congr 1
    · show (List.range line.length).map (fun i => Function.update lines.terminalBuffers
        (lines.terminalBuffer + lines.bufferIndex.toNat) byte (lines.terminalBuffer + i)) = line
      rw [contents_update length.ge]
      exact holds.contents
    · show [Function.update lines.terminalBuffers
        (lines.terminalBuffer + lines.bufferIndex.toNat) byte
          (lines.terminalBuffer + line.length)] = [byte]
      rw [length, Function.update_self]

theorem dropLast_contents (lines : Lines) (n : Nat) :
    (lines.contents (n + 1)).dropLast = lines.contents n := by
  rw [Lines.contents, List.range_succ, List.map_append, List.map_singleton, List.dropLast_concat]
  rfl

theorem Lines.Holds.keyboardBackspace (holds : lines.Holds line) :
    lines.keyboardBackspace.Holds line.dropLast := by
  have length := holds.length
  unfold Lines.keyboardBackspace
  split_ifs with empty
  · have none : line.length = 0 := by
      rw [← length, empty]
      rfl
    rw [List.length_eq_zero_iff.mp none] at holds ⊢
    exact holds
  · have before := toNat_pred empty
    have shorter : line.dropLast.length = (lines.bufferIndex - 1).toNat := by
      rw [List.length_dropLast, before, length]
    have nonempty : line.length = line.dropLast.length + 1 := by
      have positive : lines.bufferIndex.toNat ≠ 0 := fun zero => empty (UInt8.toNat_inj.mp zero)
      rw [List.length_dropLast]
      omega
    constructor
    · exact shorter.symm
    · show (List.range line.dropLast.length).map (fun i => Function.update lines.terminalBuffers
        (lines.terminalBuffer + (lines.bufferIndex - 1).toNat) 0 (lines.terminalBuffer + i)) = _
      rw [contents_update shorter.le]
      calc lines.contents line.dropLast.length
          = (lines.contents line.length).dropLast := by rw [nonempty, dropLast_contents]
        _ = line.dropLast := by rw [holds.contents]

end Buffer

end MonolithicKernel.Input
