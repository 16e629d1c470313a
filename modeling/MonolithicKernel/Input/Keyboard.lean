import MonolithicKernel.Process.Kernel

/-!
Owns the keyboard driver as far as its line buffers go: `keyboard_handler`,
`keyboard_backspace`, `switch_terminal` and `terminal_read`. The handler runs
with interrupts disabled and is one step. A read is cut where interrupts can come
in: while it waits, behind its count, and before every cell that it clears.

A scan code from 64 on is looked up behind the end of its key map, where the
bytes are those the linker has put there.

Does not own the echo on the screen or which process reads when.
-/

namespace MonolithicKernel.Input

open MonolithicKernel.Lib
open MonolithicKernel.Process (Terminal)

/-! ### Key maps -/

inductive KeyMap where
  | plain
  | shift
  | caps
  | capsShift
deriving DecidableEq, Repr

/-- `key_map`, `key_map_shift`, `key_map_caps` and `key_map_caps_shift`, without
the zeros at their ends. -/
def KeyMap.keys : KeyMap → Bytes
  | .plain => [
      0x00, 0x00, 0x31, 0x32, 0x33, 0x34, 0x35, 0x36, 0x37, 0x38, 0x39, 0x30, 0x2D, 0x3D, 0x00,
      0x00, 0x71, 0x77, 0x65, 0x72, 0x74, 0x79, 0x75, 0x69, 0x6F, 0x70, 0x5B, 0x5D, 0x00,
      0x00, 0x61, 0x73, 0x64, 0x66, 0x67, 0x68, 0x6A, 0x6B, 0x6C, 0x3B, 0x27, 0x60,
      0x00, 0x5C, 0x7A, 0x78, 0x63, 0x76, 0x62, 0x6E, 0x6D, 0x2C, 0x2E, 0x2F, 0x00,
      0x00, 0x00, 0x20, 0x00]
  | .shift => [
      0x00, 0x00, 0x21, 0x40, 0x23, 0x24, 0x25, 0x5E, 0x26, 0x2A, 0x28, 0x29, 0x5F, 0x2B, 0x00,
      0x00, 0x51, 0x57, 0x45, 0x52, 0x54, 0x59, 0x55, 0x49, 0x4F, 0x50, 0x7B, 0x7D, 0x00,
      0x00, 0x41, 0x53, 0x44, 0x46, 0x47, 0x48, 0x4A, 0x4B, 0x4C, 0x3A, 0x22, 0x7E,
      0x00, 0x7C, 0x5A, 0x58, 0x43, 0x56, 0x42, 0x4E, 0x4D, 0x3C, 0x3E, 0x3F, 0x00,
      0x00, 0x00, 0x20, 0x00]
  | .caps => [
      0x00, 0x00, 0x31, 0x32, 0x33, 0x34, 0x35, 0x36, 0x37, 0x38, 0x39, 0x30, 0x2D, 0x3D, 0x00,
      0x00, 0x51, 0x57, 0x45, 0x52, 0x54, 0x59, 0x55, 0x49, 0x4F, 0x50, 0x5B, 0x5D, 0x00,
      0x00, 0x41, 0x53, 0x44, 0x46, 0x47, 0x48, 0x4A, 0x4B, 0x4C, 0x3B, 0x27, 0x60,
      0x00, 0x5C, 0x5A, 0x58, 0x43, 0x56, 0x42, 0x4E, 0x4D, 0x2C, 0x2E, 0x2F, 0x00,
      0x00, 0x00, 0x20, 0x00]
  | .capsShift => [
      0x00, 0x00, 0x21, 0x40, 0x23, 0x24, 0x25, 0x5E, 0x26, 0x2A, 0x28, 0x29, 0x5F, 0x2B, 0x00,
      0x00, 0x71, 0x77, 0x65, 0x72, 0x74, 0x79, 0x75, 0x69, 0x6F, 0x70, 0x7B, 0x7D, 0x00,
      0x00, 0x61, 0x73, 0x64, 0x66, 0x67, 0x68, 0x6A, 0x6B, 0x6C, 0x3A, 0x22, 0x7E,
      0x00, 0x7C, 0x7A, 0x78, 0x63, 0x76, 0x62, 0x6E, 0x6D, 0x3C, 0x3E, 0x3F, 0x00,
      0x00, 0x00, 0x20, 0x00]

/-- The byte of a key map for a scan code; `behind` is what follows the tables. -/
def KeyMap.lookup (behind : KeyMap → UInt8 → UInt8) (keyMap : KeyMap) (scanCode : UInt8) : UInt8 :=
  if scanCode < 64 then keyMap.keys.getD scanCode.toNat 0 else behind keyMap scanCode

/-! ### Line buffers -/

/-- The line buffers and what the driver keeps for each terminal. -/
structure Lines where
  enterState : Terminal → Bool
  /-- The memory from `terminal_buffers` on. -/
  terminalBuffers : Nat → UInt8
  bufferIndices : Terminal → UInt8
  /-- `terminal_buffer`, by its distance from `terminal_buffers`. -/
  terminalBuffer : Nat
  bufferIndex : UInt8
  terminalActive : Terminal → Bool
  currentTerminal : Terminal
  /-- Not in the code: where the byte in a cell was typed, if it was typed. -/
  typedOn : Nat → Option Terminal
  /-- Not in the code: the cells that the handler has stored to, each with the
  terminal on display. -/
  stores : List (Terminal × Nat)

namespace Lines

/-- `terminal_buffer[buffer_index] = byte` in the keyboard handler. -/
def store (lines : Lines) (byte : UInt8) (typed : Option Terminal) : Lines :=
  let cell := lines.terminalBuffer + lines.bufferIndex.toNat
  { lines with
    terminalBuffers := Function.update lines.terminalBuffers cell byte
    typedOn := Function.update lines.typedOn cell typed
    stores := lines.stores ++ [(lines.currentTerminal, cell)] }

/-- A key is typed: the store and `buffer_index++`. -/
def typeByte (lines : Lines) (byte : UInt8) : Lines :=
  { lines.store byte (some lines.currentTerminal) with bufferIndex := lines.bufferIndex + 1 }

/-- The Enter key. -/
def enter (lines : Lines) : Lines :=
  { lines.typeByte 0x0A with
    enterState := Function.update lines.enterState lines.currentTerminal true }

/-- `keyboard_backspace`. -/
def keyboardBackspace (lines : Lines) : Lines :=
  if lines.bufferIndex = 0 then lines
  else { lines with bufferIndex := lines.bufferIndex - 1 }.store 0 none

/-- The buffer side of `switch_terminal`; `freePid` says that `get_free_pid`
finds one. -/
def switchTerminal (termId : Terminal) (freePid : Bool) (lines : Lines) : Lines :=
  if termId = lines.currentTerminal then lines
  else if freePid = false ∧ lines.terminalActive termId = false then lines
  else
    let bufferIndices := Function.update lines.bufferIndices lines.currentTerminal lines.bufferIndex
    { lines with
      bufferIndices := bufferIndices
      bufferIndex := bufferIndices termId
      terminalBuffer := termId.val * 128
      currentTerminal := termId
      terminalActive := Function.update lines.terminalActive termId true }

end Lines

/-! ### `keyboard_handler` -/

structure Keyboard where
  ctrlState : Bool
  shiftState : Bool
  altState : Bool
  capsState : Bool
  capsDirty : Bool
  lines : Lines

/-- One of the four branches for printable keys. -/
def typeKey (behind : KeyMap → UInt8 → UInt8) (scanCode : UInt8) (keyMap : KeyMap)
    (shift caps : Bool) (keyboard : Keyboard) : Keyboard :=
  if keyboard.ctrlState = false ∧ keyboard.shiftState = shift ∧ keyboard.capsState = caps ∧
      scanCode ≤ 0x58 then
    { keyboard with lines := keyboard.lines.typeByte (keyMap.lookup behind scanCode) }
  else keyboard

def keyboardHandler (behind : KeyMap → UInt8 → UInt8) (freePid : Bool) (scanCode : UInt8)
    (keyboard : Keyboard) : Keyboard :=
  if KeyMap.plain.lookup behind scanCode = 0 then
    if scanCode = 0x1C then { keyboard with lines := keyboard.lines.enter }
    else if scanCode = 0x0E then { keyboard with lines := keyboard.lines.keyboardBackspace }
    else if scanCode = 0x1D then { keyboard with ctrlState := true }
    else if scanCode = 0x9D then { keyboard with ctrlState := false }
    else if scanCode = 0x2A ∨ scanCode = 0x36 then { keyboard with shiftState := true }
    else if scanCode = 0xAA ∨ scanCode = 0xB6 then { keyboard with shiftState := false }
    else if scanCode = 0x3A ∧ keyboard.capsDirty = false then
      { keyboard with capsState := !keyboard.capsState, capsDirty := true }
    else if scanCode = 0xBA then { keyboard with capsDirty := false }
    else if scanCode = 0x0F then keyboard
    else if scanCode = 0x38 then { keyboard with altState := true }
    else if scanCode = 0xB8 then { keyboard with altState := false }
    else if keyboard.altState = true ∧ 0x3B ≤ scanCode ∧ scanCode ≤ 0x3D then
      { keyboard with
        lines := keyboard.lines.switchTerminal (Fin.ofNat 3 (scanCode.toNat - 0x3B)) freePid }
    else keyboard
  else if keyboard.lines.bufferIndex < 127 then
    typeKey behind scanCode .capsShift true true
      (typeKey behind scanCode .caps false true
        (typeKey behind scanCode .shift true false
          (typeKey behind scanCode .plain false false keyboard)))
  else keyboard

/-- What the handler does to the lines. -/
inductive LineMove (scanCode : UInt8) (lines : Lines) : Lines → Prop where
  | keep : LineMove scanCode lines lines
  | typed (byte : UInt8) : lines.bufferIndex < 127 → LineMove scanCode lines (lines.typeByte byte)
  | entered : scanCode = 0x1C → LineMove scanCode lines lines.enter
  | erased : LineMove scanCode lines lines.keyboardBackspace
  | switched (termId : Terminal) (freePid : Bool) :
      LineMove scanCode lines (lines.switchTerminal termId freePid)

theorem lineMove_printable (behind : KeyMap → UInt8 → UInt8) {scanCode : UInt8} {keyboard : Keyboard}
    (room : keyboard.lines.bufferIndex < 127) :
    LineMove scanCode keyboard.lines
      (typeKey behind scanCode .capsShift true true
        (typeKey behind scanCode .caps false true
          (typeKey behind scanCode .shift true false
            (typeKey behind scanCode .plain false false keyboard)))).lines := by
  -- At most one branch is taken: they ask for different modifiers.
  rcases keyboard with ⟨ctrl, shift, alt, caps, dirty, lines⟩
  by_cases pressed : ctrl = false ∧ scanCode ≤ 0x58
  · rcases pressed with ⟨rfl, low⟩
    cases shift <;> cases caps <;> simp only [typeKey, low, and_true, and_self, if_true] <;>
      exact .typed _ room
  · have skipped : ∀ keyMap shift' caps', typeKey behind scanCode keyMap shift' caps'
        ⟨ctrl, shift, alt, caps, dirty, lines⟩ = ⟨ctrl, shift, alt, caps, dirty, lines⟩ :=
      fun _ _ _ => if_neg fun taken => pressed ⟨taken.1, taken.2.2.2⟩
    rw [skipped, skipped, skipped, skipped]
    exact .keep

/-- The Enter key is in no table of printable keys. -/
theorem lookup_enter (behind : KeyMap → UInt8 → UInt8) : KeyMap.plain.lookup behind 0x1C = 0 := rfl

theorem keyboardHandler_enter (behind : KeyMap → UInt8 → UInt8) (freePid : Bool)
    (keyboard : Keyboard) :
    (keyboardHandler behind freePid 0x1C keyboard).lines = keyboard.lines.enter := by
  rw [keyboardHandler, if_pos (lookup_enter behind), if_pos rfl]

/-- A branch on the keys: what holds of the lines on both sides holds behind it. -/
theorem lines_ite {motive : Lines → Prop} {condition : Prop} [Decidable condition]
    {first second : Keyboard} (holds : condition → motive first.lines)
    (fails : motive second.lines) : motive (if condition then first else second).lines := by
  split
  · exact holds ‹_›
  · exact fails

theorem lineMove_keyboardHandler (behind : KeyMap → UInt8 → UInt8) (freePid : Bool)
    (scanCode : UInt8) (keyboard : Keyboard) :
    LineMove scanCode keyboard.lines (keyboardHandler behind freePid scanCode keyboard).lines := by
  unfold keyboardHandler
  apply lines_ite
  · intro _
    refine lines_ite .entered ?_
    refine lines_ite (fun _ => .erased) ?_
    -- Modifier keys and Tab leave the lines alone.
    iterate 9 refine lines_ite (fun _ => .keep) ?_
    exact lines_ite (fun _ => .switched _ _) .keep
  · exact lines_ite (lineMove_printable behind) .keep

/-! ### `terminal_read` -/

/-- How far a read of descriptor 0 has come on the terminal of its process. -/
inductive ReadStage where
  /-- No read is going on; the last one returned these bytes, each with the
  terminal it was typed on. -/
  | returned (bytes : List (UInt8 × Option Terminal))
  | waiting (nbytes : Nat)
  | counted (nbytes : Nat)
  /-- The bytes are copied, and the loop of `clear_terminal_buffer` is at `i`. -/
  | clearing (bytes : List (UInt8 × Option Terminal)) (i : Nat)

structure Machine where
  keyboard : Keyboard
  readers : Terminal → ReadStage

inductive Label where
  /-- A scan code, and whether `get_free_pid` would find one. -/
  | key (scanCode : UInt8) (freePid : Bool)
  /-- The process on a terminal calls `terminal_read`. -/
  | call (terminal : Terminal) (fd : Int) (isNull : Bool) (nbytes : Int)
  /-- The read on a terminal goes on. -/
  | proceed (terminal : Terminal)

namespace Machine

def setLines (machine : Machine) (lines : Lines) : Machine :=
  { machine with keyboard := { machine.keyboard with lines := lines } }

def setReader (machine : Machine) (terminal : Terminal) (stage : ReadStage) : Machine :=
  { machine with readers := Function.update machine.readers terminal stage }

/-- The checks of `terminal_read`. A call that returns -1 changes nothing. -/
def call (terminal : Terminal) (fd : Int) (isNull : Bool) (nbytes : Int) (machine : Machine) :
    Option Machine :=
  match machine.readers terminal with
  | .returned _ =>
      if fd ≠ 0 then some machine
      else if nbytes ≠ 0 ∧ isNull = true then some machine
      else if nbytes < 0 then some machine
      else some (machine.setReader terminal (.waiting nbytes.toNat))
  | _ => none

/-- The next step of `terminal_read` behind its checks. -/
def proceed (terminal : Terminal) (machine : Machine) : Option Machine :=
  let lines := machine.keyboard.lines
  match machine.readers terminal with
  | .returned _ => none
  | .waiting nbytes =>
      if lines.enterState terminal = false then some machine
      else some (machine.setReader terminal
        (.counted (if nbytes < lines.bufferIndex.toNat then nbytes else lines.bufferIndex.toNat)))
  | .counted nbytes =>
      let bytes := (List.range nbytes).map fun i =>
        (lines.terminalBuffers (lines.terminalBuffer + i), lines.typedOn (lines.terminalBuffer + i))
      some ((machine.setLines { lines with
        enterState := Function.update lines.enterState terminal false }).setReader terminal
          (.clearing bytes 0))
  | .clearing bytes i =>
      if i < 128 then
        let cell := lines.terminalBuffer + i
        some ((machine.setLines { lines with
          terminalBuffers := Function.update lines.terminalBuffers cell 0
          typedOn := Function.update lines.typedOn cell none }).setReader terminal
            (.clearing bytes (i + 1)))
      else
        some ((machine.setLines { lines with bufferIndex := 0 }).setReader terminal
          (.returned bytes))

def step (behind : KeyMap → UInt8 → UInt8) (machine : Machine) : Label → Option Machine
  | .key scanCode freePid =>
      some { machine with keyboard := keyboardHandler behind freePid scanCode machine.keyboard }
  | .call terminal fd isNull nbytes => machine.call terminal fd isNull nbytes
  | .proceed terminal => machine.proceed terminal

/-- The driver's statics as the C file initialises them. -/
def start : Machine where
  keyboard := {
    ctrlState := false
    shiftState := false
    altState := false
    capsState := false
    capsDirty := false
    lines := {
      enterState := fun _ => false
      terminalBuffers := fun _ => 0
      bufferIndices := fun _ => 0
      terminalBuffer := 0
      bufferIndex := 0
      terminalActive := fun terminal => terminal = 0
      currentTerminal := 0
      typedOn := fun _ => none
      stores := [] } }
  readers := fun _ => .returned []

end Machine

end MonolithicKernel.Input
