import MonolithicKernel.Input.LineEditor

/-!
Owns the line that raw scan codes type. The line is a fold over the codes of
keys below 64; the buffer of the driver follows it as long as no key from 64 to
0x58 is looked up as a printable one behind the end of its map. When the four
maps follow each other in memory, such a key types what the second map has for
the key 64 codes below.

Does not own Enter, reads or switches of the displayed terminal.
-/

namespace MonolithicKernel.Input

open MonolithicKernel.Lib
open MonolithicKernel.Foundation
open MonolithicKernel.Process (Terminal)

/-! ### The four maps in a row -/

/-- The memory from `key_map` on, when the maps follow each other. -/
def keyMapMemory (after : Nat → UInt8) (offset : Nat) : UInt8 :=
  if offset < 64 then KeyMap.plain.keys.getD offset 0
  else if offset < 128 then KeyMap.shift.keys.getD (offset - 64) 0
  else if offset < 192 then KeyMap.caps.keys.getD (offset - 128) 0
  else if offset < 256 then KeyMap.capsShift.keys.getD (offset - 192) 0
  else after (offset - 256)

/-- The distance of a map from `key_map`. -/
def KeyMap.offset : KeyMap → Nat
  | .plain => 0
  | .shift => 64
  | .caps => 128
  | .capsShift => 192

/-- What a scan code from 64 on finds when the maps follow each other. -/
def consecutive (after : Nat → UInt8) (keyMap : KeyMap) (scanCode : UInt8) : UInt8 :=
  keyMapMemory after (keyMap.offset + scanCode.toNat)

/-! ### The fold -/

/-- What a scan code does to the line, with the flags of the driver. -/
def editLine (keyboard : Keyboard) (line : Bytes) (scanCode : UInt8) : Bytes :=
  if scanCode = 0x0E then line.dropLast
  else if scanCode < 64 ∧ KeyMap.plain.keys.getD scanCode.toNat 0 ≠ 0 ∧
      keyboard.ctrlState = false ∧ line.length < 127 then
    line ++ [keyboard.keyMap.keys.getD scanCode.toNat 0]
  else line

/-- The driver beside the line that its scan codes should have typed. -/
structure Typing where
  keyboard : Keyboard
  line : Bytes

/-- A scan code that neither is Enter nor shows another terminal. -/
def Typing.step (behind : KeyMap → UInt8 → UInt8) : Step Typing (UInt8 × Bool) :=
  fun typing event =>
    let keyboard := keyboardHandler behind event.2 event.1 typing.keyboard
    if event.1 = 0x1C ∨
        keyboard.lines.currentTerminal ≠ typing.keyboard.lines.currentTerminal then none
    else some ⟨keyboard, editLine typing.keyboard typing.line event.1⟩

/-- A key that the driver types although it is in none of the maps. -/
def StrayKey (behind : KeyMap → UInt8 → UInt8) (keyboard : Keyboard) (scanCode : UInt8) : Prop :=
  64 ≤ scanCode ∧ scanCode ≤ 0x58 ∧ behind .plain scanCode ≠ 0 ∧ keyboard.ctrlState = false ∧
    keyboard.lines.bufferIndex < 127

instance (behind : KeyMap → UInt8 → UInt8) (keyboard : Keyboard) (scanCode : UInt8) :
    Decidable (StrayKey behind keyboard scanCode) :=
  inferInstanceAs (Decidable (_ ∧ _))

section Steps

variable {behind : KeyMap → UInt8 → UInt8} {keyboard : Keyboard} {line : Bytes} {scanCode : UInt8}

theorem lookup_of_lt (low : scanCode < 64) (keyMap : KeyMap) :
    keyMap.lookup behind scanCode = keyMap.keys.getD scanCode.toNat 0 := if_pos low

theorem lookup_of_ge (high : 64 ≤ scanCode) (keyMap : KeyMap) :
    keyMap.lookup behind scanCode = behind keyMap scanCode :=
  if_neg (UInt8.not_lt.mpr high)

/-- Keys that edit nothing leave the line alone. -/
theorem editLine_of_no_edit (noEdit : keyboard.edit behind scanCode = none) :
    editLine keyboard line scanCode = line ∧ ¬ StrayKey behind keyboard scanCode := by
  unfold Keyboard.edit at noEdit
  split_ifs at noEdit with special isEnter isErase typed
  · constructor
    · rw [editLine, if_neg isErase, if_neg]
      rintro ⟨low, printable, -⟩
      rw [lookup_of_lt low] at special
      exact printable special
    · rintro ⟨high, -, printable, -⟩
      rw [lookup_of_ge high] at special
      exact printable special
  · have notErase : scanCode ≠ 0x0E := by
      rintro rfl
      exact special rfl
    constructor
    · rw [editLine, if_neg notErase, if_neg]
      rintro ⟨low, -, noControl, -⟩
      have inMap : scanCode.toNat < 64 := UInt8.lt_iff_toNat_lt.mp low
      exact typed ⟨noControl, UInt8.le_iff_toNat_le.mpr (by simp; omega)⟩
    · rintro ⟨-, low, -, noControl, -⟩
      exact typed ⟨noControl, low⟩

/-- Keys of the maps type into the line what the driver types. -/
theorem editLine_of_char (printable : KeyMap.plain.lookup behind scanCode ≠ 0)
    (noControl : keyboard.ctrlState = false) (low : scanCode < 64) :
    editLine keyboard line scanCode =
      if line.length < 127 then line ++ [keyboard.keyMap.lookup behind scanCode] else line := by
  have notErase : scanCode ≠ 0x0E := by
    rintro rfl
    exact printable rfl
  rw [lookup_of_lt low] at printable ⊢
  rw [editLine, if_neg notErase]
  simp only [low, printable, noControl, true_and, ne_eq, not_false_eq_true]

/-- Keys behind the maps leave the line alone. -/
theorem editLine_of_ge (high : 64 ≤ scanCode) : editLine keyboard line scanCode = line := by
  have notErase : scanCode ≠ 0x0E := by
    rintro rfl
    exact absurd high (by decide)
  rw [editLine, if_neg notErase, if_neg]
  rintro ⟨low, -⟩
  exact absurd low (UInt8.not_lt.mpr high)

theorem Typing.step_eq_some {typing next : Typing} {event : UInt8 × Bool}
    (taken : Typing.step behind typing event = some next) :
    event.1 ≠ 0x1C ∧
      (keyboardHandler behind event.2 event.1 typing.keyboard).lines.currentTerminal =
        typing.keyboard.lines.currentTerminal ∧
      next = ⟨keyboardHandler behind event.2 event.1 typing.keyboard,
        editLine typing.keyboard typing.line event.1⟩ := by
  unfold Typing.step at taken
  dsimp only at taken
  split_ifs at taken with excluded
  simp only [not_or, not_not] at excluded
  exact ⟨excluded.1, excluded.2, (Option.some.inj taken).symm⟩

theorem Lines.Holds.room_iff {lines : Lines} (holds : lines.Holds line) :
    lines.bufferIndex < 127 ↔ line.length < 127 := by
  rw [UInt8.lt_iff_toNat_lt, holds.length]
  rfl

/-- A printable key is typed into the line if it is in the maps, and only then. -/
theorem holds_char_iff (holds : keyboard.lines.Holds line)
    (printable : KeyMap.plain.lookup behind scanCode ≠ 0)
    (noControl : keyboard.ctrlState = false) (low : scanCode ≤ 0x58) :
    (keyboard.lines.apply (.char (keyboard.keyMap.lookup behind scanCode))).Holds
        (editLine keyboard line scanCode) ↔
      ¬ StrayKey behind keyboard scanCode := by
  rw [Lines.apply]
  by_cases inMap : scanCode < 64
  · have notStray : ¬ StrayKey behind keyboard scanCode := fun stray =>
      absurd inMap (UInt8.not_lt.mpr stray.1)
    refine iff_of_true ?_ notStray
    rw [editLine_of_char printable noControl inMap]
    by_cases room : line.length < 127
    · rw [if_pos (holds.room_iff.mpr room), if_pos room]
      exact holds.typeByte (by omega) _
    · rw [if_neg (fun less => room (holds.room_iff.mp less)), if_neg room]
      exact holds
  · have high : 64 ≤ scanCode := UInt8.not_lt.mp inMap
    rw [editLine_of_ge high]
    rw [lookup_of_ge high] at printable
    by_cases room : keyboard.lines.bufferIndex < 127
    · rw [if_pos room]
      refine iff_of_false ?_ (not_not.mpr ⟨high, low, printable, noControl, room⟩)
      intro typed
      have short := holds.room_iff.mp room
      have longer := (holds.typeByte (by omega) (keyboard.keyMap.lookup behind scanCode)).length
      rw [typed.length, List.length_append, List.length_singleton] at longer
      omega
    · rw [if_neg room]
      exact iff_of_true holds fun stray => room stray.2.2.2.2

/-- The buffer follows the line exactly when no stray key is typed. -/
theorem Typing.holds_step_iff {typing next : Typing} {event : UInt8 × Bool}
    (holds : typing.keyboard.lines.Holds typing.line)
    (taken : Typing.step behind typing event = some next) :
    next.keyboard.lines.Holds next.line ↔ ¬ StrayKey behind typing.keyboard event.1 := by
  rcases Typing.step_eq_some taken with ⟨notEnter, displayed, rfl⟩
  dsimp only
  cases edited : typing.keyboard.edit behind event.1 with
  | none =>
      rw [lines_of_displayed event.2 edited displayed]
      rcases editLine_of_no_edit edited with ⟨same, notStray⟩
      rw [same]
      exact iff_of_true holds notStray
  | some edit =>
      rw [lines_of_edit event.2 edited]
      unfold Keyboard.edit at edited
      split_ifs at edited with special isErase typed
      · cases edited
        rw [isErase]
        exact iff_of_true holds.keyboardBackspace fun stray => absurd stray.1 (by decide)
      · cases edited
        exact holds_char_iff holds special typed.1 typed.2

end Steps

/-- **Line editing, exactly.** From an empty line on, whatever follows the maps in
memory, the buffer equals the fold of the scan codes after every one of them if
and only if none of them is a stray key. -/
theorem lineEditing_iff (behind : KeyMap → UInt8 → UInt8) {keyboard : Keyboard}
    (empty : keyboard.lines.bufferIndex = 0) (events : List (UInt8 × Bool)) :
    Step.AllStates (Typing.step behind) (fun typing => typing.keyboard.lines.Holds typing.line)
        ⟨keyboard, []⟩ events ↔
      Step.AllSteps (Typing.step behind)
        (fun typing event => ¬ StrayKey behind typing.keyboard event.1) ⟨keyboard, []⟩ events := by
  have start : keyboard.lines.Holds [] := ⟨by rw [empty]; rfl, rfl⟩
  apply Step.allStates_iff_allSteps (fun typing event next => Typing.holds_step_iff) ?_ start start
  intro typing event next holds taken notStray
  exact (Typing.holds_step_iff holds taken).mpr notStray

/-- Shift, "a", Backspace and the release of Shift. -/
theorem lineEditing_start :
    Step.AllStates (Typing.step (consecutive fun _ => 0))
      (fun typing => typing.keyboard.lines.Holds typing.line) ⟨Machine.start.keyboard, []⟩
      [(0x2A, true), (0x1E, true), (0x0E, true), (0xAA, true)] :=
  (lineEditing_iff _ rfl _).mpr (by decide)

/-- The stray keys of maps that follow each other: F8 and others, as long as Ctrl is
up and the line has room. -/
theorem strayKey_consecutive_iff (after : Nat → UInt8) (keyboard : Keyboard) (scanCode : UInt8) :
    StrayKey (consecutive after) keyboard scanCode ↔
      ((0x42 ≤ scanCode ∧ scanCode ≤ 0x4D) ∨ (0x50 ≤ scanCode ∧ scanCode ≤ 0x58)) ∧
        keyboard.ctrlState = false ∧ keyboard.lines.bufferIndex < 127 := by
  -- The 25 keys from 64 on meet the first 25 bytes of the second map.
  have printable : ∀ key : Fin 25, KeyMap.shift.keys.getD key.val 0 ≠ 0 ↔
      (0x02 ≤ key.val ∧ key.val ≤ 0x0D) ∨ 0x10 ≤ key.val := by
    decide
  have here : 64 ≤ scanCode.toNat → scanCode.toNat ≤ 0x58 →
      (KeyMap.shift.keys.getD (scanCode.toNat - 64) 0 ≠ 0 ↔
        (0x42 ≤ scanCode.toNat ∧ scanCode.toNat ≤ 0x4D) ∨
          (0x50 ≤ scanCode.toNat ∧ scanCode.toNat ≤ 0x58)) := by
    intro high low
    rw [printable ⟨scanCode.toNat - 64, by omega⟩]
    dsimp only
    omega
  simp only [StrayKey, UInt8.le_iff_toNat_le, UInt8.reduceToNat]
  constructor
  · rintro ⟨high, low, found, noControl, room⟩
    refine ⟨(here high low).mp ?_, noControl, room⟩
    rwa [consecutive, keyMapMemory, KeyMap.offset, Nat.zero_add, if_neg (by omega),
      if_pos (by omega)] at found
  · rintro ⟨codes, noControl, room⟩
    have high : 64 ≤ scanCode.toNat := by omega
    have low : scanCode.toNat ≤ 0x58 := by omega
    refine ⟨high, low, ?_, noControl, room⟩
    rw [consecutive, keyMapMemory, KeyMap.offset, Nat.zero_add, if_neg (by omega),
      if_pos (by omega)]
    exact (here high low).mpr codes

/-- F8 types an exclamation mark. -/
theorem not_forall_lineEditing :
    ¬ ∀ (keyboard : Keyboard) (events : List (UInt8 × Bool)), keyboard.lines.bufferIndex = 0 →
      Step.AllStates (Typing.step (consecutive fun _ => 0))
        (fun typing => typing.keyboard.lines.Holds typing.line) ⟨keyboard, []⟩ events := by
  intro all
  have held := all Machine.start.keyboard [(0x42, true)] rfl
  obtain ⟨next, taken⟩ : ∃ next, Typing.step (consecutive fun _ => 0) ⟨Machine.start.keyboard, []⟩
      (0x42, true) = some next := ⟨_, rfl⟩
  have notStray := (Typing.holds_step_iff held.1 taken).mp (held.2 next taken)
  exact notStray ((strayKey_consecutive_iff _ _ _).mpr ⟨.inl (by decide), rfl, by decide⟩)

end MonolithicKernel.Input
