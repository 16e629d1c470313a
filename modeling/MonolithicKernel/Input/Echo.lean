import MonolithicKernel.Input.ScanCodes
import MonolithicKernel.Screen.Isolation
import MonolithicKernel.Screen.ShownLine

/-!
Owns the echo of `keyboard_handler` on the displayed terminal, beside the line
buffer that the same handler edits. Printable keys and Backspace change both sides
alike. Tab shows four spaces that are not in the buffer, Ctrl+L clears the screen
and not the buffer, and a newline found behind a key map is no character on the
screen.

Does not own programs that write to the displayed terminal.
-/

namespace MonolithicKernel.Input

open MonolithicKernel.Foundation
open MonolithicKernel.Lib
open MonolithicKernel.Process (Terminal)
open MonolithicKernel.Screen

structure Console where
  keyboard : Keyboard
  video : Video
  /-- Not in the code: the cell where the line began, moved up with every scroll. -/
  lineStart : Nat

namespace Console

/-- What the displayed terminal shows. -/
def shown (console : Console) : PrivateScreen :=
  console.video.screen console.video.currentTerminal

/-- `tputc(char, current_terminal)`. -/
def tputc (char : UInt8) (console : Console) : Console :=
  { console with
    video := console.video.tputc char console.video.currentTerminal
    lineStart := console.shown.startAfter console.lineStart }

/-- `tputs(s, current_terminal)` of a string without a NUL. -/
def tputs (s : Bytes) (console : Console) : Console :=
  s.foldl (fun console char => console.tputc char) console

/-- The echo of one of the four branches for printable keys. -/
def echoKey (behind : KeyMap → UInt8 → UInt8) (scanCode : UInt8) (keyMap : KeyMap)
    (shift caps : Bool) (console : Console) : Console :=
  if console.keyboard.ctrlState = false ∧ console.keyboard.shiftState = shift ∧
      console.keyboard.capsState = caps ∧ scanCode ≤ 0x58 then
    console.tputc (keyMap.lookup behind scanCode)
  else console

/-- The screen side of `keyboard_handler`. The branches of the modifier keys touch no
screen and are left out; their codes are none of the others. -/
def echo (behind : KeyMap → UInt8 → UInt8) (freePid : Bool) (scanCode : UInt8)
    (console : Console) : Console :=
  if KeyMap.plain.lookup behind scanCode = 0 then
    if scanCode = 0x1C then console.tputc 0x0A
    else if scanCode = 0x0E then
      if console.keyboard.lines.bufferIndex = 0 then console
      else { console with video := console.video.terminalBackspace }
    else if scanCode = 0x0F then console.tputs [0x20, 0x20, 0x20, 0x20]
    else if console.keyboard.altState = true ∧ 0x3B ≤ scanCode ∧ scanCode ≤ 0x3D then
      { console with
        video := console.video.switchTerminal (Fin.ofNat 3 (scanCode.toNat - 0x3B)) freePid }
    else console
  else
    let console :=
      if console.keyboard.ctrlState = true ∧ scanCode = 0x26 ∧ scanCode ≤ 0x58 then
        { console with video := console.video.clear }
      else console
    if console.keyboard.lines.bufferIndex < 127 then
      echoKey behind scanCode .capsShift true true
        (echoKey behind scanCode .caps false true
          (echoKey behind scanCode .shift true false
            (echoKey behind scanCode .plain false false console)))
    else console

/-- The whole of `keyboard_handler`. -/
def key (behind : KeyMap → UInt8 → UInt8) (freePid : Bool) (scanCode : UInt8)
    (console : Console) : Console :=
  { console.echo behind freePid scanCode with
    keyboard := keyboardHandler behind freePid scanCode console.keyboard }

end Console

inductive ConsoleLabel where
  /-- A scan code, and whether `get_free_pid` would find one. -/
  | key (scanCode : UInt8) (freePid : Bool)
  /-- A program writes to its own terminal. -/
  | tputc (char : UInt8) (terminal : Terminal)
  | userStore (terminal : Terminal) (offset : Fin 4096) (byte : UInt8)

/-- Keys but Enter and switches of the displayed terminal, and programs on the other
terminals. -/
def Console.step (behind : KeyMap → UInt8 → UInt8) : Step Console ConsoleLabel :=
  fun console label =>
    match label with
    | .key scanCode freePid =>
        let next := console.key behind freePid scanCode
        if scanCode = 0x1C ∨
            next.keyboard.lines.currentTerminal ≠ console.keyboard.lines.currentTerminal then none
        else some next
    | .tputc char terminal =>
        if terminal = console.video.currentTerminal then none
        else some { console with video := console.video.tputc char terminal }
    | .userStore terminal offset byte =>
        if terminal = console.video.currentTerminal then none
        else some { console with video := console.video.userStore terminal offset byte }

/-- The line in the buffer. -/
def Lines.text (lines : Lines) : Bytes := lines.contents lines.bufferIndex.toNat

/-- **Agreement.** From the start of the line to the cursor the screen shows exactly
what is in the buffer. -/
def Console.Agrees (console : Console) : Prop :=
  console.shown.Shows console.lineStart console.keyboard.lines.text

/-- The echo of a key that does not belong to the buffer. -/
def Disturbs (behind : KeyMap → UInt8 → UInt8) (console : Console) : ConsoleLabel → Prop
  | .key scanCode _ =>
      scanCode = 0x0F ∨
        (console.keyboard.ctrlState = true ∧ scanCode = 0x26 ∧ console.shown.cursorCell ≠ 0) ∨
        ∃ char, console.keyboard.edit behind scanCode = some (.char char) ∧ IsNewline char ∧
          console.keyboard.lines.bufferIndex < 127
  | _ => False

/-- What the driver keeps twice is the same, and the buffer has room for Enter. -/
structure Console.Ok (console : Console) : Prop where
  displays : Displays console.video
  currentTerminal : console.keyboard.lines.currentTerminal = console.video.currentTerminal
  terminalActive : console.keyboard.lines.terminalActive = console.video.terminalActive
  bufferIndex : console.keyboard.lines.bufferIndex ≤ 127

/-! ### The screen side -/

section Screens

variable {console : Console} {video' : Video} {screen : PrivateScreen}

theorem shown_of_draws (draws : Draws console.video video' console.video.currentTerminal screen) :
    video'.screen video'.currentTerminal = screen := by
  rw [draws.currentTerminal, draws.screen_self]

/-- Drawing on the displayed terminal keeps the two sides together. -/
theorem Console.Ok.of_draws (ok : console.Ok)
    (draws : Draws console.video video' console.video.currentTerminal screen)
    (inBounds : screen.InBounds) (terminalActive : video'.terminalActive = console.video.terminalActive)
    (lineStart : Nat) : Console.Ok ⟨console.keyboard, video', lineStart⟩ where
  displays := draws.displays ok.displays inBounds
  currentTerminal := ok.currentTerminal.trans draws.currentTerminal.symm
  terminalActive := ok.terminalActive.trans terminalActive.symm
  bufferIndex := ok.bufferIndex

theorem terminalActive_tputc (char : UInt8) (terminal : Terminal) (video : Video) :
    (video.tputc char terminal).terminalActive = video.terminalActive := by
  have scrolled : (video.tscrollIfFull terminal).terminalActive = video.terminalActive := by
    unfold Video.tscrollIfFull
    split_ifs
    · rfl
    · rfl
  rw [← scrolled]
  unfold Video.tputc Video.tput
  dsimp only
  split_ifs <;> rfl

theorem terminalActive_terminalBackspace (video : Video) :
    video.terminalBackspace.terminalActive = video.terminalActive := by
  unfold Video.terminalBackspace
  split_ifs
  · rfl
  · rfl
  · rfl

theorem terminalActive_clear (video : Video) :
    video.clear.terminalActive = video.terminalActive := by
  unfold Video.clear Video.savePos
  rfl

theorem Console.Ok.inBounds (ok : console.Ok) : console.shown.InBounds :=
  ok.displays.inBounds console.video.currentTerminal

theorem Console.Ok.draws_tputc (ok : console.Ok) (char : UInt8) :
    Draws console.video (console.video.tputc char console.video.currentTerminal)
      console.video.currentTerminal (console.shown.tputc char) :=
  Screen.draws_tputc ok.inBounds char

theorem Console.Ok.shown_tputc (ok : console.Ok) (char : UInt8) :
    (console.tputc char).shown = console.shown.tputc char :=
  shown_of_draws (ok.draws_tputc char)

theorem Console.Ok.tputc (ok : console.Ok) (char : UInt8) : (console.tputc char).Ok :=
  ok.of_draws (ok.draws_tputc char) (ok.inBounds.apply (.tputc char)) (terminalActive_tputc ..) _

/-- A string without newlines is shown behind the line. -/
theorem Console.Ok.shows_tputs {text : Bytes} (ok : console.Ok)
    (shows : console.shown.Shows console.lineStart text) {s : Bytes}
    (printable : ∀ char ∈ s, ¬ IsNewline char) (short : text.length + s.length ≤ 1920) :
    (console.tputs s).Ok ∧
      (console.tputs s).shown.Shows (console.tputs s).lineStart (text ++ s) := by
  induction s generalizing console text with
  | nil => exact ⟨ok, by rwa [List.append_nil]⟩
  | cons char s inductionHypothesis =>
      rw [List.length_cons] at short
      have typed := shows.tputc ok.inBounds (by omega) (printable char List.mem_cons_self)
      rw [← ok.shown_tputc] at typed
      have rest := inductionHypothesis (ok.tputc char) typed
        (fun other member => printable other (List.mem_cons_of_mem char member))
        (by rw [List.length_append, List.length_singleton]; omega)
      rwa [List.append_assoc] at rest

end Screens

/-! ### The keys -/

section Keys

variable {behind : KeyMap → UInt8 → UInt8} (freePid : Bool) {scanCode : UInt8} {console : Console}

/-- A key that types a character. -/
theorem edit_eq_char {keyboard : Keyboard} {char : UInt8}
    (isChar : keyboard.edit behind scanCode = some (.char char)) :
    KeyMap.plain.lookup behind scanCode ≠ 0 ∧ keyboard.ctrlState = false ∧ scanCode ≤ 0x58 ∧
      char = keyboard.keyMap.lookup behind scanCode := by
  unfold Keyboard.edit at isChar
  split_ifs at isChar with special isEnter isErase typed
  · cases isChar
  · cases isChar
  · cases isChar
    exact ⟨special, typed.1, typed.2, rfl⟩

theorem edit_eq_erase {keyboard : Keyboard} (erases : keyboard.edit behind scanCode = some .erase) :
    scanCode = 0x0E := by
  unfold Keyboard.edit at erases
  split_ifs at erases with special isEnter isErase typed
  · cases erases
  · exact isErase
  · cases erases

theorem edit_eq_enter {keyboard : Keyboard} (enters : keyboard.edit behind scanCode = some .enter) :
    scanCode = 0x1C := by
  unfold Keyboard.edit at enters
  split_ifs at enters with special isEnter isErase typed
  · exact isEnter
  · cases enters
  · cases enters

/-- A printable key is echoed as it is typed. -/
theorem echo_of_char {char : UInt8}
    (isChar : console.keyboard.edit behind scanCode = some (.char char)) :
    console.echo behind freePid scanCode =
      if console.keyboard.lines.bufferIndex < 127 then console.tputc char else console := by
  rcases edit_eq_char isChar with ⟨special, noControl, low, rfl⟩
  have notClear : ¬ (console.keyboard.ctrlState = true ∧ scanCode = 0x26 ∧ scanCode ≤ 0x58) := by
    simp [noControl]
  unfold Console.echo
  rw [if_neg special]
  dsimp only
  rw [if_neg notClear]
  split_ifs with room
  · rcases console with ⟨⟨ctrl, shift, alt, caps, dirty, lines⟩, video, lineStart⟩
    cases noControl
    -- At most one branch is taken: they ask for different modifiers.
    cases shift <;> cases caps <;> simp [Console.echoKey, Console.tputc, low, Keyboard.keyMap]
  · rfl

theorem echo_of_erase (erases : console.keyboard.edit behind scanCode = some .erase) :
    console.echo behind freePid scanCode =
      if console.keyboard.lines.bufferIndex = 0 then console
      else { console with video := console.video.terminalBackspace } := by
  rw [edit_eq_erase erases]
  rfl

/-- The keys that are no edits: Tab, function keys, Ctrl+L and the rest. -/
theorem echo_of_no_edit (noEdit : console.keyboard.edit behind scanCode = none) :
    console.echo behind freePid scanCode =
      if scanCode = 0x0F then console.tputs [0x20, 0x20, 0x20, 0x20]
      else if console.keyboard.ctrlState = true ∧ scanCode = 0x26 then
        { console with video := console.video.clear }
      else if KeyMap.plain.lookup behind scanCode = 0 ∧ console.keyboard.altState = true ∧
          0x3B ≤ scanCode ∧ scanCode ≤ 0x3D then
        { console with
          video := console.video.switchTerminal (Fin.ofNat 3 (scanCode.toNat - 0x3B)) freePid }
      else console := by
  unfold Keyboard.edit at noEdit
  unfold Console.echo
  split_ifs at noEdit with special isEnter isErase typed
  · -- The key map has an "l" for 0x26, so this is no Ctrl+L.
    have notClear : ¬ (console.keyboard.ctrlState = true ∧ scanCode = 0x26) := by
      rintro ⟨-, rfl⟩
      exact absurd (show (0x6C : UInt8) = 0 from special) (by decide)
    rw [if_pos special, if_neg isEnter, if_neg isErase, if_neg notClear]
    simp only [special, true_and]
  · have notTab : scanCode ≠ 0x0F := by
      rintro rfl
      exact special rfl
    have skipped : ∀ keyMap shift caps (other : Console), other.keyboard = console.keyboard →
        Console.echoKey behind scanCode keyMap shift caps other = other := by
      intro keyMap shift caps other same
      apply if_neg
      rw [same]
      exact fun taken => typed ⟨taken.1, taken.2.2.2⟩
    have clears : console.keyboard.ctrlState = true ∧ scanCode = 0x26 ∧ scanCode ≤ 0x58 ↔
        console.keyboard.ctrlState = true ∧ scanCode = 0x26 := by
      constructor
      · exact fun all => ⟨all.1, all.2.1⟩
      · rintro ⟨control, rfl⟩
        exact ⟨control, rfl, by decide⟩
    rw [if_neg special, if_neg notTab]
    simp only [special, false_and, if_false, clears]
    by_cases isClear : console.keyboard.ctrlState = true ∧ scanCode = 0x26
    · simp only [if_pos isClear]
      split_ifs
      · simp only [skipped]
      · rfl
    · simp only [if_neg isClear]
      split_ifs
      · simp only [skipped]
      · rfl

/-- A function key under Alt asks for a terminal. -/
theorem lines_of_functionKey {keyboard : Keyboard}
    (special : KeyMap.plain.lookup behind scanCode = 0) (alt : keyboard.altState = true)
    (low : 0x3B ≤ scanCode) (high : scanCode ≤ 0x3D) :
    (keyboardHandler behind freePid scanCode keyboard).lines =
      keyboard.lines.switchTerminal (Fin.ofNat 3 (scanCode.toNat - 0x3B)) freePid := by
  have codes : scanCode = 0x3B ∨ scanCode = 0x3C ∨ scanCode = 0x3D := by
    rw [UInt8.le_iff_toNat_le] at low high
    simp only [UInt8.reduceToNat] at low high
    simp only [← UInt8.toNat_inj, UInt8.reduceToNat]
    omega
  rcases codes with rfl | rfl | rfl
  · simp [keyboardHandler, special, alt]
  · simp [keyboardHandler, special, alt]
  · simp [keyboardHandler, special, alt]

/-- A request that is no switch for the lines is none for the screens. -/
theorem Console.Ok.switchTerminal_eq_self (ok : console.Ok) {termId : Terminal}
    (displayed : (console.keyboard.lines.switchTerminal termId freePid).currentTerminal =
      console.keyboard.lines.currentTerminal) :
    console.video.switchTerminal termId freePid = console.video := by
  unfold Lines.switchTerminal at displayed
  unfold Video.switchTerminal
  rw [← ok.currentTerminal, ← ok.terminalActive]
  split_ifs at displayed with same refused
  · rw [if_pos same]
  · rw [if_neg same, if_pos refused]
  · exact absurd displayed same

end Keys

/-! ### Steps -/

section Steps

variable {behind : KeyMap → UInt8 → UInt8} {console next : Console} {label : ConsoleLabel}

theorem Lines.holds_text (lines : Lines) : lines.Holds lines.text := by
  have length : lines.text.length = lines.bufferIndex.toNat := by simp [Lines.text, Lines.contents]
  exact ⟨length.symm, by rw [length]; rfl⟩

theorem Lines.Holds.text_eq {lines : Lines} {text : Bytes} (holds : lines.Holds text) :
    lines.text = text := by
  rw [Lines.text, holds.length, holds.contents]

theorem Console.Ok.length_text (ok : console.Ok) : console.keyboard.lines.text.length ≤ 127 := by
  rw [← console.keyboard.lines.holds_text.length]
  exact UInt8.le_iff_toNat_le.mp ok.bufferIndex

/-- The lines may change under the same screens. -/
theorem Console.Ok.with_keyboard (ok : console.Ok) {keyboard : Keyboard}
    (currentTerminal : keyboard.lines.currentTerminal = console.keyboard.lines.currentTerminal)
    (terminalActive : keyboard.lines.terminalActive = console.keyboard.lines.terminalActive)
    (bufferIndex : keyboard.lines.bufferIndex ≤ 127) :
    Console.Ok { console with keyboard := keyboard } :=
  ⟨ok.displays, currentTerminal.trans ok.currentTerminal,
    terminalActive.trans ok.terminalActive, bufferIndex⟩

/-- A screen that is not on display may be drawn on. -/
theorem Console.agrees_of_other (ok : console.Ok) (agrees : console.Agrees) {terminal : Terminal}
    {video' : Video} {screen : PrivateScreen} (draws : Draws console.video video' terminal screen)
    (hidden : terminal ≠ console.video.currentTerminal) (inBounds : screen.InBounds)
    (terminalActive : video'.terminalActive = console.video.terminalActive) :
    Console.Ok { console with video := video' } ∧ Console.Agrees { console with video := video' } := by
  have same : video'.screen video'.currentTerminal = console.shown := by
    rw [draws.currentTerminal, draws.screen_other ok.displays hidden.symm]
    rfl
  refine ⟨⟨draws.displays ok.displays inBounds, ?_, ?_, ok.bufferIndex⟩, ?_⟩
  · exact ok.currentTerminal.trans draws.currentTerminal.symm
  · exact ok.terminalActive.trans terminalActive.symm
  · unfold Console.Agrees Console.shown
    dsimp only
    rw [same]
    exact agrees

/-- A key that types a character shows it, unless it is a newline. -/
theorem Console.agrees_char_iff (ok : console.Ok) (agrees : console.Agrees) {char : UInt8}
    {keyboard : Keyboard} (typed : keyboard.lines = console.keyboard.lines.apply (.char char)) :
    let echoed := if console.keyboard.lines.bufferIndex < 127 then console.tputc char else console
    let next : Console := { echoed with keyboard := keyboard }
    next.Ok ∧
      (next.Agrees ↔ ¬ (IsNewline char ∧ console.keyboard.lines.bufferIndex < 127)) := by
  have short := ok.length_text
  rw [Lines.apply] at typed
  by_cases room : console.keyboard.lines.bufferIndex < 127
  · rw [if_pos room] at typed
    simp only [if_pos room]
    have length := console.keyboard.lines.holds_text.length
    have below := UInt8.lt_iff_toNat_lt.mp room
    simp only [UInt8.reduceToNat] at below
    have holds := console.keyboard.lines.holds_text.typeByte (by omega) char
    rw [← typed] at holds
    have index : keyboard.lines.bufferIndex ≤ 127 := by
      rw [UInt8.le_iff_toNat_le, holds.length, List.length_append, ← length]
      simp only [List.length_singleton, UInt8.reduceToNat]
      omega
    refine ⟨(ok.tputc char).with_keyboard (by rw [typed]; rfl) (by rw [typed]; rfl) index, ?_⟩
    show (console.tputc char).shown.Shows (console.shown.startAfter console.lineStart)
      keyboard.lines.text ↔ _
    rw [ok.shown_tputc, holds.text_eq]
    by_cases isNewline : IsNewline char
    · exact iff_of_false (agrees.not_newline ok.inBounds (by omega) isNewline)
        (not_not.mpr ⟨isNewline, room⟩)
    · exact iff_of_true (agrees.tputc ok.inBounds (by omega) isNewline) fun both =>
        isNewline both.1
  · rw [if_neg room] at typed
    simp only [if_neg room]
    refine ⟨ok.with_keyboard (by rw [typed]) (by rw [typed]) (by rw [typed]; exact ok.bufferIndex),
      iff_of_true ?_ fun both => room both.2⟩
    show console.shown.Shows console.lineStart keyboard.lines.text
    rw [typed]
    exact agrees

/-- Backspace takes a character away on both sides. -/
theorem Console.agrees_erase (ok : console.Ok) (agrees : console.Agrees) {keyboard : Keyboard}
    (erased : keyboard.lines = console.keyboard.lines.apply .erase) :
    let echoed := if console.keyboard.lines.bufferIndex = 0 then console
      else { console with video := console.video.terminalBackspace }
    let next : Console := { echoed with keyboard := keyboard }
    next.Ok ∧ next.Agrees := by
  rw [Lines.apply] at erased
  have holds := console.keyboard.lines.holds_text.keyboardBackspace
  rw [← erased] at holds
  by_cases empty : console.keyboard.lines.bufferIndex = 0
  · have same : keyboard.lines = console.keyboard.lines := by
      rw [erased, Lines.keyboardBackspace, if_pos empty]
    simp only [if_pos empty]
    refine ⟨ok.with_keyboard (by rw [same]) (by rw [same]) (by rw [same]; exact ok.bufferIndex), ?_⟩
    show console.shown.Shows console.lineStart keyboard.lines.text
    rw [same]
    exact agrees
  · simp only [if_neg empty]
    have nonempty : console.keyboard.lines.text ≠ [] := by
      intro none
      have length := console.keyboard.lines.holds_text.length
      rw [none] at length
      exact empty (UInt8.toNat_inj.mp length)
    have drawn := draws_terminalBackspace ok.displays
    have shows := agrees.backspace ok.inBounds nonempty
    have drawnOk := ok.of_draws drawn (ok.inBounds.apply .backspace)
      (terminalActive_terminalBackspace _) console.lineStart
    have index : keyboard.lines.bufferIndex ≤ 127 := by
      have short := ok.length_text
      rw [UInt8.le_iff_toNat_le, holds.length, List.length_dropLast]
      simp only [UInt8.reduceToNat]
      omega
    have fields : keyboard.lines.currentTerminal = console.keyboard.lines.currentTerminal ∧
        keyboard.lines.terminalActive = console.keyboard.lines.terminalActive := by
      rw [erased, Lines.keyboardBackspace, if_neg empty]
      exact ⟨rfl, rfl⟩
    refine ⟨drawnOk.with_keyboard fields.1 fields.2 index, ?_⟩
    unfold Console.Agrees Console.shown
    dsimp only
    rw [shown_of_draws drawn, holds.text_eq]
    exact shows.1

/-- Ctrl+L leaves the screen behind, unless the cursor is at home already. -/
theorem Console.agrees_clear_iff (ok : console.Ok) (agrees : console.Agrees) {keyboard : Keyboard}
    (same : keyboard.lines = console.keyboard.lines) :
    let next : Console := { console with video := console.video.clear, keyboard := keyboard }
    next.Ok ∧ (next.Agrees ↔ console.shown.cursorCell = 0) := by
  have drawn := draws_clear ok.displays
  have drawnOk := ok.of_draws drawn (ok.inBounds.apply .clear)
    (terminalActive_clear _) console.lineStart
  refine ⟨drawnOk.with_keyboard (by rw [same]) (by rw [same]) (by rw [same]; exact ok.bufferIndex),
    ?_⟩
  have cursor := agrees.cursor
  have cleared : Console.shown { console with video := console.video.clear, keyboard := keyboard } =
      console.shown.clear := shown_of_draws drawn
  show (Console.shown _).Shows console.lineStart keyboard.lines.text ↔ _
  rw [cleared, same]
  constructor
  · intro shows
    have home : 0 = console.lineStart + console.keyboard.lines.text.length := shows.cursor
    omega
  · intro home
    have empty : console.keyboard.lines.text = [] := List.length_eq_zero_iff.mp (by omega)
    rw [empty]
    apply PrivateScreen.shows_nil.mpr
    rw [empty, List.length_nil] at cursor
    show 0 = console.lineStart
    omega

/-- Tab moves the cursor and leaves the line behind. -/
theorem Console.not_agrees_tab (ok : console.Ok) (agrees : console.Agrees) {keyboard : Keyboard}
    (same : keyboard.lines = console.keyboard.lines) :
    let next : Console := { console.tputs [0x20, 0x20, 0x20, 0x20] with keyboard := keyboard }
    ¬ next.Agrees := by
  intro next tabbed
  have short := ok.length_text
  have printable : ∀ char ∈ ([0x20, 0x20, 0x20, 0x20] : Bytes), ¬ IsNewline char := by
    simp [IsNewline]
  have spaces := (ok.shows_tputs agrees printable
    (by simp only [List.length_cons, List.length_nil]; omega)).2
  have shows : (console.tputs [0x20, 0x20, 0x20, 0x20]).shown.Shows
      (console.tputs [0x20, 0x20, 0x20, 0x20]).lineStart console.keyboard.lines.text := by
    rw [← same]
    exact tabbed
  have lengths := shows.length_eq spaces
  rw [List.length_append] at lengths
  simp at lengths

/-- The step of a key that is no edit. -/
theorem Console.agrees_no_edit_iff (ok : console.Ok) (agrees : console.Agrees) {scanCode : UInt8}
    {freePid : Bool} (noEdit : console.keyboard.edit behind scanCode = none)
    (displayed : (keyboardHandler behind freePid scanCode console.keyboard).lines.currentTerminal =
      console.keyboard.lines.currentTerminal) :
    ((console.key behind freePid scanCode).Agrees ↔
        ¬ Disturbs behind console (.key scanCode freePid)) ∧
      (¬ Disturbs behind console (.key scanCode freePid) →
        (console.key behind freePid scanCode).Ok) := by
  have same := lines_of_displayed freePid noEdit displayed
  unfold Console.key
  rw [echo_of_no_edit freePid noEdit]
  unfold Disturbs
  by_cases isTab : scanCode = 0x0F
  · rw [if_pos isTab]
    exact ⟨iff_of_false (Console.not_agrees_tab ok agrees same) (not_not.mpr (.inl isTab)),
      fun calm => absurd (.inl isTab) calm⟩
  rw [if_neg isTab]
  by_cases isClear : console.keyboard.ctrlState = true ∧ scanCode = 0x26
  · rcases Console.agrees_clear_iff ok agrees same with ⟨clearOk, clearAgrees⟩
    rw [if_pos isClear]
    refine ⟨clearAgrees.trans ⟨?_, fun calm => ?_⟩, fun _ => clearOk⟩
    · rintro home (tab | clear | ⟨char, isChar, -⟩)
      · exact isTab tab
      · exact clear.2.2 home
      · cases noEdit.symm.trans isChar
    · by_contra notHome
      exact calm (.inr (.inl ⟨isClear.1, isClear.2, notHome⟩))
  rw [if_neg isClear]
  have calm : ¬ (scanCode = 0x0F ∨ (console.keyboard.ctrlState = true ∧ scanCode = 0x26 ∧
      console.shown.cursorCell ≠ 0) ∨ ∃ char, console.keyboard.edit behind scanCode =
        some (.char char) ∧ IsNewline char ∧ console.keyboard.lines.bufferIndex < 127) := by
    rintro (tab | clear | ⟨char, isChar, -⟩)
    · exact isTab tab
    · exact isClear ⟨clear.1, clear.2.1⟩
    · cases noEdit.symm.trans isChar
  have still : ∀ video, video = console.video →
      Console.Ok { console with
        video := video, keyboard := keyboardHandler behind freePid scanCode console.keyboard } ∧
        Console.Agrees { console with
          video := video, keyboard := keyboardHandler behind freePid scanCode console.keyboard } := by
    rintro video rfl
    refine ⟨ok.with_keyboard (by rw [same]) (by rw [same]) (by rw [same]; exact ok.bufferIndex), ?_⟩
    show console.shown.Shows console.lineStart
      (keyboardHandler behind freePid scanCode console.keyboard).lines.text
    rw [same]
    exact agrees
  split_ifs with isFunctionKey
  · rcases isFunctionKey with ⟨special, alt, low, high⟩
    rw [lines_of_functionKey freePid special alt low high] at displayed
    have kept := still _ (ok.switchTerminal_eq_self freePid displayed)
    exact ⟨iff_of_true kept.2 calm, fun _ => kept.1⟩
  · have kept := still _ rfl
    exact ⟨iff_of_true kept.2 calm, fun _ => kept.1⟩

/-- **One step, exactly.** The two sides agree after a step if and only if it echoes
nothing that is not in the buffer. -/
theorem Console.agrees_step_iff (ok : console.Ok) (agrees : console.Agrees)
    (taken : Console.step behind console label = some next) :
    (next.Agrees ↔ ¬ Disturbs behind console label) ∧
      (¬ Disturbs behind console label → next.Ok) := by
  unfold Console.step at taken
  cases label with
  | tputc char terminal =>
      dsimp only at taken
      split_ifs at taken with isShown
      cases taken
      have inBounds := ok.displays.inBounds terminal
      have kept := Console.agrees_of_other ok agrees (Screen.draws_tputc inBounds char) isShown
        (inBounds.apply (.tputc char)) (terminalActive_tputc ..)
      exact ⟨iff_of_true kept.2 id, fun _ => kept.1⟩
  | userStore terminal offset byte =>
      dsimp only at taken
      split_ifs at taken with isShown
      cases taken
      have kept := Console.agrees_of_other ok agrees
        (draws_userStore ok.displays terminal offset byte) isShown
        ((ok.displays.inBounds terminal).apply (.store offset byte)) rfl
      exact ⟨iff_of_true kept.2 id, fun _ => kept.1⟩
  | key scanCode freePid =>
      dsimp only at taken
      split_ifs at taken with excluded
      simp only [not_or, not_not] at excluded
      rcases excluded with ⟨notEnter, displayed⟩
      cases taken
      cases edited : console.keyboard.edit behind scanCode with
      | none => exact Console.agrees_no_edit_iff ok agrees edited displayed
      | some edit =>
          have lines := lines_of_edit freePid edited
          cases edit with
          | enter => exact absurd (edit_eq_enter edited) notEnter
          | erase =>
              have kept := Console.agrees_erase ok agrees lines
              have calm : ¬ Disturbs behind console (.key scanCode freePid) := by
                have code := edit_eq_erase edited
                rintro (tab | clear | ⟨char, isChar, -⟩)
                · exact absurd (code.symm.trans tab) (by decide)
                · exact absurd (code.symm.trans clear.2.1) (by decide)
                · cases edited.symm.trans isChar
              unfold Console.key
              rw [echo_of_erase freePid edited]
              exact ⟨iff_of_true kept.2 calm, fun _ => kept.1⟩
          | char char =>
              rcases Console.agrees_char_iff ok agrees lines with ⟨nextOk, nextAgrees⟩
              rcases edit_eq_char edited with ⟨special, noControl, -, -⟩
              unfold Console.key
              rw [echo_of_char freePid edited]
              refine ⟨nextAgrees.trans (not_congr ?_), fun _ => nextOk⟩
              have notTab : scanCode ≠ 0x0F := by
                rintro rfl
                exact special rfl
              simp [Disturbs, notTab, noControl, edited]

end Steps

/-! ### Runs -/

/-- An empty line on a machine whose screens and lines are in step. -/
structure Console.Begins (console : Console) : Prop extends console.Ok where
  empty : console.keyboard.lines.bufferIndex = 0
  lineStart : console.lineStart = console.shown.cursorCell

/-- Backspace blanks the cell of the character it removes, and no other cell. -/
def ErasesItsCell (behind : KeyMap → UInt8 → UInt8) (console : Console) : ConsoleLabel → Prop
  | .key scanCode freePid =>
      scanCode = 0x0E → console.keyboard.lines.bufferIndex ≠ 0 →
        (console.key behind freePid scanCode).shown.page =
          PrivateScreen.erase
            (console.lineStart + (console.keyboard.lines.text.length - 1)) console.shown.page
  | _ => True

section Runs

variable {behind : KeyMap → UInt8 → UInt8} {console : Console}

theorem Console.Begins.agrees (begins : console.Begins) : console.Agrees := by
  have empty : console.keyboard.lines.text = [] := by
    rw [Lines.text, begins.empty]
    rfl
  unfold Console.Agrees
  rw [empty]
  exact PrivateScreen.shows_nil.mpr begins.lineStart.symm

theorem Console.erasesItsCell (ok : console.Ok) (agrees : console.Agrees) (label : ConsoleLabel) :
    ErasesItsCell behind console label := by
  cases label with
  | tputc char terminal => trivial
  | userStore terminal offset byte => trivial
  | key scanCode freePid =>
      intro isErase nonzero
      have erases : console.keyboard.edit behind scanCode = some .erase := by
        rw [isErase]
        rfl
      have nonempty : console.keyboard.lines.text ≠ [] := by
        intro none
        have length := console.keyboard.lines.holds_text.length
        rw [none] at length
        exact nonzero (UInt8.toNat_inj.mp length)
      unfold Console.key
      rw [echo_of_erase freePid erases, if_neg nonzero]
      have drawn := shown_of_draws (draws_terminalBackspace ok.displays)
      have erased := (agrees.backspace ok.inBounds nonempty).2
      exact (congrArg PrivateScreen.page drawn).trans erased

/-- **Echo, exactly.** From an empty line on, the screen shows what the buffer holds
after every step of every run if and only if no step echoes anything else: no Tab,
no Ctrl+L away from home, no newline from behind a key map. In such a run each
Backspace blanks exactly the cell of the character it removes. -/
theorem echo_agrees_iff (begins : console.Begins) (labels : List ConsoleLabel) :
    (Step.AllStates (Console.step behind) Console.Agrees console labels ↔
        Step.AllSteps (Console.step behind) (fun console label => ¬ Disturbs behind console label)
          console labels) ∧
      (Step.AllSteps (Console.step behind) (fun console label => ¬ Disturbs behind console label)
          console labels →
        Step.AllSteps (Console.step behind) (ErasesItsCell behind) console labels) := by
  have start : console.Ok ∧ console.Agrees := ⟨begins.toOk, begins.agrees⟩
  have exactly : ∀ console label next, console.Ok ∧ console.Agrees →
      Console.step behind console label = some next →
      (next.Agrees ↔ ¬ Disturbs behind console label) :=
    fun console label next both taken => (Console.agrees_step_iff both.1 both.2 taken).1
  have kept : ∀ console label next, console.Ok ∧ console.Agrees →
      Console.step behind console label = some next → ¬ Disturbs behind console label →
      next.Ok ∧ next.Agrees := by
    intro console label next both taken calm
    have step := Console.agrees_step_iff both.1 both.2 taken
    exact ⟨step.2 calm, step.1.mpr calm⟩
  refine ⟨Step.allStates_iff_allSteps exactly kept start begins.agrees, fun calm => ?_⟩
  exact Step.allSteps_of_allSteps
    (fun console label next both calm taken => kept console label next both taken calm)
    (fun console label next both _ _ => Console.erasesItsCell both.1 both.2 label) start calm

end Runs

/-! ### The first line -/

/-- The driver and the screens as the kernel starts them. -/
def Console.start : Console := ⟨Machine.start.keyboard, .start fun _ => 0, 0⟩

theorem Console.begins_start : Console.start.Begins where
  displays := displays_start fun _ => 0
  currentTerminal := rfl
  terminalActive := rfl
  bufferIndex := by decide
  empty := rfl
  lineStart := rfl

/-- The keys "a" and Backspace. -/
theorem echo_agrees_start :
    Step.AllStates (Console.step (consecutive fun _ => 0)) Console.Agrees .start
      [.key 0x1E true, .key 0x0E true] := by
  apply (echo_agrees_iff Console.begins_start _).1.mpr
  intro next taken
  cases taken
  refine ⟨?_, fun next taken => ?_⟩
  · rintro (tab | clear | ⟨char, isChar, isNewline, -⟩)
    · exact absurd tab (by decide)
    · exact absurd clear.1 (by decide)
    · have letter : some (Edit.char 0x61) = some (.char char) := isChar
      cases letter
      exact absurd isNewline (by decide)
  · cases taken
    refine ⟨?_, trivial⟩
    rintro (tab | clear | ⟨char, isChar, -⟩)
    · exact absurd tab (by decide)
    · exact absurd clear.1 (by decide)
    · have erase : some Edit.erase = some (.char char) := isChar
      cases erase

/-- The keys "a" and Tab. -/
theorem not_forall_agrees :
    ¬ ∀ (console : Console) (labels : List ConsoleLabel), console.Begins →
      Step.AllStates (Console.step (consecutive fun _ => 0)) Console.Agrees console labels := by
  intro all
  have states := all .start [.key 0x1E true, .key 0x0F true] Console.begins_start
  have typed := states.2 _ rfl
  have first := Console.agrees_step_iff Console.begins_start.toOk states.1
    (show Console.step (consecutive fun _ => 0) .start (.key 0x1E true) = some _ from rfl)
  have second := Console.agrees_step_iff (first.2 (first.1.mp typed.1)) typed.1
    (show Console.step (consecutive fun _ => 0) _ (.key 0x0F true) = some _ from rfl)
  exact second.1.mp (typed.2 _ rfl) (.inl rfl)

end MonolithicKernel.Input
