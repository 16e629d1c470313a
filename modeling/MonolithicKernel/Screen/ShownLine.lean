import MonolithicKernel.Lib.Strings
import MonolithicKernel.Screen.Writes

/-!
Owns a line on a screen: its characters lie in consecutive cells from its start to
the cursor, over row ends. Typing a printable character and erasing one keep that,
also where the row wraps and where the screen scrolls, which moves the start of the
line up by a row.

Does not own where the characters come from.
-/

namespace MonolithicKernel.Screen

open MonolithicKernel.Foundation
open MonolithicKernel.Lib

namespace PrivateScreen

/-- The character in a cell. -/
def charAt (screen : PrivateScreen) (cell : Nat) : UInt8 :=
  if inPage : cell < 2048 then (cellAt screen.page ⟨cell, inPage⟩).1 else 0

/-- The cell under the cursor. -/
def cursorCell (screen : PrivateScreen) : Nat := 80 * screen.y + screen.x

/-- From `start` to the cursor the screen shows exactly this text. -/
structure Shows (screen : PrivateScreen) (start : Nat) (text : Bytes) : Prop where
  cursor : screen.cursorCell = start + text.length
  chars : ∀ i (inLine : i < text.length), screen.charAt (start + i) = text[i]

/-- Where a line starts after a character: the first lines of `tputc` may scroll. -/
def startAfter (screen : PrivateScreen) (start : Nat) : Nat :=
  if 25 ≤ screen.y then start - 80 else start

section Shows

variable {screen : PrivateScreen} {start : Nat} {text : Bytes}

/-- An empty line starts at the cursor. -/
theorem shows_nil : screen.Shows start [] ↔ screen.cursorCell = start :=
  ⟨fun shows => shows.cursor, fun cursor => ⟨cursor, fun _ impossible => by cases impossible⟩⟩

/-- Two lines from the same start to the same cursor are equally long. -/
theorem Shows.length_eq {text' : Bytes} (shows : screen.Shows start text)
    (shows' : screen.Shows start text') : text.length = text'.length := by
  have first := shows.cursor
  have second := shows'.cursor
  omega

/-! ### Typing -/

theorem charAt_put (char : UInt8) (screen : PrivateScreen) (cell : Nat)
    (inPage : cell < 2048) :
    (screen.put char).charAt cell =
      if cell = screen.cursorCell then char else screen.charAt cell := by
  unfold charAt cursorCell
  rw [dif_pos inPage, dif_pos inPage, cellAt_put]
  split_ifs
  · rfl
  · rfl

theorem cursorCell_put (char : UInt8) (x : screen.x < 80) :
    (screen.put char).cursorCell = screen.cursorCell + 1 := by
  unfold cursorCell put
  dsimp only
  split_ifs <;> omega

/-- A character behind the line, on a screen that need not scroll. -/
theorem Shows.put (shows : screen.Shows start text) (x : screen.x < 80) (y : screen.y ≤ 24)
    (char : UInt8) : (screen.put char).Shows start (text ++ [char]) := by
  have cursor := shows.cursor
  have onScreen : screen.cursorCell < 2000 := by
    unfold cursorCell
    omega
  constructor
  · rw [cursorCell_put char x, cursor, List.length_append, List.length_singleton, Nat.add_assoc]
  · intro i inLine
    rw [List.length_append, List.length_singleton] at inLine
    rw [charAt_put char screen _ (by omega)]
    by_cases last : i = text.length
    · rw [if_pos (by omega)]
      simp [last]
    · have before : i < text.length := by omega
      rw [if_neg (by omega), shows.chars i before, List.getElem_append_left before]

/-- The scroll moves the line up with its start. -/
theorem Shows.scrollIfFull (shows : screen.Shows start text) (inBounds : screen.InBounds)
    (short : text.length ≤ 1920) :
    screen.scrollIfFull.Shows (screen.startAfter start) text := by
  have cursor := shows.cursor
  by_cases full : 25 ≤ screen.y
  · have y : screen.y = 25 := by
      have := inBounds.y
      omega
    have x := inBounds.below y
    unfold cursorCell at cursor
    unfold startAfter
    rw [if_pos full]
    constructor
    · unfold PrivateScreen.scrollIfFull cursorCell
      rw [if_pos full]
      dsimp only
      omega
    · intro i inLine
      have moved := cellAt_scrollIfFull screen ⟨start - 80 + i, by omega⟩
      rw [settledCell, if_pos full, scrolledCell, dif_pos (by dsimp only; omega)] at moved
      have same := shows.chars i inLine
      have back : start - 80 + i + 80 = start + i := by omega
      simp only [back] at moved
      rw [← same]
      unfold charAt
      rw [dif_pos (by omega), dif_pos (by omega), moved]
  · unfold PrivateScreen.scrollIfFull startAfter
    rw [if_neg full, if_neg full]
    exact shows

/-- **Typing.** A printable character is shown behind the line. -/
theorem Shows.tputc (shows : screen.Shows start text) (inBounds : screen.InBounds)
    (short : text.length ≤ 1920) {char : UInt8} (printable : ¬ IsNewline char) :
    (screen.tputc char).Shows (screen.startAfter start) (text ++ [char]) := by
  have bounds := inBounds.scrollIfFull
  rw [tputc_of_printable printable]
  exact (shows.scrollIfFull inBounds short).put bounds.1 bounds.2 char

/-- A newline is not shown as a character of the line. -/
theorem Shows.not_newline (shows : screen.Shows start text) (inBounds : screen.InBounds)
    (short : text.length ≤ 1920) {char : UInt8} (isNewline : IsNewline char) :
    ¬ (screen.tputc char).Shows (screen.startAfter start) (text ++ [char]) := by
  intro typed
  have bounds := inBounds.scrollIfFull
  have cursor := (shows.scrollIfFull inBounds short).cursor
  have blank := typed.chars text.length (by simp)
  have onScreen : screen.scrollIfFull.cursorCell < 2000 := by
    unfold cursorCell
    omega
  rw [tputc_of_newline isNewline, ← cursor, charAt, dif_pos (by omega), cellAt_newline,
    if_pos (by simp only [cursorCell]; omega)] at blank
  simp only [List.getElem_concat_length] at blank
  rcases isNewline with rfl | rfl
  · exact absurd blank (by decide)
  · exact absurd blank (by decide)

/-! ### Erasing -/

theorem charAt_erase (screen : PrivateScreen) {cell other : Nat} (differ : other ≠ cell)
    (x y : Nat) :
    (⟨PrivateScreen.erase cell screen.page, x, y⟩ : PrivateScreen).charAt other =
      screen.charAt other := by
  unfold charAt cellAt PrivateScreen.erase
  split_ifs with inPage
  · dsimp only
    rw [if_neg (by omega)]
  · rfl

/-- Erasing goes back over the cell in front of the cursor and blanks that cell. -/
theorem backspace_eq (inBounds : screen.InBounds) (notHome : 0 < screen.cursorCell) :
    screen.backspace.page = erase (screen.cursorCell - 1) screen.page ∧
      screen.backspace.cursorCell = screen.cursorCell - 1 := by
  have x := inBounds.x
  unfold cursorCell at notHome
  unfold backspace cursorCell
  rw [if_neg (by omega)]
  by_cases first : screen.x = 0
  · rw [if_pos first]
    dsimp only
    constructor
    · congr 1
      omega
    · omega
  · rw [if_neg first]
    dsimp only
    constructor
    · congr 1
      omega
    · omega

/-- **Erasing.** Backspace blanks the cell of the line's last character. -/
theorem Shows.backspace (shows : screen.Shows start text) (inBounds : screen.InBounds)
    (nonempty : text ≠ []) :
    screen.backspace.Shows start text.dropLast ∧
      screen.backspace.page = erase (start + (text.length - 1)) screen.page := by
  have positive := List.length_pos_iff.mpr nonempty
  have cursor := shows.cursor
  rcases backspace_eq inBounds (by omega) with ⟨page, back⟩
  have last : screen.cursorCell - 1 = start + (text.length - 1) := by omega
  rw [last] at page
  refine ⟨⟨?_, ?_⟩, page⟩
  · rw [back, last, List.length_dropLast]
  · intro i inLine
    have before : i < text.length - 1 := by simpa using inLine
    have unchanged := charAt_erase screen (show start + i ≠ start + (text.length - 1) by omega)
      screen.backspace.x screen.backspace.y
    rw [← page] at unchanged
    rw [unchanged, shows.chars i (by omega), List.getElem_dropLast]

end Shows

end PrivateScreen

end MonolithicKernel.Screen
