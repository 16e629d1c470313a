import MonolithicKernel.Foundation.Runs
import MonolithicKernel.Screen.Drawing

/-!
Owns the cells that `tputc` writes. A printable byte is written to the cell under
the cursor. A newline blanks the rest of its row and, since its loop goes up to
column 80, the first cell of the row below as well, which in the last row is no
cell of the screen at all.

Does not own the other operations on the screen.
-/

namespace MonolithicKernel.Screen

open MonolithicKernel.Foundation
open MonolithicKernel.Process (Terminal)

/-! ### Cells -/

/-- The character and the attribute of a cell; the first 2000 are on the screen. -/
def cellAt (page : Page 4096 UInt8) (cell : Fin 2048) : UInt8 × UInt8 :=
  (page ⟨2 * cell.val, by omega⟩, page ⟨2 * cell.val + 1, by omega⟩)

theorem cellAt_withCells (inside : Nat → Bool) (char attrib : UInt8) (page : Page 4096 UInt8)
    (cell : Fin 2048) :
    cellAt (withCells inside char attrib page) cell =
      if inside cell.val then (char, attrib) else cellAt page cell := by
  have even : 2 * cell.val / 2 = cell.val := by omega
  have odd : (2 * cell.val + 1) / 2 = cell.val := by omega
  have first : 2 * cell.val % 2 = 0 := by omega
  have second : (2 * cell.val + 1) % 2 = 1 := by omega
  unfold cellAt withCells
  by_cases here : inside cell.val = true
  · simp [even, odd, first, second, here]
  · simp [even, odd, here]

/-- The scroll of one row: rows 1 to 24 move up and row 24 is blank. -/
def scrolledCell (page : Page 4096 UInt8) (cell : Fin 2048) : UInt8 × UInt8 :=
  if below : cell.val < 1920 then cellAt page ⟨cell.val + 80, by omega⟩
  else if cell.val < 2000 then (0x20, 0x00)
  else cellAt page cell

theorem cellAt_scrolledPage (page : Page 4096 UInt8) (cell : Fin 2048) :
    cellAt (scrolledPage page) cell = scrolledCell page cell := by
  unfold scrolledPage scrolledCell
  rw [cellAt_withCells]
  by_cases moves : cell.val < 1920
  · rw [dif_pos moves, if_neg (by simp; omega)]
    have first : 2 * cell.val < 3840 := by omega
    have second : 2 * cell.val + 1 < 3840 := by omega
    simp only [cellAt, first, second, ↓reduceDIte]
    congr 3
  · rw [dif_neg moves]
    by_cases blank : cell.val < 2000
    · rw [if_pos blank, if_pos (by simp; omega)]
    · rw [if_neg blank, if_neg (by simp; omega)]
      have first : ¬ 2 * cell.val < 3840 := by omega
      have second : ¬ 2 * cell.val + 1 < 3840 := by omega
      simp only [cellAt, first, second, ↓reduceDIte]

/-! ### What `tputc` stores -/

/-- `c == '\n' || c == '\r'`. -/
def IsNewline (char : UInt8) : Prop := char = 0x0A ∨ char = 0x0D

instance (char : UInt8) : Decidable (IsNewline char) := inferInstanceAs (Decidable (_ ∨ _))

/-- The row of the cursor behind the first lines of `tputc`. -/
def cursorRow (y : Nat) : Nat := if 25 ≤ y then 24 else y

/-- The cells that `tputc` stores to behind its first lines, in order. -/
def storedCells (x y : Nat) (char : UInt8) : List Nat :=
  if IsNewline char then (List.range' x (81 - x)).map fun column => 80 * cursorRow y + column
  else [80 * cursorRow y + x]

theorem tscrollIfFull_cursor (video : Video) (terminal : Terminal) :
    (video.tscrollIfFull terminal).termX terminal = video.termX terminal ∧
      (video.tscrollIfFull terminal).termY terminal = cursorRow (video.termY terminal) ∧
      (video.tscrollIfFull terminal).pageTable = video.pageTable := by
  unfold Video.tscrollIfFull cursorRow
  split_ifs
  · exact ⟨Function.update_self .., Function.update_self .., rfl⟩
  · exact ⟨rfl, rfl, rfl⟩

/-- `tputc` ends without a store. -/
theorem memory_showCursor (video : Video) (terminal : Terminal) :
    (if terminal = video.currentTerminal then
        { video with screenX := video.termX terminal, screenY := video.termY terminal }
      else video).memory = video.memory := by
  split
  · rfl
  · rfl

/-- These are all the stores of `tputc` but those of the scroll. -/
theorem memory_tputc (video : Video) (terminal : Terminal) (char : UInt8) :
    (video.tputc char terminal).memory =
      (storedCells (video.termX terminal) (video.termY terminal) char).foldl
        (fun memory cell => setCell video.pageTable memory (Video.terminalMem terminal) cell
          (if IsNewline char then 0x20 else char) 0x07)
        (video.tscrollIfFull terminal).memory := by
  rcases tscrollIfFull_cursor video terminal with ⟨column, row, table⟩
  refine (memory_showCursor (if IsNewline char then
    (video.tscrollIfFull terminal).tnewline terminal
    else (video.tscrollIfFull terminal).tput char terminal) terminal).trans ?_
  unfold storedCells
  split_ifs
  · rw [List.foldl_map, ← table, ← column, ← row]
    rfl
  · rw [List.foldl_cons, List.foldl_nil, ← table, ← column, ← row]
    unfold Video.tput
    dsimp only
    split
    · rfl
    · rfl

/-! ### What `tputc` may change -/

section Writes

variable {video : Video} {terminal : Terminal} {char : UInt8}

/-- A cell behind the first lines of `tputc`, which scroll when the cursor is below
the screen. -/
def settledCell (screen : PrivateScreen) (cell : Fin 2048) : UInt8 × UInt8 :=
  if 25 ≤ screen.y then scrolledCell screen.page cell else cellAt screen.page cell

/-- `tputc` writes only where it should. -/
structure WritesItsCells (terminal : Terminal) (video : Video) (char : UInt8) : Prop where
  cursorX : (video.tputc char terminal).termX terminal < 80
  cursorY : (video.tputc char terminal).termY terminal ≤ 25
  /-- Behind the scroll, these are the cells that it stores to. -/
  stores : (video.tputc char terminal).memory =
    (storedCells (video.termX terminal) (video.termY terminal) char).foldl
      (fun memory cell => setCell video.pageTable memory (Video.terminalMem terminal) cell
        (if IsNewline char then 0x20 else char) 0x07)
      (video.tscrollIfFull terminal).memory
  grid : ∀ cell ∈ storedCells (video.termX terminal) (video.termY terminal) char, cell < 2000
  printable : ¬ IsNewline char → ∀ cell,
    cellAt ((video.tputc char terminal).screen terminal).page cell =
      if cell.val = 80 * cursorRow (video.termY terminal) + video.termX terminal then (char, 0x07)
      else settledCell (video.screen terminal) cell
  newline : IsNewline char → ∀ cell : Fin 2048,
    cell.val < 80 * cursorRow (video.termY terminal) + video.termX terminal ∨
        80 * cursorRow (video.termY terminal) + 80 ≤ cell.val →
      cellAt ((video.tputc char terminal).screen terminal).page cell =
        settledCell (video.screen terminal) cell
  others : ∀ page, page ≠ video.pageTable (terminalPage terminal) →
    window 4096 (video.tputc char terminal).memory page = window 4096 video.memory page

/-- The byte is printable, or the cell that the newline blanks too much is a blank
cell of the screen already. -/
def SparesNextRow (terminal : Terminal) (video : Video) (char : UInt8) : Prop :=
  IsNewline char → ∃ notLast : video.termY terminal < 24,
    cellAt (video.screen terminal).page ⟨80 * (video.termY terminal + 1), by omega⟩ = (0x20, 0x07)

theorem cellAt_scrollIfFull (screen : PrivateScreen) (cell : Fin 2048) :
    cellAt screen.scrollIfFull.page cell = settledCell screen cell := by
  unfold PrivateScreen.scrollIfFull settledCell
  split_ifs
  · exact cellAt_scrolledPage screen.page cell
  · rfl

theorem cellAt_put (char : UInt8) (screen : PrivateScreen) (cell : Fin 2048) :
    cellAt (screen.put char).page cell =
      if cell.val = 80 * screen.y + screen.x then (char, 0x07) else cellAt screen.page cell := by
  unfold PrivateScreen.put
  rw [cellAt_withCells]
  simp only [decide_eq_true_eq]

theorem cellAt_newline (screen : PrivateScreen) (cell : Fin 2048) :
    cellAt screen.newline.page cell =
      if 80 * screen.y + screen.x ≤ cell.val ∧ cell.val ≤ 80 * screen.y + 80 then (0x20, 0x07)
      else cellAt screen.page cell := by
  unfold PrivateScreen.newline
  rw [cellAt_withCells]
  simp only [decide_eq_true_eq]

theorem scrollIfFull_cursor (screen : PrivateScreen) :
    screen.scrollIfFull.x = screen.x ∧ screen.scrollIfFull.y = cursorRow screen.y := by
  unfold PrivateScreen.scrollIfFull cursorRow
  split_ifs
  · exact ⟨rfl, rfl⟩
  · exact ⟨rfl, rfl⟩

theorem tputc_of_newline (isNewline : IsNewline char) (screen : PrivateScreen) :
    screen.tputc char = screen.scrollIfFull.newline := if_pos isNewline

theorem tputc_of_printable (isPrintable : ¬ IsNewline char) (screen : PrivateScreen) :
    screen.tputc char = screen.scrollIfFull.put char := if_neg isPrintable

/-- A cursor with a column has one again after `tputc`, and is on the screen or in
the row below it. -/
theorem cursor_tputc {screen : PrivateScreen} (x : screen.x < 80) (char : UInt8) :
    (screen.tputc char).x < 80 ∧ (screen.tputc char).y ≤ 25 := by
  have bounds := PrivateScreen.scrollIfFull_onScreen x
  unfold PrivateScreen.tputc PrivateScreen.newline PrivateScreen.put
  split
  · exact ⟨Nat.zero_lt_succ _, by dsimp only; omega⟩
  · dsimp only
    split
    · exact ⟨Nat.zero_lt_succ _, by omega⟩
    · exact ⟨by omega, by omega⟩

theorem screen_tputc (x : video.termX terminal < 80) (char : UInt8) :
    (video.tputc char terminal).screen terminal = (video.screen terminal).tputc char :=
  (draws_tputc_of_lt x char).screen_self

/-- A newline that spares the row below writes its own row only. -/
theorem writesItsCells_of_spares (x : video.termX terminal < 80)
    (spares : SparesNextRow terminal video char) : WritesItsCells terminal video char := by
  have column : (video.screen terminal).x < 80 := x
  have drawn := draws_tputc_of_lt column char
  have after := screen_tputc x char
  have bounds := cursor_tputc column char
  have cursor := scrollIfFull_cursor (video.screen terminal)
  have row : cursorRow (video.termY terminal) ≤ 24 := by
    unfold cursorRow
    split <;> omega
  rw [← after] at bounds
  constructor
  case cursorX => exact bounds.1
  case cursorY => exact bounds.2
  case stores => exact memory_tputc video terminal char
  case others => exact drawn.drawn.others
  case grid =>
    intro cell member
    unfold storedCells at member
    split_ifs at member with isNewline
    · obtain ⟨notLast, -⟩ := spares isNewline
      have here : cursorRow (video.termY terminal) = video.termY terminal :=
        if_neg (by omega)
      rcases List.mem_map.mp member with ⟨column, inRow, rfl⟩
      have columns := List.mem_range'_1.mp inRow
      omega
    · rw [List.mem_singleton.mp member]
      omega
  case printable =>
    intro isPrintable cell
    rw [after, tputc_of_printable isPrintable, cellAt_put, cursor.1, cursor.2,
      cellAt_scrollIfFull]
    rfl
  case newline =>
    intro isNewline cell elsewhere
    rw [after, tputc_of_newline isNewline, cellAt_newline, cursor.1, cursor.2,
      cellAt_scrollIfFull]
    split_ifs with blanked
    · -- The only cell that is blanked in another row is the first one of the row below.
      obtain ⟨notLast, already⟩ := spares isNewline
      have notFull : ¬ 25 ≤ (video.screen terminal).y := by
        show ¬ 25 ≤ video.termY terminal
        omega
      have here : cursorRow (video.termY terminal) = video.termY terminal :=
        if_neg notFull
      have next : cell = ⟨80 * (video.termY terminal + 1), by omega⟩ := by
        apply Fin.ext
        have upper := blanked.2
        have lower := blanked.1
        simp only [Video.screen] at upper lower
        dsimp only
        omega
      rw [settledCell, if_neg notFull, next, already]
    · rfl

/-- **One byte, exactly.** `tputc` writes only where it should if and only if the
byte spares the row below. -/
theorem writesItsCells_iff (x : video.termX terminal < 80) :
    WritesItsCells terminal video char ↔ SparesNextRow terminal video char := by
  refine ⟨fun writes isNewline => ?_, writesItsCells_of_spares x⟩
  have lastStored : 80 * cursorRow (video.termY terminal) + 80 ∈
      storedCells (video.termX terminal) (video.termY terminal) char := by
    rw [storedCells, if_pos isNewline]
    exact List.mem_map.mpr ⟨80, List.mem_range'_1.mpr (by omega), rfl⟩
  have onGrid := writes.grid _ lastStored
  have notLast : video.termY terminal < 24 := by
    unfold cursorRow at onGrid
    split at onGrid <;> omega
  have notFull : ¬ 25 ≤ (video.screen terminal).y := by
    show ¬ 25 ≤ video.termY terminal
    omega
  have here : cursorRow (video.termY terminal) = video.termY terminal := if_neg notFull
  refine ⟨notLast, ?_⟩
  have cursor := scrollIfFull_cursor (video.screen terminal)
  have unchanged := writes.newline isNewline ⟨80 * (video.termY terminal + 1), by omega⟩
    (.inr (by dsimp only; omega))
  rw [settledCell, if_neg notFull] at unchanged
  rw [← unchanged, screen_tputc x, tputc_of_newline isNewline, cellAt_newline, cursor.1, cursor.2,
    if_pos]
  show 80 * cursorRow (video.termY terminal) + video.termX terminal ≤
      80 * (video.termY terminal + 1) ∧
    80 * (video.termY terminal + 1) ≤ 80 * cursorRow (video.termY terminal) + 80
  omega

end Writes

/-! ### Runs -/

/-- Bytes that are sent to one terminal. -/
def tputcStep (terminal : Terminal) : Step Video UInt8 :=
  fun video char => some (video.tputc char terminal)

/-- **Writes of tputc, exactly.** From every screen and every cursor with a column, each
byte of a sequence sent to a terminal is written only where it should be if and
only if each of them spares the row below its own. -/
theorem tputc_writes_iff (terminal : Terminal) {video : Video} (x : video.termX terminal < 80)
    (bytes : List UInt8) :
    Step.AllSteps (tputcStep terminal) (WritesItsCells terminal) video bytes ↔
      Step.AllSteps (tputcStep terminal) (SparesNextRow terminal) video bytes := by
  have preserved : ∀ video char next, video.termX terminal < 80 →
      tputcStep terminal video char = some next → next.termX terminal < 80 := by
    intro video char next x taken
    cases taken
    have bounds := (cursor_tputc (show (video.screen terminal).x < 80 from x) char).1
    rwa [← screen_tputc x] at bounds
  exact Step.allSteps_congr preserved (fun video char next x taken => writesItsCells_iff x) x

/-- A printable byte and a newline on a blank screen. -/
theorem tputc_writes_blank :
    Step.AllSteps (tputcStep 1) (WritesItsCells 1)
      (Video.start fun address => if address % 2 = 0 then 0x20 else 0x07) [0x61, 0x0A] := by
  apply (tputc_writes_iff 1 (by decide) _).mpr
  intro next taken
  cases taken
  refine ⟨fun isNewline => absurd isNewline (by decide), fun next taken => ?_⟩
  cases taken
  exact ⟨fun _ => ⟨by decide, by decide⟩, trivial⟩

/-- A newline in row 0 blanks a character of row 1. -/
theorem not_forall_writesItsCells :
    ¬ ∀ (terminal : Terminal) (video : Video) (bytes : List UInt8),
      video.termX terminal < 80 → video.termY terminal ≤ 25 →
      Step.AllSteps (tputcStep terminal) (WritesItsCells terminal) video bytes := by
  intro all
  have writes := (all 1 (.start fun _ => 0x61) [0x0A] (by decide) (by decide) _ rfl).1
  rcases (writesItsCells_iff (by decide)).mp writes (.inl rfl) with ⟨notLast, blank⟩
  have char : (0x61 : UInt8) = 0x20 := congrArg Prod.fst blank
  exact absurd char (by decide)

end MonolithicKernel.Screen
