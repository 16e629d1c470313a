import MonolithicKernel.Screen.PrivateScreen

/-!
Owns what the operations draw: the page table shows each terminal its own page,
the displayed one in page 0xB8, and every operation but a switch redraws the page
of one terminal and moves its cursor as on a private screen.

Does not own switches or runs.
-/

namespace MonolithicKernel.Screen

open MonolithicKernel.Foundation
open MonolithicKernel.Process (Terminal)

/-- What a terminal shows: the physical page behind its virtual page, and its
cursor. -/
def Video.screen (video : Video) (terminal : Terminal) : PrivateScreen where
  page := window 4096 video.memory (video.pageTable (terminalPage terminal))
  x := video.termX terminal
  y := video.termY terminal

/-- The page table, the cursor kept twice, and the cursors in bounds. -/
structure Displays (video : Video) : Prop where
  kernelPage : video.pageTable videoMemIndex = videoMemIndex
  terminalPages : ∀ terminal, video.pageTable (terminalPage terminal) =
    if terminal = video.currentTerminal then videoMemIndex else terminalPage terminal
  savedPage : video.pageTable savedPage = terminalPage video.currentTerminal
  screenX : video.screenX = video.termX video.currentTerminal
  screenY : video.screenY = video.termY video.currentTerminal
  inBounds : ∀ terminal, (video.screen terminal).InBounds

/-- Only the screen of `terminal` has changed. -/
structure Draws (video video' : Video) (terminal : Terminal) (screen : PrivateScreen) : Prop where
  pageTable : video'.pageTable = video.pageTable
  currentTerminal : video'.currentTerminal = video.currentTerminal
  drawn : Redrawn (video.pageTable (terminalPage terminal)) (fun _ => screen.page) video.memory
    video'.memory
  termX : video'.termX = Function.update video.termX terminal screen.x
  termY : video'.termY = Function.update video.termY terminal screen.y
  screenX : video'.screenX = if terminal = video.currentTerminal then screen.x else video.screenX
  screenY : video'.screenY = if terminal = video.currentTerminal then screen.y else video.screenY

section Draws

variable {video video' : Video} {terminal other : Terminal} {screen : PrivateScreen}

theorem terminalPage_ne_videoMemIndex (terminal : Terminal) :
    terminalPage terminal ≠ videoMemIndex := by
  unfold terminalPage
  omega

theorem terminalPage_injective (same : terminalPage terminal = terminalPage other) :
    terminal = other := by
  unfold terminalPage at same
  exact Fin.ext (by omega)

/-- Two terminals never share a physical page. -/
theorem Displays.pageTable_ne (displays : Displays video) (differ : other ≠ terminal) :
    video.pageTable (terminalPage other) ≠ video.pageTable (terminalPage terminal) := by
  rw [displays.terminalPages, displays.terminalPages]
  split_ifs with first second second
  · exact absurd (first.trans second.symm) differ
  · exact (terminalPage_ne_videoMemIndex terminal).symm
  · exact terminalPage_ne_videoMemIndex other
  · exact fun same => differ (terminalPage_injective same)

theorem Draws.screen_self (draws : Draws video video' terminal screen) :
    video'.screen terminal = screen := by
  unfold Video.screen
  rw [draws.pageTable, draws.drawn.same, draws.termX, draws.termY, Function.update_self,
    Function.update_self]

theorem Draws.screen_other (draws : Draws video video' terminal screen)
    (displays : Displays video) (differ : other ≠ terminal) :
    video'.screen other = video.screen other := by
  unfold Video.screen
  rw [draws.pageTable, draws.drawn.others _ (displays.pageTable_ne differ), draws.termX,
    draws.termY, Function.update_of_ne differ, Function.update_of_ne differ]

theorem Draws.displays (draws : Draws video video' terminal screen) (displays : Displays video)
    (inBounds : screen.InBounds) : Displays video' := by
  constructor
  case kernelPage =>
    rw [draws.pageTable]
    exact displays.kernelPage
  case terminalPages =>
    intro other
    rw [draws.pageTable, draws.currentTerminal]
    exact displays.terminalPages other
  case savedPage =>
    rw [draws.pageTable, draws.currentTerminal]
    exact displays.savedPage
  case screenX =>
    rw [draws.screenX, draws.termX, draws.currentTerminal]
    split_ifs with displayed
    · rw [displayed, Function.update_self]
    · rw [Function.update_of_ne (Ne.symm displayed), displays.screenX]
  case screenY =>
    rw [draws.screenY, draws.termY, draws.currentTerminal]
    split_ifs with displayed
    · rw [displayed, Function.update_self]
    · rw [Function.update_of_ne (Ne.symm displayed), displays.screenY]
  case inBounds =>
    intro other
    by_cases here : other = terminal
    · rw [here, draws.screen_self]
      exact inBounds
    · rw [draws.screen_other displays here]
      exact displays.inBounds other

end Draws

/-! ### Operations on any terminal -/

/-- The screen of `terminal` has changed, but not yet the cursor on display. -/
structure Drafts (video video' : Video) (terminal : Terminal) (screen : PrivateScreen) : Prop where
  pageTable : video'.pageTable = video.pageTable
  currentTerminal : video'.currentTerminal = video.currentTerminal
  drawn : Redrawn (video.pageTable (terminalPage terminal)) (fun _ => screen.page) video.memory
    video'.memory
  termX : video'.termX = Function.update video.termX terminal screen.x
  termY : video'.termY = Function.update video.termY terminal screen.y
  screenX : video'.screenX = video.screenX
  screenY : video'.screenY = video.screenY

section Drafts

variable {video video' video'' : Video} {terminal : Terminal} {screen screen' : PrivateScreen}

theorem Drafts.refl (video : Video) (terminal : Terminal) :
    Drafts video video terminal (video.screen terminal) := by
  constructor
  case drawn => exact (Redrawn.refl _ _).congr rfl
  case termX => exact (Function.update_eq_self ..).symm
  case termY => exact (Function.update_eq_self ..).symm
  all_goals rfl

theorem Drafts.trans (first : Drafts video video' terminal screen)
    (second : Drafts video' video'' terminal screen') : Drafts video video'' terminal screen' := by
  constructor
  case pageTable => exact second.pageTable.trans first.pageTable
  case currentTerminal => exact second.currentTerminal.trans first.currentTerminal
  case drawn =>
    have drawn := second.drawn
    rw [first.pageTable] at drawn
    exact first.drawn.trans drawn
  case termX => rw [second.termX, first.termX, Function.update_idem]
  case termY => rw [second.termY, first.termY, Function.update_idem]
  case screenX => exact second.screenX.trans first.screenX
  case screenY => exact second.screenY.trans first.screenY

theorem Drafts.screen_self (drafts : Drafts video video' terminal screen) :
    video'.screen terminal = screen := by
  unfold Video.screen
  rw [drafts.pageTable, drafts.drawn.same, drafts.termX, drafts.termY, Function.update_self,
    Function.update_self]

/-- `tputc` ends by moving the cursor on display. -/
theorem Drafts.draws (drafts : Drafts video video' terminal screen) :
    Draws video
      (if terminal = video'.currentTerminal then
        { video' with screenX := video'.termX terminal, screenY := video'.termY terminal }
      else video') terminal screen := by
  have current := drafts.currentTerminal
  split_ifs with displayed
  · rw [current] at displayed
    constructor
    case screenX =>
      rw [if_pos displayed]
      show video'.termX terminal = screen.x
      rw [drafts.termX, Function.update_self]
    case screenY =>
      rw [if_pos displayed]
      show video'.termY terminal = screen.y
      rw [drafts.termY, Function.update_self]
    case pageTable => exact drafts.pageTable
    case currentTerminal => exact drafts.currentTerminal
    case drawn => exact drafts.drawn
    case termX => exact drafts.termX
    case termY => exact drafts.termY
  · rw [current] at displayed
    exact ⟨drafts.pageTable, current, drafts.drawn, drafts.termX, drafts.termY,
      drafts.screenX.trans (if_neg displayed).symm, drafts.screenY.trans (if_neg displayed).symm⟩

/-- Redraw the page of a terminal and set its cursor. -/
theorem drafts_setCursor {memory : Nat → UInt8} {x y : Nat} {page : Page 4096 UInt8}
    (drawn : Redrawn (video.pageTable (terminalPage terminal)) (fun _ => page) video.memory memory) :
    Drafts video ({ video with memory := memory }.setCursor terminal x y) terminal ⟨page, x, y⟩ :=
  ⟨rfl, rfl, drawn, rfl, rfl, rfl, rfl⟩

theorem drafts_scroll (video : Video) (terminal : Terminal) :
    Drafts video (video.tscrollIfFull terminal) terminal (video.screen terminal).scrollIfFull := by
  unfold Video.tscrollIfFull PrivateScreen.scrollIfFull
  by_cases full : 25 ≤ video.termY terminal
  · have full' : 25 ≤ (video.screen terminal).y := full
    rw [if_pos full, if_pos full']
    apply drafts_setCursor
    exact (redrawn_scroll video.pageTable (terminalPage terminal) video.memory).congr rfl
  · have full' : ¬ 25 ≤ (video.screen terminal).y := full
    rw [if_neg full, if_neg full']
    exact Drafts.refl video terminal

theorem drafts_tnewline (x : video.termX terminal < 80) (y : video.termY terminal ≤ 24) :
    Drafts video (video.tnewline terminal) terminal (video.screen terminal).newline := by
  have inRow : ∀ cell ∈ (List.range' (video.termX terminal) (81 - video.termX terminal)).map
      fun column => 80 * video.termY terminal + column, cell < 2048 := by
    simp only [List.mem_map, List.mem_range'_1]
    omega
  have blanked := redrawn_fill video.pageTable (terminalPage terminal) 0x20 0x07 inRow video.memory
  rw [List.foldl_map] at blanked
  apply drafts_setCursor
  apply blanked.congr
  apply withCells_congr
  intro cell
  apply decide_eq_decide.mpr
  simp only [List.mem_map, List.mem_range'_1, Video.screen]
  constructor
  · intro bounds
    exact ⟨cell - 80 * video.termY terminal, by omega, by omega⟩
  · rintro ⟨column, bounds, rfl⟩
    omega

theorem drafts_tput (x : video.termX terminal < 80) (y : video.termY terminal ≤ 24)
    (char : UInt8) :
    Drafts video (video.tput char terminal) terminal ((video.screen terminal).put char) := by
  have inPage : 80 * video.termY terminal + video.termX terminal < 2048 := by omega
  have set := redrawn_setCell video.pageTable (terminalPage terminal) char 0x07 inPage video.memory
  unfold Video.tput PrivateScreen.put
  dsimp only
  by_cases wraps : 80 ≤ video.termX terminal + 1
  · have wraps' : 80 ≤ (video.screen terminal).x + 1 := wraps
    rw [if_pos wraps, if_pos wraps', if_pos wraps']
    exact drafts_setCursor (set.congr rfl)
  · have wraps' : ¬ 80 ≤ (video.screen terminal).x + 1 := wraps
    rw [if_neg wraps, if_neg wraps', if_neg wraps']
    exact drafts_setCursor (set.congr rfl)

theorem draws_tputc_of_lt (x : (video.screen terminal).x < 80) (char : UInt8) :
    Draws video (video.tputc char terminal) terminal ((video.screen terminal).tputc char) := by
  have scrolled := drafts_scroll video terminal
  have bounds := PrivateScreen.scrollIfFull_onScreen x
  unfold Video.tputc PrivateScreen.tputc
  dsimp only
  apply Drafts.draws
  apply scrolled.trans
  rw [← scrolled.screen_self] at bounds ⊢
  split_ifs
  · exact drafts_tnewline bounds.1 bounds.2
  · exact drafts_tput bounds.1 bounds.2 char

theorem draws_tputc (inBounds : (video.screen terminal).InBounds) (char : UInt8) :
    Draws video (video.tputc char terminal) terminal ((video.screen terminal).tputc char) :=
  draws_tputc_of_lt inBounds.x char

/-- Redraw the page of a terminal and leave its cursor where it is. -/
theorem draws_of_redrawn {memory : Nat → UInt8} {page : Page 4096 UInt8} (displays : Displays video)
    (drawn : Redrawn (video.pageTable (terminalPage terminal)) (fun _ => page) video.memory memory) :
    Draws video { video with memory := memory } terminal
      ⟨page, video.termX terminal, video.termY terminal⟩ := by
  constructor
  case drawn => exact drawn
  case termX => exact (Function.update_eq_self ..).symm
  case termY => exact (Function.update_eq_self ..).symm
  case screenX =>
    split_ifs with displayed
    · rw [displayed]
      exact displays.screenX
    · rfl
  case screenY =>
    split_ifs with displayed
    · rw [displayed]
      exact displays.screenY
    · rfl
  all_goals rfl

theorem Draws.refl (displays : Displays video) (terminal : Terminal) :
    Draws video video terminal (video.screen terminal) :=
  draws_of_redrawn displays ((Redrawn.refl _ _).congr rfl)

theorem draws_userStore (displays : Displays video) (terminal : Terminal) (offset : Fin 4096)
    (byte : UInt8) :
    Draws video (video.userStore terminal offset byte) terminal
      ((video.screen terminal).store offset byte) :=
  draws_of_redrawn displays ((Redrawn.store video.pageTable (terminalPage terminal)
    offset.isLt video.memory byte).congr rfl)

end Drafts

/-! ### Operations on the screen on display -/

/-- Page 0xB8 and the cursor on display. -/
def Video.displayed (video : Video) : PrivateScreen where
  page := window 4096 video.memory (video.pageTable videoMemIndex)
  x := video.screenX
  y := video.screenY

/-- The screen on display has changed, but its cursor is not saved yet. -/
structure Sketches (video video' : Video) (screen : PrivateScreen) : Prop where
  pageTable : video'.pageTable = video.pageTable
  currentTerminal : video'.currentTerminal = video.currentTerminal
  drawn : Redrawn (video.pageTable videoMemIndex) (fun _ => screen.page) video.memory video'.memory
  termX : video'.termX = video.termX
  termY : video'.termY = video.termY
  screenX : video'.screenX = screen.x
  screenY : video'.screenY = screen.y

section Sketches

variable {video video' video'' : Video} {screen screen' : PrivateScreen}

/-- The displayed page is the page of the displayed terminal. -/
theorem Displays.pageTable_current (displays : Displays video) :
    video.pageTable (terminalPage video.currentTerminal) = video.pageTable videoMemIndex := by
  rw [displays.terminalPages, if_pos rfl, displays.kernelPage]

theorem Displays.screen_current (displays : Displays video) :
    video.screen video.currentTerminal = video.displayed := by
  unfold Video.screen Video.displayed
  rw [displays.pageTable_current, displays.screenX, displays.screenY]

theorem Sketches.trans (first : Sketches video video' screen)
    (second : Sketches video' video'' screen') : Sketches video video'' screen' := by
  constructor
  case pageTable => exact second.pageTable.trans first.pageTable
  case currentTerminal => exact second.currentTerminal.trans first.currentTerminal
  case drawn =>
    have drawn := second.drawn
    rw [first.pageTable] at drawn
    exact first.drawn.trans drawn
  case termX => exact second.termX.trans first.termX
  case termY => exact second.termY.trans first.termY
  case screenX => exact second.screenX
  case screenY => exact second.screenY

theorem Sketches.displayed_self (sketches : Sketches video video' screen) :
    video'.displayed = screen := by
  unfold Video.displayed
  rw [sketches.pageTable, sketches.drawn.same, sketches.screenX, sketches.screenY]

/-- Redraw page 0xB8 and set the cursor. -/
theorem sketches_of_redrawn {memory : Nat → UInt8} {x y : Nat} {page : Page 4096 UInt8}
    (drawn : Redrawn (video.pageTable videoMemIndex) (fun _ => page) video.memory memory) :
    Sketches video { video with memory := memory, screenX := x, screenY := y } ⟨page, x, y⟩ :=
  ⟨rfl, rfl, drawn, rfl, rfl, rfl, rfl⟩

theorem Sketches.savePos (sketches : Sketches video video' screen) (displays : Displays video) :
    Draws video video'.savePos video.currentTerminal screen := by
  have current := sketches.currentTerminal
  constructor
  case pageTable => exact sketches.pageTable
  case currentTerminal => exact current
  case drawn =>
    rw [displays.pageTable_current]
    exact sketches.drawn
  case termX =>
    show Function.update video'.termX video'.currentTerminal video'.screenX = _
    rw [current, sketches.termX, sketches.screenX]
  case termY =>
    show Function.update video'.termY video'.currentTerminal video'.screenY = _
    rw [current, sketches.termY, sketches.screenY]
  case screenX =>
    rw [if_pos rfl]
    exact sketches.screenX
  case screenY =>
    rw [if_pos rfl]
    exact sketches.screenY

theorem sketches_scroll (video : Video) :
    Sketches video video.scrollIfFull video.displayed.scrollIfFull := by
  unfold Video.scrollIfFull PrivateScreen.scrollIfFull
  by_cases full : 25 ≤ video.screenY
  · have full' : 25 ≤ video.displayed.y := full
    rw [if_pos full, if_pos full']
    apply sketches_of_redrawn
    exact (redrawn_scroll video.pageTable videoMemIndex video.memory).congr rfl
  · have full' : ¬ 25 ≤ video.displayed.y := full
    rw [if_neg full, if_neg full']
    exact sketches_of_redrawn ((Redrawn.refl _ _).congr rfl)

theorem sketches_put (x : video.screenX < 80) (y : video.screenY ≤ 24) (char : UInt8) :
    Sketches video (video.put char) (video.displayed.put char) := by
  have inPage : 80 * video.screenY + video.screenX < 2048 := by omega
  have set := redrawn_setCell video.pageTable videoMemIndex char 0x07 inPage video.memory
  unfold Video.put PrivateScreen.put
  dsimp only
  by_cases wraps : 80 ≤ video.screenX + 1
  · have wraps' : 80 ≤ video.displayed.x + 1 := wraps
    rw [if_pos wraps, if_pos wraps', if_pos wraps']
    exact sketches_of_redrawn (set.congr rfl)
  · have wraps' : ¬ 80 ≤ video.displayed.x + 1 := wraps
    rw [if_neg wraps, if_neg wraps', if_neg wraps']
    exact sketches_of_redrawn (set.congr rfl)

theorem draws_putc (displays : Displays video) (char : UInt8) :
    Draws video (video.putc char) video.currentTerminal
      ((video.screen video.currentTerminal).putc char) := by
  have bounds := (displays.inBounds video.currentTerminal).scrollIfFull
  rw [displays.screen_current] at bounds ⊢
  have scrolled := sketches_scroll video
  apply Sketches.savePos _ displays
  apply scrolled.trans
  unfold PrivateScreen.putc
  rw [← scrolled.displayed_self] at bounds ⊢
  split_ifs
  · exact sketches_of_redrawn ((Redrawn.refl _ _).congr rfl)
  · exact sketches_put bounds.1 bounds.2 char

theorem draws_clear (displays : Displays video) :
    Draws video video.clear video.currentTerminal (video.screen video.currentTerminal).clear := by
  rw [displays.screen_current]
  apply Sketches.savePos _ displays
  apply sketches_of_redrawn
  have onScreen : ∀ cell ∈ List.range 2000, cell < 2048 := by
    intro cell member
    have small := List.mem_range.mp member
    omega
  have filled := redrawn_fill video.pageTable videoMemIndex 0x20 0x07 onScreen video.memory
  apply filled.congr
  apply withCells_congr
  intro cell
  exact decide_eq_decide.mpr List.mem_range.symm

theorem redrawn_erase {cell : Nat} (inside : cell < 2048) (memory : Nat → UInt8)
    (pageTable : PageMap) (virtual : Nat) :
    Redrawn (pageTable virtual) (PrivateScreen.erase cell) memory
      (store 4096 pageTable memory (virtual * 4096 + 2 * cell) 0x20) := by
  have stored := Redrawn.store pageTable virtual (show 2 * cell < 4096 by omega) memory 0x20
  apply stored.congr
  funext offset
  unfold PrivateScreen.erase
  by_cases here : offset.val = 2 * cell
  · rw [if_pos here, show offset = ⟨2 * cell, by omega⟩ from Fin.ext here, Function.update_self]
  · rw [if_neg here, Function.update_of_ne fun same => here (congrArg Fin.val same)]

theorem draws_terminalBackspace (displays : Displays video) :
    Draws video video.terminalBackspace video.currentTerminal
      (video.screen video.currentTerminal).backspace := by
  have inBounds := displays.inBounds video.currentTerminal
  rw [displays.screen_current] at inBounds ⊢
  have x : video.screenX < 80 := inBounds.x
  have y : video.screenY ≤ 25 := inBounds.y
  have below : video.screenY = 25 → video.screenX = 0 := inBounds.below
  unfold Video.terminalBackspace PrivateScreen.backspace
  by_cases home : video.screenX = 0 ∧ video.screenY = 0
  · have home' : video.displayed.x = 0 ∧ video.displayed.y = 0 := home
    rw [if_pos home, if_pos home', ← displays.screen_current]
    exact Draws.refl displays video.currentTerminal
  · have home' : ¬ (video.displayed.x = 0 ∧ video.displayed.y = 0) := home
    rw [if_neg home, if_neg home']
    by_cases first : video.screenX = 0
    · have first' : video.displayed.x = 0 := first
      rw [if_pos first, if_pos first']
      apply Sketches.savePos _ displays
      apply sketches_of_redrawn
      exact (redrawn_erase (by omega) video.memory video.pageTable videoMemIndex).congr rfl
    · have first' : ¬ video.displayed.x = 0 := first
      rw [if_neg first, if_neg first']
      apply Sketches.savePos _ displays
      apply sketches_of_redrawn
      exact (redrawn_erase (by omega) video.memory video.pageTable videoMemIndex).congr rfl

end Sketches

end MonolithicKernel.Screen
