import MonolithicKernel.Screen.Video

/-!
Owns the abstract screen: one page and one cursor that nobody else touches, and
what each operation does to it, cell by cell. The loops of the C code that store
and copy redraw a page in exactly this way.

Does not own the page table or which terminal an operation goes to.
-/

namespace MonolithicKernel.Screen

open MonolithicKernel.Foundation

/-- The cells of a page that are `inside` get a character and an attribute. -/
def withCells (inside : Nat → Bool) (char attrib : UInt8) (page : Page 4096 UInt8) :
    Page 4096 UInt8 := fun offset =>
  if inside (offset.val / 2) then (if offset.val % 2 = 0 then char else attrib) else page offset

/-- All rows go up by one, and the last is blank. -/
def scrolledPage (page : Page 4096 UInt8) : Page 4096 UInt8 :=
  withCells (fun cell => 1920 ≤ cell ∧ cell < 2000) 0x20 0x00 fun offset =>
    if below : offset.val < 3840 then page ⟨offset.val + 160, by omega⟩ else page offset

/-- A page and a cursor of its own. -/
structure PrivateScreen where
  page : Page 4096 UInt8
  x : Nat
  y : Nat

namespace PrivateScreen

def scrollIfFull (screen : PrivateScreen) : PrivateScreen :=
  if 25 ≤ screen.y then { screen with page := scrolledPage screen.page, y := 24 } else screen

/-- A printable character at the cursor. -/
def put (char : UInt8) (screen : PrivateScreen) : PrivateScreen where
  page := withCells (fun cell => cell = 80 * screen.y + screen.x) char 0x07 screen.page
  x := if 80 ≤ screen.x + 1 then 0 else screen.x + 1
  y := if 80 ≤ screen.x + 1 then screen.y + 1 else screen.y

/-- A line feed that blanks the row from the cursor on, and the cell behind it. -/
def newline (screen : PrivateScreen) : PrivateScreen where
  page := withCells
    (fun cell => 80 * screen.y + screen.x ≤ cell ∧ cell ≤ 80 * screen.y + 80) 0x20 0x07 screen.page
  x := 0
  y := screen.y + 1

def tputc (char : UInt8) (screen : PrivateScreen) : PrivateScreen :=
  if char = 0x0A ∨ char = 0x0D then screen.scrollIfFull.newline else screen.scrollIfFull.put char

def putc (char : UInt8) (screen : PrivateScreen) : PrivateScreen :=
  if char = 0x0A ∨ char = 0x0D then
    { screen.scrollIfFull with x := 0, y := screen.scrollIfFull.y + 1 }
  else screen.scrollIfFull.put char

def clear (screen : PrivateScreen) : PrivateScreen where
  page := withCells (fun cell => cell < 2000) 0x20 0x07 screen.page
  x := 0
  y := 0

def store (offset : Fin 4096) (byte : UInt8) (screen : PrivateScreen) : PrivateScreen :=
  { screen with page := Function.update screen.page offset byte }

/-- The character of a cell is blanked. -/
def erase (cell : Nat) (page : Page 4096 UInt8) : Page 4096 UInt8 := fun offset =>
  if offset.val = 2 * cell then 0x20 else page offset

def backspace (screen : PrivateScreen) : PrivateScreen :=
  if screen.x = 0 ∧ screen.y = 0 then screen
  else if screen.x = 0 then
    ⟨erase (screen.y * 80 - 1) screen.page, 79, screen.y - 1⟩
  else ⟨erase (screen.y * 80 + screen.x - 1) screen.page, screen.x - 1, screen.y⟩

end PrivateScreen

inductive PrivateOp where
  | tputc (char : UInt8)
  | putc (char : UInt8)
  | clear
  | backspace
  | store (offset : Fin 4096) (byte : UInt8)

def PrivateScreen.apply (screen : PrivateScreen) : PrivateOp → PrivateScreen
  | .tputc char => screen.tputc char
  | .putc char => screen.putc char
  | .clear => screen.clear
  | .backspace => screen.backspace
  | .store offset byte => screen.store offset byte

/-! ### The cursor -/

/-- The cursor is on the screen, or at the start of the row below it. -/
structure PrivateScreen.InBounds (screen : PrivateScreen) : Prop where
  x : screen.x < 80
  y : screen.y ≤ 25
  below : screen.y = 25 → screen.x = 0

namespace PrivateScreen

variable {screen : PrivateScreen}

/-- Behind the first lines of `tputc` the cursor is on the screen, in whatever row it was. -/
theorem scrollIfFull_onScreen (x : screen.x < 80) :
    screen.scrollIfFull.x < 80 ∧ screen.scrollIfFull.y ≤ 24 := by
  unfold PrivateScreen.scrollIfFull
  split
  · exact ⟨x, Nat.le_refl 24⟩
  · exact ⟨x, by omega⟩

theorem InBounds.scrollIfFull (inBounds : screen.InBounds) :
    screen.scrollIfFull.x < 80 ∧ screen.scrollIfFull.y ≤ 24 :=
  scrollIfFull_onScreen inBounds.x

theorem inBounds_put (x : screen.x < 80) (y : screen.y ≤ 24) (char : UInt8) :
    (screen.put char).InBounds := by
  unfold put
  constructor
  all_goals dsimp only
  all_goals split
  all_goals omega

/-- Every operation keeps the cursor in bounds. -/
theorem InBounds.apply (inBounds : screen.InBounds) (op : PrivateOp) :
    (screen.apply op).InBounds := by
  rcases inBounds.scrollIfFull with ⟨x, y⟩
  cases op with
  | tputc char =>
      show (screen.tputc char).InBounds
      unfold tputc
      split
      · exact ⟨Nat.zero_lt_succ _, by simp only [newline]; omega, fun _ => rfl⟩
      · exact inBounds_put x y char
  | putc char =>
      show (screen.putc char).InBounds
      unfold putc
      split
      · exact ⟨Nat.zero_lt_succ _, by dsimp only; omega, fun _ => rfl⟩
      · exact inBounds_put x y char
  | clear => exact ⟨Nat.zero_lt_succ _, Nat.zero_le _, fun _ => rfl⟩
  | backspace =>
      have x := inBounds.x
      have y := inBounds.y
      have below := inBounds.below
      show screen.backspace.InBounds
      unfold backspace
      split
      · exact inBounds
      · split
        · exact ⟨Nat.lt_succ_self _, by dsimp only; omega, by dsimp only; omega⟩
        · exact ⟨by dsimp only; omega, y, by dsimp only; omega⟩
  | store offset byte => exact ⟨inBounds.x, inBounds.y, inBounds.below⟩

end PrivateScreen

/-! ### The loops of the code -/

section Loops

variable (pageTable : PageMap) (virtual : Nat) (char attrib : UInt8)

theorem redrawn_setCell {cell : Nat} (inside : cell < 2048) (memory : Nat → UInt8) :
    Redrawn (pageTable virtual) (withCells (fun other => other = cell) char attrib) memory
      (setCell pageTable memory (virtual * 4096) cell char attrib) := by
  have first := Redrawn.store pageTable virtual (show 2 * cell < 4096 by omega) memory char
  have second := Redrawn.store pageTable virtual (show 2 * cell + 1 < 4096 by omega)
    (store 4096 pageTable memory (virtual * 4096 + 2 * cell) char) attrib
  apply (first.trans second).congr
  generalize window 4096 memory (pageTable virtual) = page
  funext offset
  unfold withCells
  by_cases low : offset.val = 2 * cell
  · rw [Function.update_of_ne (fun same => by rw [same] at low; dsimp only at low; omega),
      show offset = ⟨2 * cell, by omega⟩ from Fin.ext low, Function.update_self]
    simp
  · by_cases high : offset.val = 2 * cell + 1
    · rw [show offset = ⟨2 * cell + 1, by omega⟩ from Fin.ext high, Function.update_self]
      have half : (2 * cell + 1) / 2 = cell := by omega
      simp [half]
    · rw [Function.update_of_ne (fun same => high (congrArg Fin.val same)),
        Function.update_of_ne (fun same => low (congrArg Fin.val same)), if_neg]
      simp only [decide_eq_true_eq]
      omega

/-- A loop that sets the same character in a list of cells. -/
theorem redrawn_fill {cells : List Nat} (inside : ∀ cell ∈ cells, cell < 2048)
    (memory : Nat → UInt8) :
    Redrawn (pageTable virtual) (withCells (fun cell => cell ∈ cells) char attrib) memory
      (cells.foldl (fun memory cell => setCell pageTable memory (virtual * 4096) cell char attrib)
        memory) := by
  have each : ∀ memory, ∀ cell ∈ cells, Redrawn (pageTable virtual)
      (fun page => withCells (fun other => other = cell) char attrib page) memory
      (setCell pageTable memory (virtual * 4096) cell char attrib) :=
    fun memory cell member =>
      redrawn_setCell pageTable virtual char attrib (inside cell member) memory
  have loop := Redrawn.foldl each
  apply (loop memory).congr
  clear loop each inside
  generalize window 4096 memory (pageTable virtual) = page
  induction cells generalizing page with
  | nil =>
      funext offset
      simp [withCells]
  | cons cell cells inductionHypothesis =>
      rw [List.foldl_cons, ← inductionHypothesis]
      funext offset
      unfold withCells
      by_cases first : offset.val / 2 = cell
      · simp [first]
      · simp [first]

theorem withCells_congr {inside inside' : Nat → Bool} (same : ∀ cell, inside cell = inside' cell)
    (page : Page 4096 UInt8) :
    withCells inside char attrib page = withCells inside' char attrib page := by
  rw [funext same]

theorem redrawn_scroll (memory : Nat → UInt8) :
    Redrawn (pageTable virtual) scrolledPage memory (scroll pageTable memory (virtual * 4096)) := by
  have moved := Redrawn.copyUp pageTable virtual virtual (show 0 + 3840 ≤ 4096 by omega)
    (show 160 + 3840 ≤ 4096 by omega) (.inr (Nat.zero_le _)) memory
  have inLastRow : ∀ cell ∈ (List.range 80).map fun column => 80 * 24 + column, cell < 2048 := by
    simp
    omega
  have blanked := redrawn_fill pageTable virtual 0x20 0x00 inLastRow
    (copyUp 4096 pageTable (virtual * 4096 + 0) (virtual * 4096 + 160) memory 3840)
  rw [List.foldl_map] at blanked
  apply (moved.trans blanked).congr
  unfold scrolledPage
  have cells : (fun cell => decide (1920 ≤ cell ∧ cell < 2000)) = fun cell =>
      decide (cell ∈ (List.range 80).map fun column => 80 * 24 + column) := by
    funext cell
    apply decide_eq_decide.mpr
    constructor
    · intro bounds
      exact List.mem_map.mpr ⟨cell - 1920, List.mem_range.mpr (by omega), by omega⟩
    · intro member
      rcases List.mem_map.mp member with ⟨column, inRow, rfl⟩
      have small := List.mem_range.mp inRow
      omega
  rw [cells]
  congr 1
  funext offset
  simp

end Loops

end MonolithicKernel.Screen
