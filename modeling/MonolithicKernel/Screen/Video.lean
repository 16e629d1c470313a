import MonolithicKernel.Foundation.PagedMemory
import MonolithicKernel.Process.Kernel

/-!
Owns the text screens of the three terminals: `paging_init` as far as it maps
video memory, the cursor functions, `clear`, `terminal_backspace`, `putc`, `tputc`,
stores of user programs, and the screen side of `switch_terminal`.

Addresses are virtual and go through the page table. Does not own the hardware
cursor or the characters of the line buffers.
-/

namespace MonolithicKernel.Screen

open MonolithicKernel.Foundation
open MonolithicKernel.Process (Terminal)

/-- `VIDEO_MEM_INDEX`: the page of `video_mem`. -/
def videoMemIndex : Nat := 0xB8

/-- The page behind which `vidmap` and `tputc` find a terminal's screen. -/
def terminalPage (terminal : Terminal) : Nat := videoMemIndex + 1 + terminal.val

/-- The kernel's page for the screen that is put on display. -/
def savedPage : Nat := videoMemIndex + 4

structure Video where
  /-- `address_low` of the entries of `page_table`. -/
  pageTable : PageMap
  /-- Physical memory. -/
  memory : Nat → UInt8
  termX : Terminal → Nat
  termY : Terminal → Nat
  screenX : Nat
  screenY : Nat
  currentTerminal : Terminal
  terminalActive : Terminal → Bool

/-! ### Memory -/

/-- A character and its attribute. -/
def setCell (pageTable : PageMap) (memory : Nat → UInt8) (base cell : Nat) (char attrib : UInt8) :
    Nat → UInt8 :=
  store 4096 pageTable (store 4096 pageTable memory (base + 2 * cell) char) (base + (2 * cell + 1))
    attrib

/-- `scroll` and `tscroll`: `memmove` by one row, and `memset_word` with a
blank whose attribute is 0. -/
def scroll (pageTable : PageMap) (memory : Nat → UInt8) (base : Nat) : Nat → UInt8 :=
  (List.range 80).foldl
    (fun memory column => setCell pageTable memory base (80 * 24 + column) 0x20 0x00)
    (copyUp 4096 pageTable (base + 0) (base + 160) memory 3840)

namespace Video

/-! ### The displayed screen -/

def savePos (video : Video) : Video :=
  { video with
    termX := Function.update video.termX video.currentTerminal video.screenX
    termY := Function.update video.termY video.currentTerminal video.screenY }

def restorePos (video : Video) : Video :=
  { video with
    screenX := video.termX video.currentTerminal
    screenY := video.termY video.currentTerminal }

/-- `video_mem`. -/
def videoMem : Nat := videoMemIndex * 4096

def terminalBackspace (video : Video) : Video :=
  if video.screenX = 0 ∧ video.screenY = 0 then video
  else if video.screenX = 0 then
    { video with
      memory := store 4096 video.pageTable video.memory (videoMem + 2 * (video.screenY * 80 - 1)) 0x20
      screenY := video.screenY - 1
      screenX := 79 }.savePos
  else
    { video with
      memory := store 4096 video.pageTable video.memory
        (videoMem + 2 * (video.screenY * 80 + video.screenX - 1)) 0x20
      screenX := video.screenX - 1 }.savePos

def clear (video : Video) : Video :=
  { video with
    memory := (List.range 2000).foldl
      (fun memory cell => setCell video.pageTable memory videoMem cell 0x20 0x07) video.memory
    screenX := 0
    screenY := 0 }.savePos

/-- The character and the step of the cursor in `putc`. -/
def put (char : UInt8) (video : Video) : Video :=
  let video : Video := { video with
    memory := setCell video.pageTable video.memory videoMem (80 * video.screenY + video.screenX)
      char 0x07
    screenX := video.screenX + 1 }
  if 80 ≤ video.screenX then { video with screenY := video.screenY + 1, screenX := 0 } else video

/-- The first lines of `putc`. -/
def scrollIfFull (video : Video) : Video :=
  if 25 ≤ video.screenY then
    { video with screenY := 24, memory := scroll video.pageTable video.memory videoMem }
  else video

def putc (char : UInt8) (video : Video) : Video :=
  let video : Video := video.scrollIfFull
  let video : Video :=
    if char = 0x0A ∨ char = 0x0D then
      { video with screenY := video.screenY + 1, screenX := 0 }
    else video.put char
  video.savePos

/-! ### The screen of any terminal -/

def setCursor (video : Video) (terminal : Terminal) (x y : Nat) : Video :=
  { video with
    termX := Function.update video.termX terminal x
    termY := Function.update video.termY terminal y }

/-- `video_mem + 4096 * (terminal + 1)`. -/
def terminalMem (terminal : Terminal) : Nat := terminalPage terminal * 4096

/-- A line feed in `tputc`: the loop goes up to column 80. -/
def tnewline (terminal : Terminal) (video : Video) : Video :=
  let x := video.termX terminal
  let y := video.termY terminal
  { video with
    memory := (List.range' x (81 - x)).foldl
      (fun memory column =>
        setCell video.pageTable memory (terminalMem terminal) (80 * y + column) 0x20 0x07)
      video.memory }.setCursor terminal 0 (y + 1)

/-- The character and the step of the cursor in `tputc`. -/
def tput (char : UInt8) (terminal : Terminal) (video : Video) : Video :=
  let x := video.termX terminal
  let y := video.termY terminal
  let video : Video := { video with
    memory := setCell video.pageTable video.memory (terminalMem terminal) (80 * y + x) char 0x07 }
  if 80 ≤ x + 1 then video.setCursor terminal 0 (y + 1) else video.setCursor terminal (x + 1) y

/-- The first lines of `tputc`. -/
def tscrollIfFull (terminal : Terminal) (video : Video) : Video :=
  if 25 ≤ video.termY terminal then
    { video with
      memory := scroll video.pageTable video.memory (terminalMem terminal) }.setCursor terminal
        (video.termX terminal) 24
  else video

def tputc (char : UInt8) (terminal : Terminal) (video : Video) : Video :=
  let video : Video := video.tscrollIfFull terminal
  let video : Video :=
    if char = 0x0A ∨ char = 0x0D then video.tnewline terminal else video.tput char terminal
  if terminal = video.currentTerminal then
    { video with screenX := video.termX terminal, screenY := video.termY terminal }
  else video

/-- A user program stores through the page that `vidmap` gave it. -/
def userStore (terminal : Terminal) (offset : Fin 4096) (byte : UInt8) (video : Video) : Video :=
  { video with
    memory := store 4096 video.pageTable video.memory (terminalMem terminal + offset.val) byte }

/-! ### `switch_terminal` -/

/-- The switch from one terminal to another: the three entries of the page
table, and the two copies through them. -/
def remap (termId : Terminal) (video : Video) : Video :=
  let current := video.currentTerminal
  let pageTable := Function.update
    (Function.update (Function.update video.pageTable (terminalPage current) (terminalPage current))
      (terminalPage termId) videoMemIndex)
    savedPage (terminalPage termId)
  let stored := copyUp 4096 pageTable (terminalMem current + 0) (videoMem + 0) video.memory 4096
  { video with
    pageTable := pageTable
    memory := copyUp 4096 pageTable (videoMem + 0) (savedPage * 4096 + 0) stored 4096 }

/-- `freePid` says that `get_free_pid` finds one. -/
def switchTerminal (termId : Terminal) (freePid : Bool) (video : Video) : Video :=
  if termId = video.currentTerminal then video
  else if freePid = false ∧ video.terminalActive termId = false then video
  else
    let video : Video := { (video.savePos.remap termId) with currentTerminal := termId }.restorePos
    if video.terminalActive termId = false then
      { video with terminalActive := Function.update video.terminalActive termId true }.clear
    else video

end Video

/-! ### Runs -/

inductive Op where
  | tputc (char : UInt8) (terminal : Terminal)
  | userStore (terminal : Terminal) (offset : Fin 4096) (byte : UInt8)
  | putc (char : UInt8)
  | clear
  | terminalBackspace
  | switchTerminal (termId : Terminal) (freePid : Bool)

def Video.step (video : Video) : Op → Video
  | .tputc char terminal => video.tputc char terminal
  | .userStore terminal offset byte => video.userStore terminal offset byte
  | .putc char => video.putc char
  | .clear => video.clear
  | .terminalBackspace => video.terminalBackspace
  | .switchTerminal termId freePid => video.switchTerminal termId freePid

/-- The page table that `paging_init` leaves. -/
def pagingInit : PageMap :=
  Function.update (Function.update id (videoMemIndex + 1) videoMemIndex)
    (videoMemIndex + 4) (videoMemIndex + 1)

/-- The statics as the C files initialise them, over whatever memory holds. -/
def Video.start (memory : Nat → UInt8) : Video where
  pageTable := pagingInit
  memory := memory
  termX := fun _ => 0
  termY := fun _ => 0
  screenX := 0
  screenY := 0
  currentTerminal := 0
  terminalActive := fun terminal => terminal = 0

end MonolithicKernel.Screen
