import MonolithicKernel.FileSystem.Lookup

/-!
Owns the descriptor table `fd_t file_descriptors[8]`, the open, close, read and
write functions of the four drivers, and the system-call handlers that dispatch
to them through `file_table_ptr`.

Words are 32-bit: an inode of -1 is `freeInode`, and positions wrap. A null
user pointer is address 0 where the code stores through it and `none` where the
code loads through it. A handler that calls through a null jump-table pointer,
or loads through a null buffer, has no result.

The wait loops of `terminal_read` and `rtc_read` are not run here: the terminal
read takes the line it finds when the wait is over, and the RTC read is the
store that starts the wait. Echoing to the screen is not owned here either.
-/

namespace MonolithicKernel.FileSystem

open MonolithicKernel.Lib

/-- The four jump tables. -/
inductive Jumptable where
  | directory
  | file
  | terminal
  | rtc
deriving DecidableEq, Repr

/-- `fd_t`; a null `file_table_ptr` is `none`. -/
structure Fd where
  fileTablePtr : Option Jumptable
  inode : Nat
  filePos : Nat
  flags : Nat
deriving DecidableEq, Repr

/-- -1 as an inode: the slot is free. -/
def freeInode : Nat := 2 ^ 32 - 1

/-- -2 as an inode: the slot of a terminal descriptor. -/
def terminalInode : Nat := 2 ^ 32 - 2

abbrev FdTable := Fin 8 → Fd

instance neZero_fds : NeZero 8 := ⟨by decide⟩

/-- `check_valid_fd`, with the slot that the descriptor names. -/
def checkValidFd (fds : FdTable) (fd : Int) : Option (Fin 8) :=
  if outside : fd < 0 ∨ fd ≥ 8 then none
  else
    let slot : Fin 8 := ⟨fd.toNat, by omega⟩
    if (fds slot).inode = freeInode then none else some slot

/-- `get_free_fd`. -/
def getFreeFd (fds : FdTable) : Option (Fin 8) :=
  [2, 3, 4, 5, 6, 7].find? fun slot => (fds slot).inode = freeInode

/-! ### Opening -/

/-- `directory_open` and `file_open` differ in the type they ask for and in the
table they install. The descriptor is `none` for -1. -/
def openEntry (fileType : Nat) (table : Jumptable) (image : Image) (fds : FdTable)
    (filename : Bytes) : Option (Fin 8) × FdTable :=
  match readDentryByName image (some filename) with
  | none => (none, fds)
  | some dentry =>
      if dentry.fileType ≠ fileType then (none, fds)
      else
        match getFreeFd fds with
        | none => (none, fds)
        | some fd => (some fd, Function.update fds fd ⟨some table, dentry.inode, 0, 0⟩)

def directoryOpen : Image → FdTable → Bytes → Option (Fin 8) × FdTable := openEntry 1 .directory

def fileOpen : Image → FdTable → Bytes → Option (Fin 8) × FdTable := openEntry 2 .file

/-- `rtc_open` ignores the name. -/
def rtcOpen (fds : FdTable) : Option (Fin 8) × FdTable :=
  match getFreeFd fds with
  | none => (none, fds)
  | some fd => (some fd, Function.update fds fd ⟨some .rtc, 0, 512, 512⟩)

/-- The C string "rtc". -/
def rtcName : Bytes := [0x72, 0x74, 0x63]

/-- The C string ".". -/
def dotName : Bytes := [0x2E]

/-- `open_handler`. -/
def openHandler (image : Image) (fds : FdTable) (filename : Bytes) : Option (Fin 8) × FdTable :=
  if strncmp rtcName filename 3 = 0 then rtcOpen fds
  else if strncmp dotName filename 1 = 0 then directoryOpen image fds filename
  else fileOpen image fds filename

/-- What the caller of an open gets. -/
def openReturn : Option (Fin 8) → Int
  | none => -1
  | some fd => fd.val

/-! ### Closing -/

/-- `directory_close` and `file_close` only free the slot. -/
def closeEntry (fds : FdTable) (fd : Int) : Int × FdTable :=
  match checkValidFd fds fd with
  | none => (-1, fds)
  | some slot => (0, Function.update fds slot { fds slot with inode := freeInode })

def directoryClose : FdTable → Int → Int × FdTable := closeEntry

def fileClose : FdTable → Int → Int × FdTable := closeEntry

/-- `rtc_close` clears the whole slot. -/
def rtcClose (fds : FdTable) (fd : Int) : Int × FdTable :=
  match checkValidFd fds fd with
  | none => (-1, fds)
  | some slot => (0, Function.update fds slot ⟨none, freeInode, 0, 0⟩)

def terminalClose (fds : FdTable) (_fd : Int) : Int × FdTable := (-1, fds)

/-- The close function of a jump table. -/
def Jumptable.close : Jumptable → FdTable → Int → Int × FdTable
  | .directory => directoryClose
  | .file => fileClose
  | .terminal => terminalClose
  | .rtc => rtcClose

/-- `close_handler`. -/
def closeHandler (fds : FdTable) (fd : Int) : Option (Int × FdTable) :=
  match checkValidFd fds fd with
  | none => some (-1, fds)
  | some slot => (fds slot).fileTablePtr.map fun table => table.close fds fd

/-! ### Reading -/

/-- What a read returns, the bytes it stores from the buffer on, and the table
it leaves. -/
structure ReadResult where
  ret : Int
  stored : Bytes
  fds : FdTable

/-- The displayed line as `terminal_read` finds it. -/
structure TerminalLine where
  terminalBuffer : Nat → UInt8
  bufferIndex : Nat

/-- `file_read`. -/
def fileRead (image : Image) (fds : FdTable) (fd : Int) (buf : Nat) (nbytes : Int) : ReadResult :=
  match checkValidFd fds fd with
  | none => ⟨-1, [], fds⟩
  | some slot =>
      if buf = 0 then ⟨-1, [], fds⟩
      else if nbytes ≤ 0 then ⟨-1, [], fds⟩
      else
        let bytes := readData image (fds slot).inode (fds slot).filePos nbytes.toNat
        ⟨bytes.length, bytes, Function.update fds slot
          { fds slot with filePos := ((fds slot).filePos + bytes.length) % 2 ^ 32 }⟩

/-- `directory_read`. An unterminated name makes the code's `strlen` run into
`file_type`; the cap at 32 hides what it counts there. -/
def directoryRead (image : Image) (fds : FdTable) (fd : Int) (buf : Nat) (nbytes : Int) :
    ReadResult :=
  match checkValidFd fds fd with
  | none => ⟨-1, [], fds⟩
  | some slot =>
      match readDentryByIndex image (fds slot).filePos with
      | none => ⟨-1, [], fds⟩
      | some dentry =>
          if buf = 0 ∧ nbytes ≠ 0 then ⟨-1, [], fds⟩
          else if nbytes < 0 then ⟨-1, [], fds⟩
          else
            let ssLen := if nbytes.toNat > 32 then 32 else nbytes.toNat
            let strLen := strlen dentry.fileName
            let ssLen := if ssLen > strLen then strLen else ssLen
            ⟨ssLen, dentry.fileName.take ssLen, Function.update fds slot
              { fds slot with filePos := ((fds slot).filePos + 1) % 2 ^ 32 }⟩

/-- `terminal_read`, from the end of its wait on. -/
def terminalRead (line : TerminalLine) (fds : FdTable) (fd : Int) (buf : Nat) (nbytes : Int) :
    ReadResult :=
  if fd ≠ 0 then ⟨-1, [], fds⟩
  else if nbytes ≠ 0 ∧ buf = 0 then ⟨-1, [], fds⟩
  else if nbytes < 0 then ⟨-1, [], fds⟩
  else
    let n := if nbytes.toNat < line.bufferIndex then nbytes.toNat else line.bufferIndex
    ⟨n, (List.range n).map line.terminalBuffer, fds⟩

/-- `rtc_read` reloads the counter and then waits for it to reach 0. -/
def rtcRead (fds : FdTable) (slot : Fin 8) : ReadResult :=
  ⟨0, [], Function.update fds slot { fds slot with filePos := (fds slot).flags }⟩

/-- `read_handler`. -/
def readHandler (image : Image) (line : TerminalLine) (fds : FdTable) (fd : Int) (buf : Nat)
    (nbytes : Int) : Option ReadResult :=
  match checkValidFd fds fd with
  | none => some ⟨-1, [], fds⟩
  | some slot => (fds slot).fileTablePtr.map fun
      | .directory => directoryRead image fds fd buf nbytes
      | .file => fileRead image fds fd buf nbytes
      | .terminal => terminalRead line fds fd buf nbytes
      | .rtc => rtcRead fds slot

/-! ### Writing -/

/-- The 32-bit word at the start of a buffer. -/
def wordOfBytes (buf : Bytes) : Nat :=
  (buf.getD 0 0).toNat + 256 * (buf.getD 1 0).toNat + 65536 * (buf.getD 2 0).toNat +
    16777216 * (buf.getD 3 0).toNat

/-- `rtc_write`. -/
def rtcWrite (fds : FdTable) (slot : Fin 8) (buf : Option Bytes) (nbytes : Int) : Int × FdTable :=
  match buf with
  | none => (-1, fds)
  | some buf =>
      if nbytes ≠ 4 then (-1, fds)
      else
        let freq := wordOfBytes buf
        if freq &&& (freq - 1) ≠ 0 ∨ freq < 2 ∨ freq > 1024 then (-1, fds)
        else (nbytes, Function.update fds slot
          { fds slot with filePos := 1024 / freq, flags := 1024 / freq })

/-- `terminal_write`: the number of bytes it puts on the screen. -/
def terminalWrite (fd : Int) (buf : Option Bytes) (nbytes : Int) : Option Int :=
  if fd ≠ 1 then some (-1)
  else if nbytes ≤ 0 then some 0
  else buf.map fun buf =>
    (((List.range nbytes.toNat).filter fun i => buf.getD i 0 ≠ 0).length : Int)

/-- `write_handler`. -/
def writeHandler (fds : FdTable) (fd : Int) (buf : Option Bytes) (nbytes : Int) :
    Option (Int × FdTable) :=
  match checkValidFd fds fd with
  | none => some (-1, fds)
  | some slot => (fds slot).fileTablePtr.bind fun
      | .directory => some (-1, fds)
      | .file => some (-1, fds)
      | .terminal => (terminalWrite fd buf nbytes).map fun ret => (ret, fds)
      | .rtc => some (rtcWrite fds slot buf nbytes)

/-! ### Slots -/

theorem checkValidFd_eq_some_iff {fds : FdTable} {fd : Int} {slot : Fin 8} :
    checkValidFd fds fd = some slot ↔ fd = slot.val ∧ (fds slot).inode ≠ freeInode := by
  have bound := slot.isLt
  unfold checkValidFd
  dsimp only
  split
  · simp only [reduceCtorEq, false_iff, not_and]
    intro _
    omega
  · split
    · rename_i inside free
      simp only [reduceCtorEq, false_iff, not_and, not_not]
      intro same
      have slotEq : (⟨fd.toNat, by omega⟩ : Fin 8) = slot := Fin.ext (by simp; omega)
      rw [← slotEq]
      exact free
    · rename_i inside used
      simp only [Option.some.injEq]
      constructor
      · intro slotEq
        have same := congrArg Fin.val slotEq
        simp only at same
        exact ⟨by omega, slotEq ▸ used⟩
      · rintro ⟨same, -⟩
        exact Fin.ext (by simp; omega)

/-- The slots that opens and the halt go through. -/
theorem mem_openSlots (slot : Fin 8) :
    slot ∈ ([2, 3, 4, 5, 6, 7] : List (Fin 8)) ↔ 2 ≤ slot := by
  revert slot
  decide

/-- A free descriptor is one of 2..7. -/
theorem two_le_getFreeFd {fds : FdTable} {slot : Fin 8} (found : getFreeFd fds = some slot) :
    2 ≤ slot :=
  (mem_openSlots slot).mp (List.mem_of_find?_eq_some found)

theorem free_of_getFreeFd {fds : FdTable} {slot : Fin 8} (found : getFreeFd fds = some slot) :
    (fds slot).inode = freeInode := by
  simpa using List.find?_some found

theorem getFreeFd_isSome {fds : FdTable} {slot : Fin 8} (high : 2 ≤ slot)
    (free : (fds slot).inode = freeInode) : ∃ found, getFreeFd fds = some found := by
  apply Option.isSome_iff_exists.mp
  rw [getFreeFd, List.find?_isSome]
  exact ⟨slot, (mem_openSlots slot).mpr high, by simpa using free⟩

/-- The free descriptor is the lowest one. -/
theorem used_of_lt_getFreeFd {fds : FdTable} {slot other : Fin 8}
    (found : getFreeFd fds = some slot) (high : 2 ≤ other) (below : other < slot) :
    (fds other).inode ≠ freeInode := by
  have sorted : List.Pairwise (· < ·) ([2, 3, 4, 5, 6, 7] : List (Fin 8)) := by decide
  obtain ⟨-, front, back, split, skipped⟩ := List.find?_eq_some_iff_append.mp found
  have member := (mem_openSlots other).mpr high
  rw [split] at member sorted
  rcases List.mem_append.mp member with inFront | inBack
  · simpa using skipped other inFront
  · -- The slots behind the one found are higher.
    have ascending := List.pairwise_append.mp sorted
    rcases List.mem_cons.mp inBack with rfl | later
    · exact absurd below (lt_irrefl _)
    · exact absurd below (lt_asymm (List.rel_of_pairwise_cons ascending.2.1 later))

/-! ### What a call changes -/

theorem readDentryByName_eq_some {image : Image} {fname : Option Bytes} {dentry : Dentry}
    (found : readDentryByName image fname = some dentry) :
    ∃ i < 63, dentry.fileType = image.dentryFileType i ∧ dentry.inode = image.dentryInode i := by
  cases fname with
  | none => cases found
  | some fname =>
      obtain ⟨i, inDirectory, found⟩ := List.exists_of_findSome?_eq_some found
      dsimp only at found
      split_ifs at found
      cases found
      exact ⟨i, List.mem_range.mp inDirectory, rfl, rfl⟩

/-- The open of a directory or a file fills in the lowest free slot. -/
theorem openEntry_eq_some {fileType : Nat} {table : Jumptable} {image : Image} {fds fds' : FdTable}
    {filename : Bytes} {slot : Fin 8}
    (opened : openEntry fileType table image fds filename = (some slot, fds')) :
    getFreeFd fds = some slot ∧ ∃ i < 63, image.dentryFileType i = fileType ∧
      fds' = Function.update fds slot ⟨some table, image.dentryInode i, 0, 0⟩ := by
  unfold openEntry at opened
  split at opened
  · cases opened
  · rename_i dentry found
    split_ifs at opened with otherType
    · cases opened
    split at opened
    · cases opened
    · rename_i free
      cases opened
      obtain ⟨i, inDirectory, typeEq, inodeEq⟩ := readDentryByName_eq_some found
      rw [inodeEq]
      exact ⟨free, i, inDirectory, typeEq.symm.trans (not_not.mp otherType), rfl⟩

/-- An open fills in the lowest free slot. -/
theorem openHandler_eq_some {image : Image} {fds fds' : FdTable} {filename : Bytes} {slot : Fin 8}
    (opened : openHandler image fds filename = (some slot, fds')) :
    getFreeFd fds = some slot ∧ ∃ entry, fds' = Function.update fds slot entry ∧
      (entry = ⟨some .rtc, 0, 512, 512⟩ ∨
        (∃ i < 63, image.dentryFileType i = 1 ∧
          entry = ⟨some .directory, image.dentryInode i, 0, 0⟩) ∨
        ∃ i < 63, image.dentryFileType i = 2 ∧
          entry = ⟨some .file, image.dentryInode i, 0, 0⟩) := by
  unfold openHandler at opened
  split_ifs at opened
  · unfold rtcOpen at opened
    split at opened
    · cases opened
    · rename_i free
      cases opened
      exact ⟨free, _, rfl, .inl rfl⟩
  · obtain ⟨free, i, inDirectory, typeEq, changed⟩ := openEntry_eq_some opened
    exact ⟨free, _, changed, .inr (.inl ⟨i, inDirectory, typeEq, rfl⟩)⟩
  · obtain ⟨free, i, inDirectory, typeEq, changed⟩ := openEntry_eq_some opened
    exact ⟨free, _, changed, .inr (.inr ⟨i, inDirectory, typeEq, rfl⟩)⟩

theorem openEntry_failed {fileType : Nat} {table : Jumptable} {image : Image} {fds fds' : FdTable}
    {filename : Bytes} (failed : openEntry fileType table image fds filename = (none, fds')) :
    fds' = fds := by
  unfold openEntry at failed
  split at failed
  · cases failed
    rfl
  · split_ifs at failed
    · cases failed
      rfl
    · split at failed
      · cases failed
        rfl
      · cases failed

/-- An open that fails changes nothing. -/
theorem openHandler_failed {image : Image} {fds fds' : FdTable} {filename : Bytes}
    (failed : openHandler image fds filename = (none, fds')) : fds' = fds := by
  unfold openHandler at failed
  split_ifs at failed
  · unfold rtcOpen at failed
    split at failed
    · cases failed
      rfl
    · cases failed
  · exact openEntry_failed failed
  · exact openEntry_failed failed

/-- A close frees one slot or changes nothing. -/
theorem closeHandler_eq_some {fds fds' : FdTable} {fd ret : Int}
    (closed : closeHandler fds fd = some (ret, fds')) :
    fds' = fds ∨ ∃ slot entry, checkValidFd fds fd = some slot ∧ entry.inode = freeInode ∧
      fds' = Function.update fds slot entry := by
  unfold closeHandler at closed
  cases valid : checkValidFd fds fd with
  | none =>
      rw [valid] at closed
      cases closed
      exact .inl rfl
  | some slot =>
      rw [valid] at closed
      obtain ⟨table, -, closed⟩ := Option.map_eq_some_iff.mp closed
      cases table with
      | terminal =>
          cases closed
          exact .inl rfl
      | rtc =>
          rw [Jumptable.close, rtcClose, valid] at closed
          cases closed
          exact .inr ⟨slot, _, rfl, rfl, rfl⟩
      | directory =>
          rw [Jumptable.close, directoryClose, closeEntry, valid] at closed
          cases closed
          exact .inr ⟨slot, _, rfl, rfl, rfl⟩
      | file =>
          rw [Jumptable.close, fileClose, closeEntry, valid] at closed
          cases closed
          exact .inr ⟨slot, _, rfl, rfl, rfl⟩

theorem fileRead_of_refused {image : Image} {fds : FdTable} {fd nbytes : Int} {buf : Nat}
    (refused : buf = 0 ∨ nbytes ≤ 0) : fileRead image fds fd buf nbytes = ⟨-1, [], fds⟩ := by
  unfold fileRead
  split
  · rfl
  · rcases refused with null | negative
    · rw [if_pos null]
    · rw [if_pos negative, ite_self]

theorem fileRead_of_accepted (image : Image) {fds : FdTable} {fd nbytes : Int} {buf : Nat}
    {slot : Fin 8} (valid : checkValidFd fds fd = some slot) (nonNull : buf ≠ 0)
    (positive : 0 < nbytes) :
    fileRead image fds fd buf nbytes =
      let bytes := readData image (fds slot).inode (fds slot).filePos nbytes.toNat
      ⟨bytes.length, bytes, Function.update fds slot
        { fds slot with filePos := ((fds slot).filePos + bytes.length) % 2 ^ 32 }⟩ := by
  rw [fileRead, valid]
  dsimp only
  rw [if_neg nonNull, if_neg (not_le.mpr positive)]

/-- A directory read moves at most the position of its slot. -/
theorem directoryRead_fds (image : Image) {fds : FdTable} {fd : Int} {slot : Fin 8}
    (valid : checkValidFd fds fd = some slot) (buf : Nat) (nbytes : Int) :
    ∃ filePos, (directoryRead image fds fd buf nbytes).fds =
      Function.update fds slot { fds slot with filePos := filePos } := by
  have stays : fds = Function.update fds slot { fds slot with filePos := (fds slot).filePos } :=
    (Function.update_eq_self slot fds).symm
  unfold directoryRead
  rw [valid]
  dsimp only
  split
  · exact ⟨_, stays⟩
  · split_ifs
    · exact ⟨_, stays⟩
    · exact ⟨_, stays⟩
    all_goals exact ⟨_, rfl⟩

@[simp] theorem terminalRead_fds (line : TerminalLine) (fds : FdTable) (fd : Int) (buf : Nat)
    (nbytes : Int) : (terminalRead line fds fd buf nbytes).fds = fds := by
  unfold terminalRead
  split_ifs <;> rfl

/-- A read moves at most the position of the slot it names. -/
theorem readHandler_fds {image : Image} {line : TerminalLine} {fds : FdTable} {fd nbytes : Int}
    {buf : Nat} {result : ReadResult}
    (read : readHandler image line fds fd buf nbytes = some result) :
    result.fds = fds ∨ ∃ slot filePos, checkValidFd fds fd = some slot ∧
      result.fds = Function.update fds slot { fds slot with filePos := filePos } := by
  rw [readHandler] at read
  cases valid : checkValidFd fds fd with
  | none =>
      rw [valid] at read
      cases read
      exact .inl rfl
  | some slot =>
      rw [valid] at read
      obtain ⟨table, -, rfl⟩ := Option.map_eq_some_iff.mp read
      cases table with
      | directory =>
          obtain ⟨filePos, changed⟩ := directoryRead_fds image valid buf nbytes
          exact .inr ⟨slot, filePos, rfl, changed⟩
      | file =>
          dsimp only [fileRead]
          rw [valid]
          dsimp only
          split_ifs
          · exact .inl rfl
          · exact .inl rfl
          · exact .inr ⟨slot, _, rfl, rfl⟩
      | terminal => exact .inl (terminalRead_fds line fds fd buf nbytes)
      | rtc => exact .inr ⟨slot, _, rfl, rfl⟩

/-- A write changes at most the position and the flags of the slot it names. -/
theorem writeHandler_fds {fds fds' : FdTable} {fd nbytes ret : Int} {buf : Option Bytes}
    (written : writeHandler fds fd buf nbytes = some (ret, fds')) :
    fds' = fds ∨ ∃ slot filePos flags, checkValidFd fds fd = some slot ∧
      fds' = Function.update fds slot { fds slot with filePos := filePos, flags := flags } := by
  rw [writeHandler] at written
  cases valid : checkValidFd fds fd with
  | none =>
      rw [valid] at written
      cases written
      exact .inl rfl
  | some slot =>
      rw [valid] at written
      obtain ⟨table, -, written⟩ := Option.bind_eq_some_iff.mp written
      cases table with
      | directory =>
          cases written
          exact .inl rfl
      | file =>
          cases written
          exact .inl rfl
      | terminal =>
          obtain ⟨ret', -, same⟩ := Option.map_eq_some_iff.mp written
          cases same
          exact .inl rfl
      | rtc =>
          dsimp only [rtcWrite] at written
          split at written
          · cases written
            exact .inl rfl
          · split_ifs at written
            · cases written
              exact .inl rfl
            · cases written
              exact .inl rfl
            · cases written
              exact .inr ⟨slot, _, _, rfl, rfl⟩

/-! ### What a read returns -/

theorem fileRead_ret (image : Image) (fds : FdTable) (fd : Int) (buf : Nat) (nbytes : Int) :
    ((fileRead image fds fd buf nbytes).ret = -1 ∧ (fileRead image fds fd buf nbytes).fds = fds) ∨
      (fileRead image fds fd buf nbytes).ret = (fileRead image fds fd buf nbytes).stored.length := by
  unfold fileRead
  split
  · exact .inl ⟨rfl, rfl⟩
  · split_ifs
    · exact .inl ⟨rfl, rfl⟩
    · exact .inl ⟨rfl, rfl⟩
    · exact .inr rfl

theorem directoryRead_ret (image : Image) (fds : FdTable) (fd : Int) (buf : Nat) (nbytes : Int) :
    ((directoryRead image fds fd buf nbytes).ret = -1 ∧
        (directoryRead image fds fd buf nbytes).fds = fds) ∨
      (directoryRead image fds fd buf nbytes).ret =
        (directoryRead image fds fd buf nbytes).stored.length := by
  unfold directoryRead
  split
  · exact .inl ⟨rfl, rfl⟩
  · split
    · exact .inl ⟨rfl, rfl⟩
    · rename_i dentry _
      have bound := strlen_le dentry.fileName
      dsimp only
      split_ifs
      · exact .inl ⟨rfl, rfl⟩
      · exact .inl ⟨rfl, rfl⟩
      all_goals
        refine .inr (congrArg Int.ofNat ?_)
        rw [List.length_take]
        omega

theorem terminalRead_ret (line : TerminalLine) (fds : FdTable) (fd : Int) (buf : Nat)
    (nbytes : Int) :
    (terminalRead line fds fd buf nbytes).ret = -1 ∨
      (terminalRead line fds fd buf nbytes).ret =
        (terminalRead line fds fd buf nbytes).stored.length := by
  unfold terminalRead
  dsimp only
  split_ifs
  · exact .inl rfl
  · exact .inl rfl
  · exact .inl rfl
  all_goals exact .inr (by simp)

/-- A read either fails and leaves the table as it was, or returns the number of
bytes it stores. -/
theorem readHandler_ret {image : Image} {line : TerminalLine} {fds : FdTable} {fd nbytes : Int}
    {buf : Nat} {result : ReadResult}
    (read : readHandler image line fds fd buf nbytes = some result) :
    (result.ret = -1 ∧ result.fds = fds) ∨ result.ret = result.stored.length := by
  rw [readHandler] at read
  split at read
  · cases read
    exact .inl ⟨rfl, rfl⟩
  · obtain ⟨table, -, rfl⟩ := Option.map_eq_some_iff.mp read
    cases table with
    | directory => exact directoryRead_ret image fds fd buf nbytes
    | file => exact fileRead_ret image fds fd buf nbytes
    | terminal =>
        rcases terminalRead_ret line fds fd buf nbytes with failed | counted
        · exact .inl ⟨failed, terminalRead_fds line fds fd buf nbytes⟩
        · exact .inr counted
    | rtc => exact .inr rfl

end MonolithicKernel.FileSystem
