import MonolithicKernel.FileSystem.Dispatch
import MonolithicKernel.Foundation.Runs

/-!
Owns whole histories of `open`, `close` and `read` calls. Beside each
descriptor table a ledger counts, for every slot, the bytes requested and the
bytes returned since the slot was last opened. For a regular file the ledger
always says that the bytes returned are the prefix of the file up to the bytes
requested, whatever happens on other slots and in other processes.

A call on one process touches only the table of that process, because
`file_descriptors` points at it while the process runs. Does not own creation
and end of processes.
-/

namespace MonolithicKernel.FileSystem

open MonolithicKernel.Foundation
open MonolithicKernel.Lib

/-- Regular entries name inodes of the image, and a file is no longer than the
1023 block numbers of an inode can reach. -/
structure Image.WellFormed (image : Image) : Prop where
  inodes : ∀ i < 63, image.dentryFileType i = 2 → image.dentryInode i < image.nInodes
  lengths : ∀ inode < image.nInodes, image.fileLength inode ≤ 1023 * 4096

/-- A descriptor table with its ledger. -/
structure Files where
  fds : FdTable
  returned : Fin 8 → Bytes
  requested : Fin 8 → Nat

inductive FileCall where
  | open (filename : Bytes)
  | close (fd : Int)
  | read (fd : Int) (buf : Nat) (nbytes : Int) (small : nbytes < 2 ^ 31) (line : TerminalLine)

/-- What a read call asks for: nothing when its buffer or its count is refused. -/
def requestOf (buf : Nat) (nbytes : Int) : Nat :=
  if buf = 0 ∨ nbytes ≤ 0 then 0 else nbytes.toNat

/-- The bytes a read call returns go to the ledger of the slot it names. -/
def Files.record (files : Files) (fd : Int) (request : Nat) (result : ReadResult) : Files :=
  match checkValidFd files.fds fd with
  | none => { files with fds := result.fds }
  | some slot =>
      ⟨result.fds, Function.update files.returned slot (files.returned slot ++ result.stored),
        Function.update files.requested slot (files.requested slot + request)⟩

/-- One call of one process. -/
def Files.serve (image : Image) : Step Files FileCall
  | files, .open filename =>
      match openHandler image files.fds filename with
      | (none, fds) => some { files with fds := fds }
      | (some slot, fds) => some ⟨fds, Function.update files.returned slot [],
          Function.update files.requested slot 0⟩
  | files, .close fd => (closeHandler files.fds fd).map fun result => { files with fds := result.2 }
  | files, .read fd buf nbytes _ line =>
      (readHandler image line files.fds fd buf nbytes).map fun result =>
        files.record fd (requestOf buf nbytes) result

/-- One call of any process. -/
def serveProcess {Process : Type} [DecidableEq Process] (image : Image) :
    Step (Process → Files) (Process × FileCall) :=
  fun files call =>
    ((files call.1).serve image call.2).map fun served => Function.update files call.1 served

/-- What holds of a slot and its ledger. The position cannot leave the file, so
it stops at the file's length while requests keep adding up. -/
def SlotExact (image : Image) (entry : Fd) (returned : Bytes) (requested : Nat) : Prop :=
  entry.inode ≠ freeInode →
    ∃ table, entry.fileTablePtr = some table ∧
      (table = .file →
        entry.inode < image.nInodes ∧
        entry.filePos = min requested (image.fileLength entry.inode) ∧
        returned = (image.fileBytes entry.inode).take requested)

def Files.Exact (image : Image) (files : Files) : Prop :=
  ∀ slot, SlotExact image (files.fds slot) (files.returned slot) (files.requested slot)

/-- A table in which every slot in use is a terminal's, as `process_create` sets
it up. -/
def NoFileOpen (fds : FdTable) : Prop :=
  ∀ slot, (fds slot).inode ≠ freeInode → (fds slot).fileTablePtr = some .terminal

theorem exact_of_noFileOpen {image : Image} {files : Files} (none : NoFileOpen files.fds) :
    files.Exact image := by
  intro slot used
  refine ⟨.terminal, none slot used, fun isFile => ?_⟩
  cases isFile

/-! ### One call -/

theorem slotExact_free {image : Image} {entry : Fd} {returned : Bytes} {requested : Nat}
    (free : entry.inode = freeInode) : SlotExact image entry returned requested :=
  fun used => absurd free used

/-- A slot of another driver owes nothing to its ledger. -/
theorem slotExact_of_ne_file {image : Image} {entry : Fd} {table : Jumptable} {returned : Bytes}
    {requested : Nat} (pointer : entry.fileTablePtr = some table) (other : table ≠ .file) :
    SlotExact image entry returned requested :=
  fun _ => ⟨table, pointer, fun isFile => absurd isFile other⟩

/-- Changing one slot and its ledger leaves the other slots as they were. -/
theorem exact_update {image : Image} {files : Files} (exact : files.Exact image) (slot : Fin 8)
    {entry : Fd} {returned : Bytes} {requested : Nat}
    (here : SlotExact image entry returned requested) :
    Files.Exact image ⟨Function.update files.fds slot entry,
      Function.update files.returned slot returned,
      Function.update files.requested slot requested⟩ := by
  intro other
  by_cases same : other = slot
  · subst same
    simpa using here
  · simpa [same] using exact other

theorem exact_open {image : Image} (wellFormed : image.WellFormed) {files served : Files}
    {filename : Bytes} (exact : files.Exact image)
    (opened : files.serve image (.open filename) = some served) : served.Exact image := by
  rw [Files.serve] at opened
  split at opened
  · rename_i fds found
    cases opened
    rw [openHandler_failed found]
    exact exact
  · rename_i slot fds found
    cases opened
    obtain ⟨-, entry, rfl, shape⟩ := openHandler_eq_some found
    apply exact_update exact slot
    rcases shape with rfl | ⟨i, inDirectory, fileType, rfl⟩ | ⟨i, inDirectory, fileType, rfl⟩
    · exact slotExact_of_ne_file rfl (by decide)
    · exact slotExact_of_ne_file rfl (by decide)
    · intro _
      refine ⟨.file, rfl, fun _ => ⟨wellFormed.inodes i inDirectory fileType, ?_, ?_⟩⟩
      · simp
      · simp

theorem exact_close {image : Image} {files served : Files} {fd : Int}
    (exact : files.Exact image) (closed : files.serve image (.close fd) = some served) :
    served.Exact image := by
  rw [Files.serve, Option.map_eq_some_iff] at closed
  obtain ⟨⟨ret, fds⟩, closed, rfl⟩ := closed
  rcases closeHandler_eq_some closed with rfl | ⟨slot, entry, valid, free, rfl⟩
  · exact exact
  · have here : SlotExact image entry (files.returned slot) (files.requested slot) :=
      slotExact_free free
    simpa using exact_update exact slot here

/-- A file read returns the bytes from its position on and moves the position
over them. -/
theorem slotExact_fileRead {image : Image} (wellFormed : image.WellFormed) {fds : FdTable}
    {fd nbytes : Int} {slot : Fin 8} {requested : Nat} {returned : Bytes}
    (valid : checkValidFd fds fd = some slot) (pointer : (fds slot).fileTablePtr = some .file)
    (small : nbytes < 2 ^ 31) (buf : Nat)
    (exact : SlotExact image (fds slot) returned requested) :
    ∃ entry, (fileRead image fds fd buf nbytes).fds = Function.update fds slot entry ∧
      SlotExact image entry (returned ++ (fileRead image fds fd buf nbytes).stored)
        (requested + requestOf buf nbytes) := by
  obtain ⟨-, used⟩ := checkValidFd_eq_some_iff.mp valid
  by_cases refused : buf = 0 ∨ nbytes ≤ 0
  · have unchanged : fileRead image fds fd buf nbytes = ⟨-1, [], fds⟩ :=
      fileRead_of_refused refused
    refine ⟨fds slot, ?_, ?_⟩
    · simp [unchanged]
    · simpa [unchanged, requestOf, refused] using exact
  obtain ⟨nonNull, positive⟩ := not_or.mp refused
  obtain ⟨table, samePointer, ofFile⟩ := exact used
  obtain ⟨inodeBound, position, prefixed⟩ :=
    ofFile (Option.some.inj (samePointer.symm.trans pointer))
  have short := wellFormed.lengths _ inodeBound
  have bytes := readData_eq image (fds slot).inode (fds slot).filePos nbytes.toNat (by omega)
    (by omega)
  have next := fileRead_of_accepted image valid nonNull (not_le.mp positive)
  rw [bytes] at next
  refine ⟨_, congrArg ReadResult.fds next, fun _ => ⟨.file, pointer, fun _ => ⟨inodeBound, ?_, ?_⟩⟩⟩
  · simp only [requestOf, if_neg refused, List.length_take, List.length_drop,
      Image.length_fileBytes]
    omega
  · rw [next, prefixed, requestOf, if_neg refused, List.take_add, position]
    rcases le_total requested (image.fileLength (fds slot).inode) with inside | past
    · rw [min_eq_left inside]
    · rw [min_eq_right past, List.drop_of_length_le (by simp), List.drop_of_length_le (by simpa)]

theorem exact_read {image : Image} (wellFormed : image.WellFormed) {files served : Files}
    {fd nbytes : Int} {buf : Nat} {small : nbytes < 2 ^ 31} {line : TerminalLine}
    (exact : files.Exact image)
    (read : files.serve image (.read fd buf nbytes small line) = some served) :
    served.Exact image := by
  rw [Files.serve, Option.map_eq_some_iff] at read
  obtain ⟨result, read, rfl⟩ := read
  unfold Files.record
  cases valid : checkValidFd files.fds fd with
  | none =>
      rw [readHandler, valid] at read
      cases read
      exact exact
  | some slot =>
      rw [readHandler, valid, Option.map_eq_some_iff] at read
      obtain ⟨table, pointer, rfl⟩ := read
      dsimp only
      cases table with
      | file =>
          obtain ⟨entry, changed, here⟩ :=
            slotExact_fileRead wellFormed valid pointer small buf (exact slot)
          rw [changed]
          exact exact_update exact slot here
      | directory =>
          obtain ⟨filePos, changed⟩ := directoryRead_fds image valid buf nbytes
          rw [changed]
          exact exact_update exact slot (slotExact_of_ne_file pointer (by decide))
      | terminal =>
          have unchanged := terminalRead_fds line files.fds fd buf nbytes
          have stays := Function.update_eq_self slot files.fds
          rw [unchanged, ← stays]
          exact exact_update exact slot (slotExact_of_ne_file pointer (by decide))
      | rtc => exact exact_update exact slot (slotExact_of_ne_file pointer (by decide))

theorem exact_serve {image : Image} (wellFormed : image.WellFormed) {files served : Files}
    {call : FileCall} (exact : files.Exact image) (ok : files.serve image call = some served) :
    served.Exact image := by
  cases call with
  | «open» filename => exact exact_open wellFormed exact ok
  | close fd => exact exact_close exact ok
  | read fd buf nbytes small line => exact exact_read wellFormed exact ok

/-- Every slot in use has a jump table, so every call comes back. -/
theorem serve_isSome {image : Image} {files : Files} (exact : files.Exact image)
    (call : FileCall) : ∃ served, files.serve image call = some served := by
  have dispatchable : Dispatchable files.fds := by
    intro slot used
    obtain ⟨table, pointer, -⟩ := exact slot used
    exact ⟨table, pointer⟩
  cases call with
  | «open» filename =>
      rw [Files.serve]
      split
      · exact ⟨_, rfl⟩
      · exact ⟨_, rfl⟩
  | close fd =>
      obtain ⟨ret, fds, closed⟩ := dispatchable.exists_close fd
      rw [Files.serve, closed]
      exact ⟨_, rfl⟩
  | read fd buf nbytes small line =>
      obtain ⟨result, readEq⟩ := dispatchable.exists_read image line fd buf nbytes
      rw [Files.serve, readEq]
      exact ⟨_, rfl⟩

/-! ### Histories -/

section Histories

variable {Process : Type} [DecidableEq Process] {image : Image}

theorem exact_serveProcess (wellFormed : image.WellFormed) {files served : Process → Files}
    {call : Process × FileCall} (exact : ∀ p, (files p).Exact image)
    (ok : serveProcess image files call = some served) (p : Process) :
    (served p).Exact image := by
  obtain ⟨own, ownOk, rfl⟩ := Option.map_eq_some_iff.mp ok
  by_cases same : p = call.1
  · rw [same, Function.update_self]
    exact exact_serve wellFormed (exact call.1) ownOk
  · rw [Function.update_of_ne same]
    exact exact p

/-- Every history runs to its end, and the ledgers are exact there. -/
theorem run_serveProcess (wellFormed : image.WellFormed) {start : Process → Files}
    (exact : ∀ p, (start p).Exact image) (calls : List (Process × FileCall)) :
    ∃ final, Step.run (serveProcess image) start calls = some final ∧
      ∀ p, (final p).Exact image := by
  induction calls generalizing start with
  | nil => exact ⟨start, rfl, exact⟩
  | cons call calls inductionHypothesis =>
      obtain ⟨own, ok⟩ := serve_isSome (exact call.1) call.2
      have taken : serveProcess image start call = some (Function.update start call.1 own) := by
        rw [serveProcess, ok, Option.map_some]
      obtain ⟨final, ran, finalExact⟩ :=
        inductionHypothesis (exact_serveProcess wellFormed exact taken)
      exact ⟨final, (Step.run_cons_eq_some _).mpr ⟨_, taken, ran⟩, finalExact⟩

end Histories

/-- A read at or behind the end of the file returns 0. -/
theorem fileRead_atEnd {image : Image} {fds : FdTable} {fd nbytes : Int} {slot : Fin 8} {buf : Nat}
    (valid : checkValidFd fds fd = some slot) (nonNull : buf ≠ 0) (positive : 0 < nbytes)
    (atEnd : image.fileLength (fds slot).inode ≤ (fds slot).filePos) :
    (fileRead image fds fd buf nbytes).ret = 0 := by
  rw [fileRead_of_accepted _ valid nonNull positive]
  simp [readData, readDataCopies, atEnd]

/-- **Chunked reading.** From processes without an open file, every history of
opens, closes and reads runs to its end. There, on every slot open to a regular
file, the bytes returned since its open are the prefix of the file up to the
bytes requested since then; once these reach the end of the file, a further
read returns 0; and a read without a valid slot, buffer or count returns -1 and
changes no slot. -/
theorem chunkedReads_exact {Process : Type} [DecidableEq Process] {image : Image}
    (wellFormed : image.WellFormed) {start : Process → Files}
    (fresh : ∀ p, NoFileOpen (start p).fds) (calls : List (Process × FileCall)) :
    ∃ final, Step.run (serveProcess image) start calls = some final ∧
      (∀ p slot, ((final p).fds slot).inode ≠ freeInode →
        ((final p).fds slot).fileTablePtr = some .file →
        let file := image.fileBytes ((final p).fds slot).inode
        (final p).returned slot = file.take ((final p).requested slot) ∧
        (file.length ≤ (final p).requested slot →
          ∀ line buf nbytes, buf ≠ 0 → 0 < nbytes →
            (readHandler image line (final p).fds slot.val buf nbytes).map ReadResult.ret =
              some 0) ∧
        ∀ line buf nbytes, buf = 0 ∨ nbytes ≤ 0 →
          readHandler image line (final p).fds slot.val buf nbytes =
            some ⟨-1, [], (final p).fds⟩) ∧
      (∀ p line fd buf nbytes, checkValidFd (final p).fds fd = none →
        readHandler image line (final p).fds fd buf nbytes = some ⟨-1, [], (final p).fds⟩) ∧
      ∀ p line fd buf nbytes result,
        readHandler image line (final p).fds fd buf nbytes = some result →
        (result.ret = -1 ∧ result.fds = (final p).fds) ∨
          result.ret = result.stored.length := by
  obtain ⟨final, ran, exact⟩ :=
    run_serveProcess wellFormed (fun p => exact_of_noFileOpen (fresh p)) calls
  refine ⟨final, ran, fun p slot used pointer => ?_, fun p line fd buf nbytes invalid => ?_,
    fun p line fd buf nbytes result read => readHandler_ret read⟩
  · have valid : checkValidFd (final p).fds slot.val = some slot :=
      checkValidFd_eq_some_iff.mpr ⟨rfl, used⟩
    have dispatched : ∀ line buf nbytes,
        readHandler image line (final p).fds slot.val buf nbytes =
          some (fileRead image (final p).fds slot.val buf nbytes) := by
      intro line buf nbytes
      rw [readHandler, valid]
      simp [pointer]
    obtain ⟨table, samePointer, ofFile⟩ := exact p slot used
    obtain ⟨-, position, prefixed⟩ := ofFile (Option.some.inj (samePointer.symm.trans pointer))
    refine ⟨prefixed, fun whole line buf nbytes nonNull positive => ?_,
      fun line buf nbytes refused => ?_⟩
    · rw [Image.length_fileBytes] at whole
      rw [dispatched, Option.map_some, fileRead_atEnd valid nonNull positive (by omega)]
    · rw [dispatched, fileRead_of_refused refused]
  · rw [readHandler, invalid]

/-- One regular file "a" of five bytes, inode 0. -/
def oneFileImage : Image :=
  .ofCells [(0, 1), (4, 1), (8, 1), (64, 0x61), (96, 2), (4096, 5), (8192, 0x68), (8193, 0x65),
    (8194, 0x6C), (8195, 0x6C), (8196, 0x6F)]

theorem oneFileImage_wellFormed : oneFileImage.WellFormed := by
  have entries : ∀ i < 63, oneFileImage.dentryFileType i = 2 → oneFileImage.dentryInode i < 1 := by
    decide
  have inodes : oneFileImage.nInodes = 1 := by decide
  refine ⟨fun i inDirectory fileType => ?_, fun inode bound => ?_⟩
  · rw [inodes]
    exact entries i inDirectory fileType
  · obtain rfl : inode = 0 := by omega
    decide

/-- A process that has only its terminal open. -/
def newFiles : Files :=
  ⟨fun slot => if slot < 2 then ⟨some .terminal, terminalInode, 0, 0⟩ else ⟨none, freeInode, 0, 0⟩,
    fun _ => [], fun _ => 0⟩

theorem newFiles_noFileOpen : NoFileOpen newFiles.fds := by
  unfold NoFileOpen
  decide

/-- Two processes read the file in turns, three bytes and four bytes at a time. -/
def inTurns : List (Fin 6 × FileCall) :=
  let read (nbytes : Int) (small : nbytes < 2 ^ 31) : FileCall :=
    .read 2 1 nbytes small ⟨fun _ => 0, 0⟩
  [(0, .open [0x61]), (1, .open [0x61]), (0, read 3 (by decide)), (1, read 4 (by decide)),
    (0, read 3 (by decide)), (1, read 4 (by decide))]

theorem chunkedReads_inTurns :
    ∃ final, Step.run (serveProcess oneFileImage) (fun _ => newFiles) inTurns = some final ∧
      (final 0).returned 2 = (oneFileImage.fileBytes 0).take 6 := by
  obtain ⟨final, ran, exact, -⟩ :=
    chunkedReads_exact oneFileImage_wellFormed (fun _ => newFiles_noFileOpen) inTurns
  have slot : (Step.run (serveProcess oneFileImage) (fun _ => newFiles) inTurns).map
      (fun final => ((final 0).fds 2, (final 0).requested 2)) =
        some (⟨some .file, 0, 5, 0⟩, 6) := by
    decide
  rw [ran, Option.map_some, Option.some.injEq, Prod.mk.injEq] at slot
  obtain ⟨entry, requested⟩ := slot
  refine ⟨final, ran, ?_⟩
  have prefixed := (exact 0 2 (by rw [entry]; decide) (by rw [entry])).1
  rwa [entry, requested] at prefixed

end MonolithicKernel.FileSystem
