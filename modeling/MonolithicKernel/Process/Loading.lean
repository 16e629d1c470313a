import MonolithicKernel.FileSystem.ReadSlice
import MonolithicKernel.Process.CommandLine

/-!
Owns what `process_create` leaves in the user page of a new process. The load
loop stores whole rounds of `read_data` from 0x08048000 on until a round returns
nothing. A file that ends inside the page is there byte by byte and nothing else
has been stored to; a longer file makes the loop store behind the page, which
faults.

Does not own the PCB of the new process.
-/

namespace MonolithicKernel.Process

open MonolithicKernel.FileSystem
open MonolithicKernel.Lib

/-- The first bytes of an ELF file. -/
def elfMagic : Bytes := [0x7F, 0x45, 0x4C, 0x46]

/-- The byte at a user address, in the 4MB page that the page directory names. -/
def Kernel.userByte (kernel : Kernel) (address : Nat) : Option UInt8 :=
  if 0x08000000 ≤ address ∧ address < 0x08400000 then
    ((List.finRange 6).find? fun pid => 2 + pid.val = kernel.userFrame).map fun pid =>
      kernel.frames pid (address - 0x08000000)
  else none

/-- The bytes that fit from 0x08048000 to the end of the user page. -/
def programRoom : Nat := 0x08400000 - 0x08048000

/-- The stores of the load loop: the address and the bytes of each round. -/
def loadWrites (image : Image) (inode : Nat) : Nat → Nat → List (Nat × Bytes)
  | 0, _ => []
  | rounds + 1, filePos =>
      let bytes := readData image inode filePos 4096
      if bytes.length = 0 then []
      else (0x08048000 + filePos, bytes) :: loadWrites image inode rounds (filePos + 4096)

/-- The bytes of a round in the user page. -/
def storeWrite (frame : Frame) (write : Nat × Bytes) : Frame := fun offset =>
  if write.1 ≤ 0x08000000 + offset ∧ 0x08000000 + offset < write.1 + write.2.length then
    write.2.getD (0x08000000 + offset - write.1) 0
  else frame offset

/-- The program is in the page of `pid`, and only its bytes have been stored. -/
structure ProgramLoaded (image : Image) (inode : Nat) (kernel kernel' : Kernel) (pid : Pid) :
    Prop where
  page : kernel'.userFrame = 2 + pid.val
  contents : ∀ k < image.fileLength inode,
    kernel'.userByte (0x08048000 + k) = (image.fileBytes inode)[k]?
  stores : ∀ write ∈ loadWrites image inode 953 0,
    0x08048000 ≤ write.1 ∧ write.1 + write.2.length ≤ 0x08400000
  confined : ∀ offset, 0x08000000 + offset < 0x08048000 ∨
      0x08048000 + image.fileLength inode ≤ 0x08000000 + offset →
    kernel'.frames pid offset = kernel.frames pid offset
  others : ∀ other, other ≠ pid → kernel'.frames other = kernel.frames other

/-- `process_create` returns: with the program in its page, or with -1 and no
trace for a file that does not fit. -/
def LoadsProgram (image : Image) (inode : Nat) (kernel : Kernel)
    (outcome : Option (Option Pid × Kernel)) : Prop :=
  ∃ result kernel', outcome = some (result, kernel') ∧
    ((∃ pid, result = some pid ∧ ProgramLoaded image inode kernel kernel' pid) ∨
      (programRoom < image.fileLength inode ∧ result = none ∧
        kernel'.activePids = kernel.activePids ∧ kernel'.userFrame = kernel.userFrame))

/-! ### The executable -/

/-- The two comparisons of `process_create` look for the magic bytes. -/
theorem eq_elfMagic_iff {bytes : Bytes} (four : bytes.length = 4) :
    strncmp (bytes.drop 1) elfName 3 = 0 ∧ bytes.headD 0 = 0x7F ↔ bytes = elfMagic := by
  have noNul : NoNul (elfName.take 3) := by decide
  obtain ⟨b0, b1, b2, b3, rfl⟩ : ∃ b0 b1 b2 b3, bytes = [b0, b1, b2, b3] := by
    match bytes, four with
    | [b0, b1, b2, b3], _ => exact ⟨b0, b1, b2, b3, rfl⟩
  rw [strncmp_eq_zero_comm, strncmp_eq_zero_iff_of_noNul noNul (by decide)]
  simp only [elfName, elfMagic, List.drop_succ_cons, List.drop_zero, List.take_succ_cons,
    List.take_zero, List.headD_cons, List.cons.injEq]
  tauto

/-- An executable is found under its name when the entry is a regular file that
starts with the magic bytes, and under no other condition. -/
theorem findExecutable_eq_some_iff {image : Image} {fileName : Bytes} {inode : Nat} :
    findExecutable image fileName = some inode ↔
      ∃ dentry, readDentryByName image (some fileName) = some dentry ∧ dentry.fileType = 2 ∧
        readData image dentry.inode 0 4 = elfMagic ∧ dentry.inode = inode := by
  unfold findExecutable
  cases readDentryByName image (some fileName) with
  | none => simp
  | some dentry =>
      dsimp only
      by_cases regular : dentry.fileType = 2
      · by_cases four : (readData image dentry.inode 0 4).length = 4
        · rw [if_neg (not_not.mpr regular), if_neg (not_not.mpr four)]
          simp only [eq_elfMagic_iff four]
          by_cases magic : readData image dentry.inode 0 4 = elfMagic
          · simp [regular, magic]
          · simp [magic]
        · have other : readData image dentry.inode 0 4 ≠ elfMagic := fun same =>
            four (by rw [same]; rfl)
          simp [regular, four, other]
      · simp [regular]

/-! ### The load loop -/

section Loop

variable {image : Image} {inode : Nat}

/-- A loop that returns has carried out its stores, all of them in the page. -/
theorem loadLoop_eq_some {rounds : Nat} : ∀ {filePos : Nat} {frame loaded : Frame},
    loadLoop image inode rounds filePos frame = some loaded →
      loaded = (loadWrites image inode rounds filePos).foldl storeWrite frame ∧
        ∀ write ∈ loadWrites image inode rounds filePos,
          0x08048000 ≤ write.1 ∧ write.1 + write.2.length ≤ 0x08400000 := by
  induction rounds with
  | zero =>
      intro filePos frame loaded done
      cases done
  | succ rounds inductionHypothesis =>
      intro filePos frame loaded done
      unfold loadLoop at done
      unfold loadWrites
      dsimp only at done ⊢
      split_ifs at done ⊢ with finished behind
      · cases done
        exact ⟨rfl, by simp⟩
      · rcases inductionHypothesis done with ⟨stored, inside⟩
        refine ⟨?_, ?_⟩
        · rw [stored, List.foldl_cons]
          congr 1
          funext offset
          have address : 0x08000000 + offset - (0x08048000 + filePos) =
              offset - (0x00048000 + filePos) := by omega
          simp only [storeWrite, address]
          congr 1
          apply propext
          omega
        · intro write member
          cases List.mem_cons.mp member with
          | inl here =>
              rw [here]
              exact ⟨by simp, by simp only; omega⟩
          | inr later => exact inside write later

variable (bounded : image.fileLength inode ≤ 2 ^ 32 - 4096)
include bounded

/-- One round returns the next page of the file. -/
theorem readData_round (filePos : Nat) :
    readData image inode filePos 4096 =
      (List.range (min 4096 (image.fileLength inode - filePos))).map
        fun k => image.fileByte inode (filePos + k) := by
  rw [readData_eq image inode filePos 4096 bounded (by decide), Image.take_drop_fileBytes]

/-- **A file that fits is loaded.** From `filePos` on, the rounds store the rest
of the file behind the rest of the page that holds it. -/
theorem loadLoop_of_fits (fits : image.fileLength inode ≤ programRoom) :
    ∀ (rounds filePos : Nat) (frame : Frame), filePos < image.fileLength inode + 4096 →
      image.fileLength inode + 4096 ≤ filePos + 4096 * rounds →
      loadLoop image inode rounds filePos frame = some fun offset =>
        if 0x48000 + filePos ≤ offset ∧ offset < 0x48000 + image.fileLength inode then
          image.fileByte inode (offset - 0x48000)
        else frame offset := by
  intro rounds
  induction rounds with
  | zero =>
      intro filePos frame near enough
      omega
  | succ rounds inductionHypothesis =>
      intro filePos frame near enough
      unfold programRoom at fits
      unfold loadLoop
      rw [readData_round bounded]
      simp only [List.length_map, List.length_range]
      split_ifs with finished behind
      · -- The file ends here: nothing is left to store.
        congr 1
        funext offset
        rw [if_neg (by omega)]
      · omega
      · rw [inductionHypothesis _ _ (by omega) (by omega)]
        congr 1
        funext offset
        by_cases later : 0x48000 + (filePos + 4096) ≤ offset ∧
            offset < 0x48000 + image.fileLength inode
        · rw [if_pos later, if_pos (by omega)]
        · rw [if_neg later]
          by_cases here : 0x48000 + filePos ≤ offset ∧ offset < 0x48000 + image.fileLength inode
          · have position : filePos + (offset - (0x48000 + filePos)) = offset - 0x48000 := by omega
            have inRound : offset - (0x48000 + filePos) <
                min 4096 (image.fileLength inode - filePos) := by omega
            rw [if_pos here, if_pos (by omega), List.getD_eq_getElem _ _ (by simpa using inRound)]
            simp [position]
          · rw [if_neg here, if_neg (by omega)]

/-- A longer file makes some round store behind the page. -/
theorem exists_write_behind (tooLong : programRoom < image.fileLength inode) :
    ∀ (rounds pages : Nat), pages ≤ 952 → 952 < pages + rounds →
      ∃ write ∈ loadWrites image inode rounds (4096 * pages),
        0x08400000 < write.1 + write.2.length := by
  intro rounds
  induction rounds with
  | zero =>
      intro pages inPage enough
      omega
  | succ rounds inductionHypothesis =>
      intro pages inPage enough
      unfold programRoom at tooLong
      unfold loadWrites
      rw [readData_round bounded]
      simp only [List.length_map, List.length_range]
      rw [if_neg (by omega)]
      by_cases last : pages = 952
      · refine ⟨_, List.mem_cons_self, ?_⟩
        simp only [List.length_map, List.length_range]
        omega
      · rcases inductionHypothesis (pages + 1) (by omega) (by omega) with ⟨write, later, behind⟩
        exact ⟨write, List.mem_cons_of_mem _ later, behind⟩

/-- That store is a page fault before the rounds run out. -/
theorem loadLoop_of_overflow (tooLong : programRoom < image.fileLength inode) (frame : Frame) :
    loadLoop image inode 953 0 frame = none := by
  rcases exists_write_behind bounded tooLong 953 0 (by decide) (by decide) with
    ⟨write, member, behind⟩
  cases loaded : loadLoop image inode 953 0 frame with
  | none => rfl
  | some final =>
      have inside := ((loadLoop_eq_some loaded).2 write member).2
      omega

end Loop

/-! ### Exactness -/

/-- A frame belongs to one pid. -/
theorem find_frame : ∀ pid : Pid,
    (List.finRange 6).find? (fun other => 2 + other.val = 2 + pid.val) = some pid := by
  decide

theorem Kernel.userByte_of_page {kernel : Kernel} {pid : Pid} (page : kernel.userFrame = 2 + pid.val)
    {offset : Nat} (inPage : offset < 0x400000) :
    kernel.userByte (0x08000000 + offset) = some (kernel.frames pid offset) := by
  unfold Kernel.userByte
  rw [if_pos (by omega), page, find_frame, Option.map_some, Nat.add_sub_cancel_left]

section Create

variable {image : Image} {command staleArgs : Bytes} {dentry : Dentry} {kernel : Kernel}

/-- A file that does not fit faults while it is loaded. -/
theorem processCreate_of_overflow (terminal : Terminal) (hasParent : Bool) {inode : Nat}
    (found : findExecutable image (scanCommand staleArgs 32 command).1 = some inode)
    (bounded : image.fileLength inode ≤ 2 ^ 32 - 4096)
    (tooLong : programRoom < image.fileLength inode)
    (free : ∃ pid, kernel.activePids pid = .unused) :
    processCreate image command staleArgs terminal hasParent kernel = none := by
  rcases free with ⟨unused, isUnused⟩
  rcases exists_getFreePid isUnused with ⟨pid, freePid⟩
  have faulted := loadLoop_of_overflow bounded tooLong ((kernel.setActive pid .created).frames pid)
  unfold processCreate finishCreate
  dsimp only
  rw [found, freePid]
  dsimp only
  rw [faulted]
  rfl

/-- **Program loading, exactly.** A command that names an executable of a
well-formed inode is loaded, or refused, as it should be if and only if the file
fits between 0x08048000 and the end of the user page. -/
theorem loadsProgram_iff (terminal : Terminal) (hasParent : Bool)
    (named : readDentryByName image (some (scanCommand staleArgs 32 command).1) = some dentry)
    (regular : dentry.fileType = 2) (wellFormed : image.WellFormedInode dentry.inode)
    (magic : (image.fileBytes dentry.inode).take 4 = elfMagic)
    (free : ∃ pid, kernel.activePids pid = .unused) :
    LoadsProgram image dentry.inode kernel
        (processCreate image command staleArgs terminal hasParent kernel) ↔
      image.fileLength dentry.inode ≤ programRoom := by
  have limit := wellFormed.length
  have bounded : image.fileLength dentry.inode ≤ 2 ^ 32 - 4096 := by omega
  have start : readData image dentry.inode 0 4 = elfMagic := by
    rw [readData_eq image dentry.inode 0 4 bounded (by decide), List.drop_zero, magic]
  have found := findExecutable_eq_some_iff.mpr ⟨dentry, named, regular, start, rfl⟩
  constructor
  · rintro ⟨result, kernel', created, -⟩
    by_contra tooLong
    rw [processCreate_of_overflow terminal hasParent found bounded (Nat.lt_of_not_le tooLong)
      free] at created
    cases created
  · intro fits
    rcases free with ⟨unused, isUnused⟩
    rcases exists_getFreePid isUnused with ⟨pid, freePid⟩
    have loaded := loadLoop_of_fits bounded fits 953 0 ((kernel.setActive pid .created).frames pid)
      (by omega) (by unfold programRoom at fits; omega)
    unfold processCreate finishCreate
    dsimp only
    rw [found, freePid]
    dsimp only
    rw [loaded]
    refine ⟨some pid, _, rfl, .inl ⟨pid, rfl, ?_⟩⟩
    unfold programRoom at fits
    constructor
    case page => rfl
    case stores => exact (loadLoop_eq_some loaded).2
    case contents =>
      intro k inFile
      have address : 0x08048000 + k = 0x08000000 + (0x48000 + k) := by omega
      rw [address, Kernel.userByte_of_page (show _ = 2 + pid.val from rfl) (by omega)]
      simp [setUpProcess, Image.fileBytes_eq_map, inFile]
    case confined =>
      intro offset outside
      have notStored : ¬ (0x48000 ≤ offset ∧ offset < 0x48000 + image.fileLength dentry.inode) := by
        omega
      simp [setUpProcess, notStored, Kernel.setActive]
    case others =>
      intro other differ
      simp [setUpProcess, differ, Kernel.setActive]

end Create

theorem loadsProgram_shell :
    LoadsProgram shellImage 0 emptyKernel
      (processCreate shellImage shellName [] 0 false emptyKernel) := by
  have named : readDentryByName shellImage (some (scanCommand [] 32 shellName).1) =
      some ⟨shellName, 2, 0⟩ := by
    decide
  have length : shellImage.fileLength 0 = 4 := by decide
  have wellFormed : shellImage.WellFormedInode 0 := by
    refine ⟨by decide, by omega, fun i inFile => ?_⟩
    obtain rfl : i = 0 := by omega
    decide
  have magic : (shellImage.fileBytes 0).take 4 = elfMagic := by
    rw [← List.drop_zero (l := shellImage.fileBytes 0), Image.take_drop_fileBytes]
    decide
  exact (loadsProgram_iff 0 false named rfl wellFormed magic ⟨0, rfl⟩).mpr
    (by rw [length]; decide)

/-! ### A file of one byte too many -/

/-- One executable called "shell" of 0x3B8001 bytes, each block of it block 0. -/
def oversizedImage : Image :=
  .ofCells [(0, 1), (4, 1), (8, 1), (64, 0x73), (65, 0x68), (66, 0x65), (67, 0x6C), (68, 0x6C),
    (96, 2), (4096, 0x01), (4097, 0x80), (4098, 0x3B), (8192, 0x7F), (8193, 0x45), (8194, 0x4C),
    (8195, 0x46)]

theorem fileLength_oversizedImage : oversizedImage.fileLength 0 = 0x3B8001 := by decide

theorem oversizedImage_wellFormedInode : oversizedImage.WellFormedInode 0 := by
  refine ⟨by decide, by rw [fileLength_oversizedImage]; decide, fun i inFile => ?_⟩
  rw [fileLength_oversizedImage] at inFile
  have blank : ∀ address, 4100 ≤ address → address < 8192 → oversizedImage.load address = 0 := by
    intro address behindLength beforeBlock
    have small : address % 2 ^ 32 = address := by omega
    rw [Image.load, small, oversizedImage, Image.ofCells]
    dsimp only
    rw [List.lookup_eq_none_iff.mpr]
    · rfl
    · intro cell member
      have elsewhere : cell.1 < 4100 ∨ 8192 ≤ cell.1 := by
        revert cell
        decide
      apply bne_iff_ne.mpr
      omega
  have first : oversizedImage.dataBlock 0 i = 0 := by
    unfold Image.dataBlock Image.inodeAt Image.word
    rw [blank _ (by omega) (by omega), blank _ (by omega) (by omega),
      blank _ (by omega) (by omega), blank _ (by omega) (by omega)]
    rfl
  rw [first]
  decide

/-- A file of 0x3B8001 bytes neither loads nor fails: its last store faults. -/
theorem not_forall_loadsProgram :
    ¬ ∀ image command staleArgs terminal hasParent kernel dentry,
      readDentryByName image (some (scanCommand staleArgs 32 command).1) = some dentry →
      dentry.fileType = 2 → image.WellFormedInode dentry.inode →
      (image.fileBytes dentry.inode).take 4 = elfMagic →
      (∃ pid, kernel.activePids pid = .unused) →
      LoadsProgram image dentry.inode kernel
        (processCreate image command staleArgs terminal hasParent kernel) := by
  intro all
  have named : readDentryByName oversizedImage (some (scanCommand [] 32 shellName).1) =
      some ⟨shellName, 2, 0⟩ := by
    decide
  have magic : (oversizedImage.fileBytes 0).take 4 = elfMagic := by
    rw [← List.drop_zero (l := oversizedImage.fileBytes 0), Image.take_drop_fileBytes,
      fileLength_oversizedImage]
    decide
  rcases all oversizedImage shellName [] 0 false emptyKernel ⟨shellName, 2, 0⟩ named rfl
    oversizedImage_wellFormedInode magic ⟨0, rfl⟩ with ⟨result, kernel', created, -⟩
  have found : findExecutable oversizedImage (scanCommand [] 32 shellName).1 = some 0 := by decide
  have faulted : processCreate oversizedImage shellName [] 0 false emptyKernel = none :=
    processCreate_of_overflow 0 false found (by rw [fileLength_oversizedImage]; decide)
      (by rw [fileLength_oversizedImage]; decide) ⟨0, rfl⟩
  cases faulted.symm.trans created

end MonolithicKernel.Process
