import MonolithicKernel.FileSystem.ExactLookup
import MonolithicKernel.Process.Launch

/-!
Owns how `process_create` takes a command apart. The scan ends at a NUL, at a
space or after 32 characters, and only the first two ends terminate `file_name`
and set `file_args`; so a name of 32 characters already runs without arguments
of its own, and a longer one is cut. Arguments of 128 characters fill their
field to the last byte.

Does not own what `getargs` makes of the field.
-/

namespace MonolithicKernel.Process

open MonolithicKernel.FileSystem
open MonolithicKernel.Lib

/-- The characters of a command up to its first space. -/
def commandName (command : Bytes) : Bytes := command.takeWhile (· ≠ 0x20)

/-- The characters behind the first space. -/
def commandArgs (command : Bytes) : Bytes := (command.dropWhile (· ≠ 0x20)).tail

/-- `process_create` looks the command up by its name, starts a program only
under its full name, records its arguments NUL-terminated, and does not depend
on what the stack held in `file_args`. -/
structure ParsesCommand (command : Bytes) : Prop where
  name : ∀ staleArgs, (scanCommand staleArgs 32 command).1 = commandName command
  starts : ∀ image staleArgs terminal hasParent kernel,
    (∀ i < 63, image.entryName i ≠ commandName command) →
      processCreate image command staleArgs terminal hasParent kernel = some (none, kernel)
  arguments : ∀ image staleArgs terminal hasParent kernel pid kernel',
    processCreate image command staleArgs terminal hasParent kernel = some (some pid, kernel') →
      (kernel'.pcb pid).args = strncpy ((commandArgs command).take 127) 128
  initialized : ∀ image staleArgs staleArgs' terminal hasParent kernel,
    processCreate image command staleArgs terminal hasParent kernel =
      processCreate image command staleArgs' terminal hasParent kernel

/-! ### The scan -/

section Scan

variable {command staleArgs : Bytes}

/-- With room for the name and its end, the scan finds the name and copies what
is behind the space. -/
theorem scanCommand_of_short (staleArgs : Bytes) (noNul : NoNul command) {room : Nat}
    (short : (commandName command).length < room) :
    (scanCommand staleArgs room command).1 = commandName command ∧
      strncpy (scanCommand staleArgs room command).2 128 = strncpy (commandArgs command) 128 := by
  induction room generalizing command with
  | zero => omega
  | succ room inductionHypothesis =>
      cases command with
      | nil => exact ⟨rfl, rfl⟩
      | cons a rest =>
          have nonNul : a ≠ 0 := noNul a List.mem_cons_self
          by_cases space : a = 0x20
          · simp [scanCommand, commandName, commandArgs, space, strncpy_strncpy]
          · have shorter : (commandName rest).length < room := by
              simpa [commandName, space] using short
            have rest := inductionHypothesis noNul.tail shorter
            simp only [commandName, commandArgs, ne_eq, decide_not] at rest
            simp [scanCommand, commandName, commandArgs, nonNul, space, rest]

/-- Without that room, the scan cuts the name and leaves the arguments alone. -/
theorem scanCommand_of_long (staleArgs : Bytes) (noNul : NoNul command) {room : Nat}
    (long : room ≤ (commandName command).length) :
    scanCommand staleArgs room command = ((commandName command).take room, staleArgs) := by
  induction room generalizing command with
  | zero => simp [scanCommand]
  | succ room inductionHypothesis =>
      cases command with
      | nil => simp [commandName] at long
      | cons a rest =>
          have nonNul : a ≠ 0 := noNul a List.mem_cons_self
          by_cases space : a = 0x20
          · simp [commandName, space] at long
          · have longer : room ≤ (commandName rest).length := by
              simpa [commandName, space] using long
            have rest := inductionHypothesis noNul.tail longer
            simp only [commandName, ne_eq, decide_not] at rest
            simp [scanCommand, commandName, nonNul, space, rest]

/-- The arguments are found in the stale bytes neither. -/
theorem scanCommand_stale (noNul : NoNul command) {room : Nat}
    (short : (commandName command).length < room) (staleArgs' : Bytes) :
    scanCommand staleArgs room command = scanCommand staleArgs' room command := by
  induction room generalizing command with
  | zero => omega
  | succ room inductionHypothesis =>
      cases command with
      | nil => rfl
      | cons a rest =>
          have nonNul : a ≠ 0 := noNul a List.mem_cons_self
          by_cases space : a = 0x20
          · simp [scanCommand, space]
          · have shorter : (commandName rest).length < room := by
              simpa [commandName, space] using short
            simp [scanCommand, nonNul, space, inductionHypothesis noNul.tail shorter]

theorem noNul_commandName (noNul : NoNul command) : NoNul (commandName command) :=
  fun byte member => noNul byte ((List.takeWhile_prefix _).subset member)

theorem noNul_commandArgs (noNul : NoNul command) : NoNul (commandArgs command) :=
  fun byte member => noNul byte ((List.dropWhile_suffix _).subset (List.mem_of_mem_tail member))

end Scan

/-! ### `process_create` -/

section Create

variable {image : Image} {command staleArgs : Bytes} {terminal : Terminal} {hasParent : Bool}
  {kernel kernel' : Kernel} {pid : Pid}

/-- A program is found only under the name of an entry. -/
theorem findExecutable_eq_none {name : Bytes} (noNul : NoNul name)
    (unnamed : ∀ i < 63, image.entryName i ≠ name.take 32) : findExecutable image name = none := by
  rw [findExecutable, (readDentryByName_eq_none_iff noNul).mpr unnamed]

theorem args_of_processCreate
    (created : processCreate image command staleArgs terminal hasParent kernel =
      some (some pid, kernel')) :
    (kernel'.pcb pid).args = strncpy (scanCommand staleArgs 32 command).2 128 := by
  rcases processCreate_eq_some created with ⟨failed, -⟩ | ⟨inode, free, -, -, same, finished⟩
  · cases failed
  · cases same
    rcases Option.map_eq_some_iff.mp finished with ⟨frame, -, rfl⟩
    simp [setUpProcess]

end Create

/-! ### An image with one program -/

/-- One executable of four bytes under a name of at most 32 bytes. -/
def executableImage (name : Bytes) : Image :=
  ⟨fun address =>
    if 64 ≤ address ∧ address < 96 then (strncpy name 32).getD (address - 64) 0
    else (([(0, 1), (4, 1), (8, 1), (96, 2), (4096, 4), (8192, 0x7F), (8193, 0x45), (8194, 0x4C),
      (8195, 0x46)] : List (Nat × UInt8)).lookup address).getD 0⟩

/-- The kernel before its first process. -/
def emptyKernel : Kernel := bootKernel (fun _ => zeroPcb) fun _ _ => 0

theorem dentryFileName_executableImage (name : Bytes) :
    (executableImage name).dentryFileName 0 = strncpy name 32 := by
  apply List.ext_getElem
  · simp [Image.dentryFileName]
  · intro k leftBound rightBound
    have inField : k < 32 := by simpa using rightBound
    have address : (64 + k) % 2 ^ 32 = 64 + k := by omega
    simp only [Image.dentryFileName, Image.slice, List.getElem_map, List.getElem_range, Image.load,
      Image.dentryAt, executableImage, Nat.mul_zero, Nat.add_zero, address]
    rw [if_pos (by omega), Nat.add_sub_cancel_left, List.getD_eq_getElem _ _ rightBound]

theorem entryName_executableImage {name : Bytes} (noNul : NoNul name) (short : name.length ≤ 32) :
    (executableImage name).entryName 0 = name := by
  rw [Image.entryName, dentryFileName_executableImage, take_strlen, takeWhile_strncpy,
    ← take_strlen, strlen_of_noNul noNul, List.take_length, List.take_of_length_le short]

theorem findExecutable_executableImage {name : Bytes} (noNul : NoNul name)
    (short : name.length ≤ 32) : findExecutable (executableImage name) name = some 0 := by
  obtain ⟨fileName, found⟩ := readDentryByName_entryName (executableImage name) (k := 0) (by decide)
    fun i impossible => absurd impossible (Nat.not_lt_zero i)
  rw [entryName_executableImage noNul short] at found
  have fileType : (executableImage name).dentryFileType 0 = 2 := rfl
  have inode : (executableImage name).dentryInode 0 = 0 := rfl
  have length : (executableImage name).fileLength 0 = 4 := rfl
  have magic : readData (executableImage name) 0 0 4 = [0x7F, 0x45, 0x4C, 0x46] := by
    have block : 4096 * ((executableImage name).nInodes + 1 +
        (executableImage name).dataBlock 0 0) = 8192 := rfl
    rw [readData_eq _ _ _ _ (by omega) (by decide), Image.take_drop_fileBytes, length]
    have first : (executableImage name).load 8192 = 0x7F := rfl
    have second : (executableImage name).load 8193 = 0x45 := rfl
    have third : (executableImage name).load 8194 = 0x4C := rfl
    have fourth : (executableImage name).load 8195 = 0x46 := rfl
    simp [Image.fileByte, List.range_succ, block, first, second, third, fourth]
  rw [findExecutable, found]
  dsimp only
  rw [fileType, inode, magic]
  rfl

/-- Its program starts under its name. -/
theorem processCreate_executableImage (command staleArgs : Bytes)
    (noNul : NoNul (scanCommand staleArgs 32 command).1)
    (short : (scanCommand staleArgs 32 command).1.length ≤ 32) :
    ∃ kernel', processCreate (executableImage (scanCommand staleArgs 32 command).1) command
      staleArgs 0 false emptyKernel = some (some 0, kernel') := by
  have fits : (executableImage (scanCommand staleArgs 32 command).1).fileLength 0 ≤ 0x3B8000 := by
    have length : (executableImage (scanCommand staleArgs 32 command).1).fileLength 0 = 4 := rfl
    omega
  obtain ⟨frame, loaded⟩ := exists_loadLoop fits 953 0
    ((emptyKernel.setActive 0 .created).frames 0) (by omega) (by omega)
  have free : emptyKernel.getFreePid = some 0 := by decide
  rw [processCreate, findExecutable_executableImage noNul short, free]
  dsimp only
  rw [finishCreate, loaded]
  exact ⟨_, rfl⟩

/-! ### Exactness -/

/-- **Command parsing, exactly.** `process_create` takes a command apart as it
should if and only if its name has at most 31 characters and its arguments have
at most 127. -/
theorem parsesCommand_iff {command : Bytes} (noNul : NoNul command) :
    ParsesCommand command ↔
      (commandName command).length ≤ 31 ∧ (commandArgs command).length ≤ 127 := by
  constructor
  · intro parses
    have shortName : (commandName command).length ≤ 31 := by
      by_contra tooLong
      have cut := fun staleArgs =>
        scanCommand_of_long staleArgs noNul (show 32 ≤ (commandName command).length by omega)
      -- Two stacks leave two different arguments.
      have created := fun staleArgs => processCreate_executableImage command staleArgs
        (by
          rw [cut]
          exact fun byte member =>
            noNul_commandName noNul byte (List.mem_of_mem_take member))
        (by rw [cut, List.length_take]; exact min_le_left ..)
      obtain ⟨first, firstEq⟩ := created []
      obtain ⟨second, secondEq⟩ := created [1]
      rw [cut] at firstEq secondEq
      have same := parses.initialized (executableImage ((commandName command).take 32)) [] [1] 0
        false emptyKernel
      cases (firstEq.symm.trans same).trans secondEq
      have firstArgs := args_of_processCreate firstEq
      have secondArgs := args_of_processCreate secondEq
      rw [cut] at firstArgs secondArgs
      have clash := congrArg List.head? (firstArgs.symm.trans secondArgs)
      simp [strncpy, List.replicate_succ] at clash
    refine ⟨shortName, ?_⟩
    by_contra tooLong
    have found := scanCommand_of_short [] noNul (show (commandName command).length < 32 by omega)
    obtain ⟨kernel', created⟩ := processCreate_executableImage command []
      (by rw [found.1]; exact noNul_commandName noNul) (by rw [found.1]; omega)
    have recorded := parses.arguments _ _ _ _ _ _ _ created
    rw [args_of_processCreate created, found.2] at recorded
    -- The field is full, and its last byte is the 128th character.
    have lengths := congrArg (fun args => (args.takeWhile (· ≠ 0)).length) recorded
    have clipped : NoNul ((commandArgs command).take 127) := fun byte member =>
      noNul_commandArgs noNul byte (List.mem_of_mem_take member)
    rw [takeWhile_strncpy, takeWhile_strncpy, (noNul_commandArgs noNul).takeWhile,
      clipped.takeWhile] at lengths
    simp only [List.length_take] at lengths
    omega
  · rintro ⟨shortName, shortArgs⟩
    have found := fun staleArgs =>
      scanCommand_of_short staleArgs noNul (show (commandName command).length < 32 by omega)
    constructor
    · exact fun staleArgs => (found staleArgs).1
    · intro image staleArgs terminal hasParent kernel unnamed
      have clipped : (commandName command).take 32 = commandName command :=
        List.take_of_length_le (by omega)
      rw [processCreate, (found staleArgs).1,
        findExecutable_eq_none (noNul_commandName noNul) (by rwa [clipped])]
    · intro image staleArgs terminal hasParent kernel pid kernel' created
      rw [args_of_processCreate created, (found staleArgs).2,
        List.take_of_length_le (by omega)]
    · intro image staleArgs staleArgs' terminal hasParent kernel
      rw [processCreate, scanCommand_stale noNul (by omega) staleArgs', ← processCreate]

theorem parsesCommand_shell : ParsesCommand shellName :=
  (parsesCommand_iff (by decide)).mpr (by decide)

/-- A name of 33 characters starts the program called by its first 32. -/
theorem not_forall_parsesCommand : ¬ ∀ command, NoNul command → ParsesCommand command := by
  intro all
  have parses := all (List.replicate 33 0x61) (by decide)
  have cut : (scanCommand [] 32 (List.replicate 33 0x61)).1 = List.replicate 32 0x61 := by decide
  obtain ⟨kernel', created⟩ := processCreate_executableImage (List.replicate 33 0x61) []
    (by rw [cut]; decide) (by rw [cut]; decide)
  have failed := parses.starts (executableImage (scanCommand [] 32 (List.replicate 33 0x61)).1) []
    0 false emptyKernel ?_
  · cases created.symm.trans failed
  · intro i _ named
    have tooLong := Image.length_entryName_le
      (executableImage (scanCommand [] 32 (List.replicate 33 0x61)).1) i
    rw [named] at tooLong
    revert tooLong
    decide

end MonolithicKernel.Process
