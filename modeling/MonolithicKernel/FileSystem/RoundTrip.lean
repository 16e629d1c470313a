import MonolithicKernel.FileSystem.Descriptors

/-!
Owns the round trip from listing to opening: the bytes that `directoryRead`
returns for an entry, passed to `openHandler` as a C string. `openHandler`
picks the driver from the beginning of the name, before any lookup, and the
driver then insists on its own file type; so an entry comes back only when its
type is the one its name stands for.

Does not own names that extend "rtc" or "." properly.
-/

namespace MonolithicKernel.FileSystem

open MonolithicKernel.Lib

/-- The entries in use have distinct names, none of them empty. -/
structure DistinctNames (image : Image) : Prop where
  slots : image.nDirEntries ≤ 63
  nonempty : ∀ k < image.nDirEntries, image.entryName k ≠ []
  distinct : ∀ i < image.nDirEntries, ∀ k < image.nDirEntries,
    image.entryName i = image.entryName k → i = k

/-- Opening `name` returns a descriptor in 2..7 for entry `k` itself. -/
def OpensEntry (image : Image) (fds : FdTable) (name : Bytes) (k : Nat) : Prop :=
  ∃ slot fds', openHandler image fds name = (some slot, fds') ∧ 2 ≤ slot ∧
    (image.dentryFileType k = 0 → (fds' slot).fileTablePtr = some .rtc) ∧
    (image.dentryFileType k = 1 →
      (fds' slot).fileTablePtr = some .directory ∧ (fds' slot).inode = image.dentryInode k) ∧
    (image.dentryFileType k = 2 →
      (fds' slot).fileTablePtr = some .file ∧ (fds' slot).inode = image.dentryInode k)

/-- Entry `k` opens under the bytes that any directory read of at least 32 bytes
returns for it, in any process with a free descriptor. -/
def EntryRoundTrips (image : Image) (k : Nat) : Prop :=
  ∀ (lister : FdTable) (fd : Int) (slot : Fin 8) (buf : Nat) (nbytes : Int) (opener : FdTable)
    (free : Fin 8),
    checkValidFd lister fd = some slot → (lister slot).filePos = k → buf ≠ 0 → 32 ≤ nbytes →
    2 ≤ free → (opener free).inode = freeInode →
    OpensEntry image opener (directoryRead image lister fd buf nbytes).stored k

/-- The type an entry has by its name: the RTC is called "rtc", the directory
".", and regular files begin like neither. -/
def ConventionalType (image : Image) (k : Nat) : Prop :=
  (image.entryName k = rtcName ∧ image.dentryFileType k = 0) ∨
  (image.entryName k = dotName ∧ image.dentryFileType k = 1) ∨
  (¬ rtcName <+: image.entryName k ∧ ¬ dotName <+: image.entryName k ∧
    image.dentryFileType k = 2)

instance (image : Image) (k : Nat) : Decidable (ConventionalType image k) := by
  unfold ConventionalType
  infer_instance

/-! ### Listing -/

/-- A directory read of at least 32 bytes returns the name of the entry at the
descriptor's position. -/
theorem stored_directoryRead {image : Image} {fds : FdTable} {fd : Int} {slot : Fin 8}
    {buf k : Nat} {nbytes : Int} (valid : checkValidFd fds fd = some slot)
    (position : (fds slot).filePos = k) (inDirectory : k < 63) (nonNull : buf ≠ 0)
    (long : 32 ≤ nbytes) :
    (directoryRead image fds fd buf nbytes).stored = image.entryName k := by
  have short := image.strlen_dentryFileName_le k
  have capped : (if nbytes.toNat > 32 then 32 else nbytes.toNat) = 32 := by
    split_ifs <;> omega
  unfold directoryRead
  rw [valid]
  dsimp only
  rw [position, readDentryByIndex_eq image inDirectory]
  dsimp only
  rw [if_neg (by simp [nonNull]), if_neg (by omega), capped, strlen_strncpy_dentryFileName]
  have cut : (if 32 > strlen (image.dentryFileName k) then strlen (image.dentryFileName k)
      else 32) = strlen (image.dentryFileName k) := by
    split_ifs <;> omega
  rw [cut, take_strncpy_dentryFileName]

/-! ### Choosing the driver -/

theorem strncmp_literal_eq_zero_iff {literal name : Bytes} (noNul : NoNul literal) :
    strncmp literal name literal.length = 0 ↔ literal <+: name := by
  rw [strncmp_eq_zero_iff_of_noNul (by simpa using noNul) le_rfl, List.take_length,
    List.prefix_iff_eq_take]

theorem strncmp_rtcName (name : Bytes) : strncmp rtcName name 3 = 0 ↔ rtcName <+: name :=
  strncmp_literal_eq_zero_iff (show NoNul rtcName by decide)

theorem strncmp_dotName (name : Bytes) : strncmp dotName name 1 = 0 ↔ dotName <+: name :=
  strncmp_literal_eq_zero_iff (show NoNul dotName by decide)

/-- A driver's open finds the entry under its own name. -/
theorem openEntry_entryName {image : Image} {fds : FdTable} {k : Nat} {free : Fin 8}
    (table : Jumptable) (names : DistinctNames image) (inUse : k < image.nDirEntries)
    (high : 2 ≤ free) (freeSlot : (fds free).inode = freeInode) :
    ∃ slot, 2 ≤ slot ∧ openEntry (image.dentryFileType k) table image fds (image.entryName k) =
      (some slot, Function.update fds slot ⟨some table, image.dentryInode k, 0, 0⟩) := by
  have inDirectory : k < 63 := lt_of_lt_of_le inUse names.slots
  obtain ⟨fileName, found⟩ := readDentryByName_entryName image inDirectory fun i earlier same =>
    earlier.ne (names.distinct i (earlier.trans inUse) k inUse same)
  obtain ⟨slot, taken⟩ := getFreeFd_isSome high freeSlot
  refine ⟨slot, two_le_getFreeFd taken, ?_⟩
  unfold openEntry
  rw [found]
  simp [taken]

/-- **Round trip.** An entry whose type is the one its name stands for opens
under its listed name. -/
theorem entryRoundTrips_of_conventionalType {image : Image} {k : Nat}
    (names : DistinctNames image) (inUse : k < image.nDirEntries)
    (conventional : ConventionalType image k) : EntryRoundTrips image k := by
  intro lister fd slot buf nbytes opener free valid position nonNull long high freeSlot
  have inDirectory : k < 63 := lt_of_lt_of_le inUse names.slots
  rw [stored_directoryRead valid position inDirectory nonNull long]
  unfold OpensEntry openHandler
  rcases conventional with ⟨name, fileType⟩ | ⟨name, fileType⟩ | ⟨notRtc, notDot, fileType⟩
  · obtain ⟨taken, found⟩ := getFreeFd_isSome high freeSlot
    have isRtc : strncmp rtcName (image.entryName k) 3 = 0 := by
      rw [strncmp_rtcName]
      exact name.symm ▸ List.prefix_rfl
    refine ⟨taken, Function.update opener taken ⟨some .rtc, 0, 512, 512⟩, ?_,
      two_le_getFreeFd found, ?_⟩
    · rw [if_pos isRtc, rtcOpen, found]
    · simp [fileType]
  · obtain ⟨taken, isHigh, opened⟩ :=
      openEntry_entryName .directory names inUse high freeSlot
    have notRtc : strncmp rtcName (image.entryName k) 3 ≠ 0 := by
      rw [Ne, strncmp_rtcName, name]
      decide
    have isDot : strncmp dotName (image.entryName k) 1 = 0 := by
      rw [strncmp_dotName]
      exact name.symm ▸ List.prefix_rfl
    rw [fileType] at opened
    refine ⟨taken, Function.update opener taken ⟨some .directory, image.dentryInode k, 0, 0⟩,
      ?_, isHigh, ?_⟩
    · rw [if_neg notRtc, if_pos isDot, directoryOpen]
      exact opened
    · simp [fileType]
  · obtain ⟨taken, isHigh, opened⟩ :=
      openEntry_entryName .file names inUse high freeSlot
    rw [← strncmp_rtcName] at notRtc
    rw [← strncmp_dotName] at notDot
    rw [fileType] at opened
    refine ⟨taken, Function.update opener taken ⟨some .file, image.dentryInode k, 0, 0⟩,
      ?_, isHigh, ?_⟩
    · rw [if_neg notRtc, if_neg notDot, fileOpen]
      exact opened
    · simp [fileType]

/-- Three entries: the directory ".", the RTC, and a file called "a" with inode 1. -/
def threeEntryImage : Image :=
  .ofCells [(0, 3), (64, 0x2E), (96, 1), (128, 0x72), (129, 0x74), (130, 0x63), (192, 0x61), (224, 2),
    (228, 1)]

theorem threeEntryImage_distinctNames : DistinctNames threeEntryImage := by
  have count : threeEntryImage.nDirEntries = 3 := by decide
  refine ⟨by omega, ?_, ?_⟩
  · rw [count]
    decide
  · rw [count]
    decide

theorem threeEntryImage_entryRoundTrips :
    EntryRoundTrips threeEntryImage 0 ∧ EntryRoundTrips threeEntryImage 1 ∧
      EntryRoundTrips threeEntryImage 2 :=
  ⟨entryRoundTrips_of_conventionalType threeEntryImage_distinctNames (by decide) (by decide),
    entryRoundTrips_of_conventionalType threeEntryImage_distinctNames (by decide) (by decide),
    entryRoundTrips_of_conventionalType threeEntryImage_distinctNames (by decide) (by decide)⟩

/-- One entry: a directory called "bin", inode 0. -/
def binImage : Image := .ofCells [(0, 1), (64, 0x62), (65, 0x69), (66, 0x6E), (96, 1)]

/-- A directory under any other name than "." goes to `file_open`, which does
not take it. -/
theorem not_forall_entryRoundTrips :
    ¬ ∀ image, DistinctNames image → ∀ k < image.nDirEntries, EntryRoundTrips image k := by
  intro all
  have names : DistinctNames binImage := by
    have count : binImage.nDirEntries = 1 := by decide
    refine ⟨by omega, ?_, ?_⟩
    · intro k inUse
      obtain rfl : k = 0 := by omega
      decide
    · intro i iInUse k kInUse _
      omega
  let lister : FdTable := fun _ => ⟨some .directory, 0, 0, 0⟩
  let opener : FdTable := fun _ => ⟨none, freeInode, 0, 0⟩
  obtain ⟨slot, fds', opened, -⟩ := all binImage names 0 (by decide) lister 2 2 1 32 opener 2
    (by decide) rfl (by decide) (by decide) (by decide) rfl
  have refused : (openHandler binImage opener
      (directoryRead binImage lister 2 1 32).stored).1 = none := by
    decide
  rw [opened] at refused
  cases refused

end MonolithicKernel.FileSystem
