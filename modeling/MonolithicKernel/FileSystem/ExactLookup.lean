import MonolithicKernel.FileSystem.Lookup

/-!
Owns how far `read_dentry_by_name` is a lookup of whole names among the entries
in use. The lookup walks over all 63 slots, used or not, and clips the string to
32 bytes before it compares lengths; so it also finds unused slots, the empty
name of a zero slot, and a 32-byte name under any longer string.

Does not own what the callers do with the entry.
-/

namespace MonolithicKernel.FileSystem

open MonolithicKernel.Lib

/-- The first entry in use with this name. -/
def Image.entryNamed (image : Image) (name : Bytes) : Option Nat :=
  (List.range image.nDirEntries).find? fun i => image.entryName i = name

/-- A lookup of `name` succeeds exactly when an entry in use has this name, with
the type and the inode of the first such entry; and it fails on a string that no
entry can be called. -/
structure LookupExact (image : Image) (name : Bytes) : Prop where
  found : (readDentryByName image (some name)).map (fun dentry => (dentry.fileType, dentry.inode)) =
    (image.entryNamed name).map fun i => (image.dentryFileType i, image.dentryInode i)
  tooLong : 32 < name.length → readDentryByName image (some name) = none
  empty : name = [] → readDentryByName image (some name) = none

/-- Whenever a slot has the first 32 bytes of `name` as its name, `name` is
neither empty nor longer and an entry in use has it. -/
def NamesOnlyEntries (image : Image) (name : Bytes) : Prop :=
  ∀ i < 63, image.entryName i = name.take 32 →
    name ≠ [] ∧ name.length ≤ 32 ∧ ∃ k < image.nDirEntries, image.entryName k = name

instance (image : Image) (name : Bytes) : Decidable (NamesOnlyEntries image name) := by
  unfold NamesOnlyEntries
  infer_instance

section Lookup

variable {image : Image} {name : Bytes}

/-- The slot that a lookup takes its entry from. -/
theorem readDentryByName_eq_find (image : Image) (noNul : NoNul name) :
    (readDentryByName image (some name)).map (fun dentry => (dentry.fileType, dentry.inode)) =
      ((List.range 63).find? fun i => image.entryName i = name.take 32).map
        fun i => (image.dentryFileType i, image.dentryInode i) := by
  rw [readDentryByName_eq image noNul]
  induction List.range 63 with
  | nil => rfl
  | cons i slots inductionHypothesis =>
      by_cases here : image.entryName i = name.take 32
      · simp [here]
      · simpa [here] using inductionHypothesis

theorem readDentryByName_eq_none_iff (noNul : NoNul name) :
    readDentryByName image (some name) = none ↔
      ∀ i < 63, image.entryName i ≠ name.take 32 := by
  have slot := readDentryByName_eq_find image noNul
  rw [← Option.map_eq_none_iff, slot, Option.map_eq_none_iff, List.find?_eq_none]
  simp

theorem take_of_short (short : name.length ≤ 32) : name.take 32 = name :=
  List.take_of_length_le short

/-- Entries in use come first among the slots. -/
theorem entryNamed_eq_find (slots : image.nDirEntries ≤ 63) {k : Nat}
    (inUse : k < image.nDirEntries) (named : image.entryName k = name) :
    image.entryNamed name = (List.range 63).find? fun i => image.entryName i = name := by
  have front : List.range 63 = List.range image.nDirEntries ++
      (List.range (63 - image.nDirEntries)).map (image.nDirEntries + ·) := by
    rw [← List.range_add, Nat.add_sub_cancel' slots]
  have found : (image.entryNamed name).isSome := by
    rw [Image.entryNamed, List.find?_isSome]
    exact ⟨k, List.mem_range.mpr inUse, by simpa using named⟩
  rw [front, List.find?_append]
  rcases Option.isSome_iff_exists.mp found with ⟨first, isFirst⟩
  rw [Image.entryNamed] at isFirst ⊢
  rw [isFirst, Option.some_or]

/-- **Exact lookups, exactly.** A lookup is one of whole names among the entries
in use if and only if no slot answers to `name` that should not. -/
theorem lookupExact_iff (slots : image.nDirEntries ≤ 63) (noNul : NoNul name) :
    LookupExact image name ↔ NamesOnlyEntries image name := by
  constructor
  · intro exact i inDirectory named
    have succeeds : readDentryByName image (some name) ≠ none := fun failed =>
      (readDentryByName_eq_none_iff noNul).mp failed i inDirectory named
    have short : name.length ≤ 32 := not_lt.mp fun long => succeeds (exact.tooLong long)
    refine ⟨fun isEmpty => succeeds (exact.empty isEmpty), short, ?_⟩
    have entry : (image.entryNamed name).isSome := by
      rw [← Option.isSome_map, ← exact.found, Option.isSome_map]
      exact Option.isSome_iff_ne_none.mpr succeeds
    rw [Image.entryNamed, List.find?_isSome] at entry
    rcases entry with ⟨k, inUse, hasName⟩
    exact ⟨k, List.mem_range.mp inUse, by simpa using hasName⟩
  · intro onlyEntries
    by_cases answered : ∃ i < 63, image.entryName i = name.take 32
    · rcases answered with ⟨i, inDirectory, named⟩
      rcases onlyEntries i inDirectory named with ⟨nonempty, short, k, inUse, hasName⟩
      refine ⟨?_, fun long => absurd long (not_lt.mpr short), fun isEmpty =>
        absurd isEmpty nonempty⟩
      rw [readDentryByName_eq_find image noNul, take_of_short short,
        entryNamed_eq_find slots inUse hasName]
    · have failed : readDentryByName image (some name) = none :=
        (readDentryByName_eq_none_iff noNul).mpr fun i inDirectory named =>
          answered ⟨i, inDirectory, named⟩
      refine ⟨?_, fun _ => failed, fun _ => failed⟩
      have noEntry : image.entryNamed name = none := by
        rw [Image.entryNamed, List.find?_eq_none]
        intro k inUse hasName
        have named : image.entryName k = name := by simpa using hasName
        have short : name.length ≤ 32 := named ▸ image.length_entryName_le k
        refine answered ⟨k, (List.mem_range.mp inUse).trans_le slots, ?_⟩
        rw [named, take_of_short short]
      rw [failed, noEntry]
      rfl

end Lookup

/-- One regular file, called by 32 times "a". -/
def longNameImage : Image :=
  .ofCells ([(0, 1), (4, 1), (96, 2)] ++ (List.range 32).map fun i => (64 + i, 0x61))

/-- The 32-byte name is looked up exactly. -/
theorem lookupExact_longName : LookupExact longNameImage (List.replicate 32 0x61) :=
  (lookupExact_iff (by decide) (by decide)).mpr (by decide)

/-- One byte more, and the same entry is found. -/
theorem not_forall_lookupExact :
    ¬ ∀ image name, image.nDirEntries ≤ 63 → NoNul name → LookupExact image name := by
  intro all
  have exact := all longNameImage (List.replicate 33 0x61) (by decide) (by decide)
  have failed := exact.tooLong (by decide)
  revert failed
  decide

end MonolithicKernel.FileSystem
