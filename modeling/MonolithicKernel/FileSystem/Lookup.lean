import MonolithicKernel.FileSystem.ReadData

/-!
Owns the meaning of the two directory readers in terms of entry names. The name
of an entry is its 32-byte field up to the first NUL, or all 32 bytes. A lookup
of a C string finds the first of the 63 slots whose name is the string clipped
to 32 bytes; the length count after `strncmp` is what turns the prefix
comparison into an equality.

Does not own which of the 63 slots are in use.
-/

namespace MonolithicKernel.FileSystem

open MonolithicKernel.Lib

namespace Image

/-- The name of directory entry `i`. -/
def entryName (image : Image) (i : Nat) : Bytes :=
  (image.dentryFileName i).take (strlen (image.dentryFileName i))

theorem strlen_dentryFileName_le (image : Image) (i : Nat) :
    strlen (image.dentryFileName i) ≤ 32 := by
  have bound := strlen_le (image.dentryFileName i)
  simpa [dentryFileName] using bound

@[simp] theorem length_entryName (image : Image) (i : Nat) :
    (image.entryName i).length = strlen (image.dentryFileName i) := by
  have bound := strlen_le (image.dentryFileName i)
  simp [entryName, bound]

theorem length_entryName_le (image : Image) (i : Nat) : (image.entryName i).length ≤ 32 := by
  rw [length_entryName]
  exact image.strlen_dentryFileName_le i

theorem noNul_entryName (image : Image) (i : Nat) : NoNul (image.entryName i) :=
  noNul_take_strlen _

end Image

/-- The two tests of the lookup together say that the entry's name is the
string, clipped to 32 bytes. -/
theorem lookup_matches_iff (image : Image) {fname : Bytes} (noNul : NoNul fname) (i : Nat) :
    (strncmp fname (image.dentryFileName i) (min (strlen fname) 32) = 0 ∧
        strlen (image.dentryFileName i) = min (strlen fname) 32) ↔
      image.entryName i = fname.take 32 := by
  have clipped : NoNul (fname.take (min (strlen fname) 32)) := fun byte member =>
    noNul byte (List.mem_of_mem_take member)
  have whole := strlen_of_noNul noNul
  have prefixEq : fname.take (min (strlen fname) 32) = fname.take 32 := by
    rw [whole, List.take_eq_take_iff]
    omega
  rw [strncmp_eq_zero_iff_of_noNul clipped (by omega), prefixEq]
  constructor
  · rintro ⟨sameBytes, sameLength⟩
    rw [Image.entryName, sameLength, sameBytes]
  · intro sameName
    have sameLength : strlen (image.dentryFileName i) = min (strlen fname) 32 := by
      rw [← Image.length_entryName, sameName, List.length_take, whole, Nat.min_comm]
    refine ⟨?_, sameLength⟩
    rw [← sameName, Image.entryName, sameLength]

/-- A lookup finds the first slot whose name is the clipped string. -/
theorem readDentryByName_eq (image : Image) {fname : Bytes} (noNul : NoNul fname) :
    readDentryByName image (some fname) =
      (List.range 63).findSome? fun i =>
        if image.entryName i = fname.take 32 then
          some ⟨strncpy (image.dentryFileName i) (min (strlen fname) 32),
            image.dentryFileType i, image.dentryInode i⟩
        else none := by
  unfold readDentryByName
  dsimp only
  congr 1
  funext i
  have tests := lookup_matches_iff image noNul i
  by_cases found : image.entryName i = fname.take 32
  · obtain ⟨sameBytes, sameLength⟩ := tests.mpr found
    rw [if_pos sameBytes, if_neg (not_not.mpr sameLength), if_pos found]
  · rw [if_neg found]
    split_ifs with sameBytes otherLength
    · rfl
    · exact absurd (tests.mp ⟨sameBytes, not_not.mp otherLength⟩) found
    · rfl

/-- The entry at `k` is found under its name when no earlier slot has that name. -/
theorem readDentryByName_entryName (image : Image) {k : Nat} (slot : k < 63)
    (first : ∀ i < k, image.entryName i ≠ image.entryName k) :
    ∃ fileName, readDentryByName image (some (image.entryName k)) =
      some ⟨fileName, image.dentryFileType k, image.dentryInode k⟩ := by
  have whole : (image.entryName k).take 32 = image.entryName k :=
    List.take_of_length_le (image.length_entryName_le k)
  refine ⟨strncpy (image.dentryFileName k) (min (strlen (image.entryName k)) 32), ?_⟩
  rw [readDentryByName_eq image (image.noNul_entryName k), whole]
  have split : List.range 63 =
      List.range k ++ (List.range (63 - k)).map (k + ·) := by
    rw [← List.range_add]
    congr 1
    omega
  have skipped : (List.range k).findSome? (fun i =>
      if image.entryName i = image.entryName k then
        some (⟨strncpy (image.dentryFileName i) (min (strlen (image.entryName k)) 32),
          image.dentryFileType i, image.dentryInode i⟩ : Dentry)
      else none) = none := by
    rw [List.findSome?_eq_none_iff]
    intro i earlier
    rw [if_neg (first i (List.mem_range.mp earlier))]
  have next : 63 - k = 62 - k + 1 := by omega
  rw [split, List.findSome?_append, skipped, next, List.range_succ_eq_map]
  simp

/-- Reading slot `index` gives its name, padded with NULs, its type and its inode. -/
theorem readDentryByIndex_eq (image : Image) {index : Nat} (slot : index < 63) :
    readDentryByIndex image index =
      some ⟨strncpy (image.dentryFileName index) 32, image.dentryFileType index,
        image.dentryInode index⟩ := by
  simp [readDentryByIndex, slot]

/-- The name that `readDentryByIndex` copies is the entry's name. -/
theorem strlen_strncpy_dentryFileName (image : Image) (i : Nat) :
    strlen (strncpy (image.dentryFileName i) 32) = strlen (image.dentryFileName i) := by
  have bound := image.strlen_dentryFileName_le i
  unfold strlen at bound ⊢
  rw [takeWhile_strncpy, List.length_take, min_eq_right bound]

theorem take_strncpy_dentryFileName (image : Image) (i : Nat) :
    (strncpy (image.dentryFileName i) 32).take (strlen (image.dentryFileName i)) =
      image.entryName i := by
  have copied := take_strlen (strncpy (image.dentryFileName i) 32)
  rw [strlen_strncpy_dentryFileName, takeWhile_strncpy] at copied
  rw [copied, Image.entryName, take_strlen, List.take_of_length_le]
  exact image.strlen_dentryFileName_le i

end MonolithicKernel.FileSystem
