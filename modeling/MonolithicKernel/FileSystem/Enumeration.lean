import MonolithicKernel.FileSystem.RoundTrip

/-!
Owns the successive `directory_read` calls on one freshly opened descriptor. The
end of the directory shows as the empty name of a zero slot, but the position
moves on behind it, and the 64th call asks for a slot that is not there.

Does not own reads with less room than a whole name.
-/

namespace MonolithicKernel.FileSystem

open MonolithicKernel.Lib

/-- `n` calls of `directory_read(fd, buf, 32)` in a row. -/
def directoryReads (image : Image) (fd : Int) (buf : Nat) : Nat → FdTable → List ReadResult
  | 0, _ => []
  | n + 1, fds =>
      let result := directoryRead image fds fd buf 32
      result :: directoryReads image fd buf n result.fds

/-- The entries in use have names, and the slots behind them are zero. -/
structure NamedEntries (image : Image) : Prop where
  slots : image.nDirEntries ≤ 63
  named : ∀ k < image.nDirEntries, image.entryName k ≠ []
  zero : ∀ k, image.nDirEntries ≤ k → k < 63 → image.slice (Image.dentryAt k) 64 = .replicate 64 0

/-- What call number `k` should return and store: the name of entry `k`, and
nothing behind the last one. -/
def listedAt (image : Image) (k : Nat) : Int × Bytes :=
  if k < image.nDirEntries then ((image.entryName k).length, image.entryName k) else (0, [])

/-- The first `n` calls list the directory and then keep returning 0. -/
def Enumerates (image : Image) (fds : FdTable) (fd : Int) (buf n : Nat) : Prop :=
  ∀ k < n, ((directoryReads image fd buf n fds)[k]?).map
    (fun result => (result.ret, result.stored)) = some (listedAt image k)

section Reads

variable {image : Image} {fds : FdTable} {fd : Int} {slot : Fin 8} {buf k : Nat}

/-- A call inside the 63 slots. -/
theorem directoryRead_inside (valid : checkValidFd fds fd = some slot)
    (position : (fds slot).filePos = k) (inDirectory : k < 63) (nonNull : buf ≠ 0) :
    directoryRead image fds fd buf 32 =
      ⟨(image.entryName k).length, image.entryName k,
        Function.update fds slot { fds slot with filePos := k + 1 }⟩ := by
  have stored : (directoryRead image fds fd buf 32).stored = image.entryName k :=
    stored_directoryRead valid position inDirectory nonNull le_rfl
  have short := image.strlen_dentryFileName_le k
  unfold directoryRead at stored ⊢
  rw [valid] at stored ⊢
  dsimp only at stored ⊢
  rw [position, readDentryByIndex_eq image inDirectory] at stored ⊢
  dsimp only at stored ⊢
  rw [if_neg (by simp [nonNull]), if_neg (by omega)] at stored ⊢
  rw [strlen_strncpy_dentryFileName] at stored ⊢
  rw [ReadResult.mk.injEq]
  refine ⟨?_, stored, ?_⟩
  · rw [Image.length_entryName]
    split_ifs <;> omega
  · congr 2
    omega

/-- A call behind them. -/
theorem directoryRead_past (valid : checkValidFd fds fd = some slot)
    (position : (fds slot).filePos = k) (past : 63 ≤ k) :
    directoryRead image fds fd buf 32 = ⟨-1, [], fds⟩ := by
  rw [directoryRead, valid]
  dsimp only
  rw [position, readDentryByIndex, if_pos past]

/-- Call number `j` of a run of calls that starts at position `k`. -/
theorem getElem?_directoryReads (nonNull : buf ≠ 0) (n : Nat) :
    ∀ {fds : FdTable} {k j : Nat}, checkValidFd fds fd = some slot → (fds slot).filePos = k →
      j < n →
      ((directoryReads image fd buf n fds)[j]?).map (fun result => (result.ret, result.stored)) =
        some (if min k 63 + j < 63 then (((image.entryName (k + j)).length : Int),
          image.entryName (k + j)) else (-1, [])) := by
  induction n with
  | zero =>
      intro fds k j valid position impossible
      cases impossible
  | succ n inductionHypothesis =>
      intro fds k j valid position inRun
      rw [directoryReads]
      by_cases inDirectory : k < 63
      · rw [directoryRead_inside valid position inDirectory nonNull]
        have used := (checkValidFd_eq_some_iff.mp valid)
        cases j with
        | zero => simp [inDirectory, min_eq_left inDirectory.le]
        | succ j =>
            have still : checkValidFd (Function.update fds slot { fds slot with filePos := k + 1 })
                fd = some slot := by
              rw [checkValidFd_eq_some_iff, Function.update_self]
              exact used
            have later := inductionHypothesis (j := j) still (k := k + 1) (by simp) (by omega)
            rw [List.getElem?_cons_succ, later]
            have shifted : k + 1 + j = k + (j + 1) := by omega
            have inside : min (k + 1) 63 + j < 63 ↔ min k 63 + (j + 1) < 63 := by omega
            simp only [shifted, inside]
      · rw [directoryRead_past valid position (not_lt.mp inDirectory)]
        cases j with
        | zero => simp [not_lt.mp inDirectory]
        | succ j =>
            have later := inductionHypothesis (j := j) valid position (by omega)
            rw [List.getElem?_cons_succ, later]
            rw [if_neg (by omega), if_neg (by omega)]

/-- A zero slot has no name. -/
theorem NamedEntries.entryName_zero (entries : NamedEntries image)
    (unused : image.nDirEntries ≤ k) (inDirectory : k < 63) : image.entryName k = [] := by
  have first : (image.slice (Image.dentryAt k) 64)[0]? = (List.replicate 64 (0 : UInt8))[0]? := by
    rw [entries.zero k unused inDirectory]
  have nul : image.load (Image.dentryAt k) = 0 := by simpa [Image.slice] using first
  have none_left : strlen (image.dentryFileName k) = 0 := by
    simp [strlen, Image.dentryFileName, Image.slice, List.range_succ_eq_map, nul]
  rw [Image.entryName, none_left, List.take_zero]

theorem NamedEntries.listedAt_eq (entries : NamedEntries image) (inDirectory : k < 63) :
    listedAt image k = (((image.entryName k).length : Int), image.entryName k) := by
  unfold listedAt
  split_ifs with inUse
  · rfl
  · rw [entries.entryName_zero (not_lt.mp inUse) inDirectory]
    rfl

/-- What is listed is never -1. -/
theorem listedAt_ne (image : Image) (k : Nat) : listedAt image k ≠ (-1, []) := by
  unfold listedAt
  split_ifs
  · intro same
    have negative := congrArg Prod.fst same
    simp only at negative
    omega
  · decide

end Reads

/-- `directory_open` takes a slot and puts it at the start of the directory. -/
theorem directoryOpen_eq_some {image : Image} {fds fds' : FdTable} {filename : Bytes}
    {slot : Fin 8} (opened : directoryOpen image fds filename = (some slot, fds')) :
    ∃ i < 63, fds' = Function.update fds slot ⟨some .directory, image.dentryInode i, 0, 0⟩ := by
  rcases openEntry_eq_some opened with ⟨-, i, inDirectory, -, changed⟩
  exact ⟨i, inDirectory, changed⟩

/-- **Enumeration, exactly.** On a freshly opened directory the first `n` calls
list the entries in order and then return 0 if and only if they are at most 63
and the inode of the directory is not -1, or no call is made. -/
theorem enumerates_iff {image : Image} (entries : NamedEntries image) {before fds : FdTable}
    {filename : Bytes} {slot : Fin 8} {buf n : Nat}
    (opened : directoryOpen image before filename = (some slot, fds)) (nonNull : buf ≠ 0) :
    Enumerates image fds slot.val buf n ↔
      n = 0 ∨ n ≤ 63 ∧ (fds slot).inode ≠ freeInode := by
  rcases directoryOpen_eq_some opened with ⟨i, -, rfl⟩
  by_cases noCall : n = 0
  · subst noCall
    refine iff_of_true (fun k impossible => ?_) (.inl rfl)
    cases impossible
  rw [or_iff_right noCall]
  have positive : 0 < n := Nat.pos_of_ne_zero noCall
  have position : (Function.update before slot
      (⟨some .directory, image.dentryInode i, 0, 0⟩ : Fd) slot).filePos = 0 := by
    rw [Function.update_self]
  by_cases used : (Function.update before slot
      (⟨some .directory, image.dentryInode i, 0, 0⟩ : Fd) slot).inode = freeInode
  · -- The first call already finds no descriptor.
    refine iff_of_false (fun enumerates => ?_) fun both => both.2 used
    have invalid : checkValidFd (Function.update before slot
        (⟨some .directory, image.dentryInode i, 0, 0⟩ : Fd)) slot.val = none := by
      cases valid : checkValidFd _ _ with
      | none => rfl
      | some other =>
          rcases checkValidFd_eq_some_iff.mp valid with ⟨same, notFree⟩
          obtain rfl : slot = other := Fin.ext (by omega)
          exact absurd used notFree
    have first := enumerates 0 positive
    obtain ⟨m, rfl⟩ : ∃ m, n = m + 1 := ⟨n - 1, by omega⟩
    rw [directoryReads, directoryRead, invalid] at first
    exact listedAt_ne image 0 (Option.some.inj first).symm
  · have valid := checkValidFd_eq_some_iff.mpr ⟨rfl, used⟩
    constructor
    · intro enumerates
      refine ⟨not_lt.mp fun long => ?_, used⟩
      have last := enumerates 63 long
      rw [getElem?_directoryReads nonNull n valid position long, if_neg (by omega)] at last
      exact listedAt_ne image 63 (Option.some.inj last).symm
    · rintro ⟨short, -⟩ k inRun
      rw [getElem?_directoryReads nonNull n valid position inRun, if_pos (by omega),
        Nat.zero_add, entries.listedAt_eq (by omega)]

theorem threeEntryImage_namedEntries : NamedEntries threeEntryImage := by
  have count : threeEntryImage.nDirEntries = 3 := by decide
  have zero : ∀ k < 60, threeEntryImage.slice (Image.dentryAt (k + 3)) 64 = .replicate 64 0 := by
    decide +kernel
  refine ⟨by omega, threeEntryImage_distinctNames.nonempty, fun k unused inDirectory => ?_⟩
  have shifted := zero (k - 3) (by omega)
  rwa [Nat.sub_add_cancel (by omega)] at shifted

/-- A process with free descriptors opens the directory on 2. -/
theorem directoryOpen_threeEntryImage :
    directoryOpen threeEntryImage (fun _ => ⟨none, freeInode, 0, 0⟩) dotName =
      (some 2, Function.update (fun _ => ⟨none, freeInode, 0, 0⟩) 2 ⟨some .directory, 0, 0, 0⟩) := by
  rfl

theorem enumerates_threeEntryImage :
    Enumerates threeEntryImage
      (Function.update (fun _ => ⟨none, freeInode, 0, 0⟩) 2 ⟨some .directory, 0, 0, 0⟩)
      (2 : Fin 8).val 1 63 :=
  (enumerates_iff threeEntryImage_namedEntries directoryOpen_threeEntryImage (by decide)).mpr
    (.inr ⟨le_rfl, by decide⟩)

/-- The 64th call returns -1. -/
theorem not_forall_enumerates :
    ¬ ∀ image, NamedEntries image → ∀ before filename slot fds,
      directoryOpen image before filename = (some slot, fds) →
      ∀ n, Enumerates image fds slot.val 1 n := by
  intro all
  have enumerates := all threeEntryImage threeEntryImage_namedEntries _ _ _ _ directoryOpen_threeEntryImage 64
  have last := enumerates 63 (by decide)
  have valid : checkValidFd
      (Function.update (fun _ => ⟨none, freeInode, 0, 0⟩) 2 ⟨some .directory, 0, 0, 0⟩)
      (2 : Fin 8).val = some 2 := by
    decide
  rw [getElem?_directoryReads (by decide) 64 valid (show _ = 0 by decide) (by decide),
    if_neg (by decide)] at last
  exact listedAt_ne threeEntryImage 63 (Option.some.inj last).symm

end MonolithicKernel.FileSystem
