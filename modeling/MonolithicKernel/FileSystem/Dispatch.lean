import MonolithicKernel.FileSystem.Descriptors

/-!
Owns the fact that dispatch through a descriptor table never meets a null jump
table: every slot in use has one, and no call of the four drivers changes that.

Does not own null buffers, which can still fault in a write.
-/

namespace MonolithicKernel.FileSystem

/-- Every slot in use has a jump table. -/
def Dispatchable (fds : FdTable) : Prop :=
  ∀ slot, (fds slot).inode ≠ freeInode → ∃ table, (fds slot).fileTablePtr = some table

namespace Dispatchable

variable {fds fds' : FdTable}

theorem update (dispatchable : Dispatchable fds) {slot : Fin 8} {entry : Fd}
    (here : entry.inode ≠ freeInode → ∃ table, entry.fileTablePtr = some table) :
    Dispatchable (Function.update fds slot entry) := by
  intro other used
  by_cases same : other = slot
  · subst same
    rw [Function.update_self] at used ⊢
    exact here used
  · rw [Function.update_of_ne same] at used ⊢
    exact dispatchable other used

/-- A valid descriptor has a jump table. -/
theorem table_of_valid (dispatchable : Dispatchable fds) {fd : Int} {slot : Fin 8}
    (valid : checkValidFd fds fd = some slot) : ∃ table, (fds slot).fileTablePtr = some table :=
  dispatchable slot (checkValidFd_eq_some_iff.mp valid).2

/-! ### Calls keep it -/

theorem «open» {image : Image} {filename : Lib.Bytes} {result : Option (Fin 8)}
    (dispatchable : Dispatchable fds) (opened : openHandler image fds filename = (result, fds')) :
    Dispatchable fds' := by
  cases result with
  | none =>
      rw [openHandler_failed opened]
      exact dispatchable
  | some slot =>
      obtain ⟨-, entry, rfl, shape⟩ := openHandler_eq_some opened
      apply dispatchable.update
      rcases shape with rfl | ⟨i, -, -, rfl⟩ | ⟨i, -, -, rfl⟩
      · exact fun _ => ⟨.rtc, rfl⟩
      · exact fun _ => ⟨.directory, rfl⟩
      · exact fun _ => ⟨.file, rfl⟩

theorem close {fd ret : Int} (dispatchable : Dispatchable fds)
    (closed : closeHandler fds fd = some (ret, fds')) : Dispatchable fds' := by
  rcases closeHandler_eq_some closed with rfl | ⟨slot, entry, -, free, rfl⟩
  · exact dispatchable
  · apply dispatchable.update
    exact fun used => absurd free used

/-- Moving positions and setting flags keeps every jump table. -/
theorem setPosition (dispatchable : Dispatchable fds) (slot : Fin 8) (filePos flags : Nat) :
    Dispatchable (Function.update fds slot
      { fds slot with filePos := filePos, flags := flags }) := by
  apply dispatchable.update
  exact dispatchable slot

theorem read {image : Image} {line : TerminalLine} {fd nbytes : Int} {buf : Nat}
    {result : ReadResult} (dispatchable : Dispatchable fds)
    (done : readHandler image line fds fd buf nbytes = some result) : Dispatchable result.fds := by
  rcases readHandler_fds done with same | ⟨slot, filePos, -, changed⟩
  · rw [same]
    exact dispatchable
  · rw [changed]
    exact dispatchable.setPosition slot filePos _

theorem write {fd nbytes ret : Int} {buf : Option Lib.Bytes} (dispatchable : Dispatchable fds)
    (done : writeHandler fds fd buf nbytes = some (ret, fds')) : Dispatchable fds' := by
  rcases writeHandler_fds done with rfl | ⟨slot, filePos, flags, -, rfl⟩
  · exact dispatchable
  · exact dispatchable.setPosition slot filePos flags

/-! ### Closing and reading always come back -/

theorem exists_close (dispatchable : Dispatchable fds) (fd : Int) :
    ∃ ret fds', closeHandler fds fd = some (ret, fds') := by
  rw [closeHandler]
  cases valid : checkValidFd fds fd with
  | none => exact ⟨_, _, rfl⟩
  | some slot =>
      obtain ⟨table, pointer⟩ := dispatchable.table_of_valid valid
      dsimp only
      rw [pointer]
      exact ⟨_, _, rfl⟩

theorem exists_read (dispatchable : Dispatchable fds) (image : Image) (line : TerminalLine)
    (fd : Int) (buf : Nat) (nbytes : Int) :
    ∃ result, readHandler image line fds fd buf nbytes = some result := by
  rw [readHandler]
  cases valid : checkValidFd fds fd with
  | none => exact ⟨_, rfl⟩
  | some slot =>
      obtain ⟨table, pointer⟩ := dispatchable.table_of_valid valid
      dsimp only
      rw [pointer]
      exact ⟨_, rfl⟩

end Dispatchable

end MonolithicKernel.FileSystem
