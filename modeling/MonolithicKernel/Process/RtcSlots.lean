import MonolithicKernel.Process.Kernel

/-!
Owns the RTC slots of one descriptor table: the frequencies that `rtc_write`
accepts, and a record of the last accepted one of each descriptor. The reload
value in `flags` is the period of the recorded frequency, and every call of the
four drivers keeps it so.

Does not own the counters, which ticks bring down.
-/

namespace MonolithicKernel.Process

open MonolithicKernel.FileSystem
open MonolithicKernel.Lib

/-- 2, 4, 8 up to 1024. -/
def Accepted (freq : Nat) : Prop := freq.isPowerOfTwo ∧ 2 ≤ freq ∧ freq ≤ 1024

/-- The test of `rtc_write`. -/
theorem accepted_iff {freq : Nat} :
    Accepted freq ↔ ¬ (freq &&& (freq - 1) ≠ 0 ∨ freq < 2 ∨ freq > 1024) := by
  unfold Accepted
  by_cases low : freq < 2
  · constructor
    · omega
    · exact fun passes => absurd (.inr (.inl low)) passes
  · rw [← Nat.and_sub_one_eq_zero_iff_isPowerOfTwo (by omega)]
    simp only [not_or, not_not, not_lt, gt_iff_lt]

/-- A write with an accepted frequency sets counter and reload value; any other
one fails and changes nothing. -/
theorem rtcWrite_cases (fds : FdTable) (slot : Fin 8) (buf : Option Bytes) (nbytes : Int) :
    ((nbytes = 4 ∧ ∃ bytes, buf = some bytes ∧ Accepted (wordOfBytes bytes)) ∧
        rtcWrite fds slot buf nbytes = (4, Function.update fds slot
          { fds slot with
            filePos := 1024 / wordOfBytes (buf.getD [])
            flags := 1024 / wordOfBytes (buf.getD []) })) ∨
      ((¬ (nbytes = 4 ∧ ∃ bytes, buf = some bytes ∧ Accepted (wordOfBytes bytes))) ∧
        rtcWrite fds slot buf nbytes = (-1, fds)) := by
  cases buf with
  | none =>
      right
      refine ⟨?_, rfl⟩
      rintro ⟨-, _, impossible, -⟩
      cases impossible
  | some bytes =>
      unfold rtcWrite
      dsimp only
      by_cases four : nbytes = 4
      · rw [if_neg (not_not.mpr four)]
        by_cases accepted : Accepted (wordOfBytes bytes)
        · rw [if_neg (accepted_iff.mp accepted), four]
          exact .inl ⟨⟨rfl, bytes, rfl, accepted⟩, rfl⟩
        · have refused := not_not.mp (mt accepted_iff.mpr accepted)
          rw [if_pos refused]
          refine .inr ⟨?_, rfl⟩
          rintro ⟨-, _, same, isAccepted⟩
          cases same
          exact accepted isAccepted
      · rw [if_pos four]
        exact .inr ⟨fun both => four both.1, rfl⟩

/-! ### The record -/

/-- A successful open of an RTC descriptor sets 2 Hz. Descriptors of the other
drivers get a number that nothing reads. -/
def recordOpen (frequency : Int → Nat) (ret : Int) : Int → Nat :=
  if ret = -1 then frequency else Function.update frequency ret 2

/-- A write that does not fail sets its frequency. -/
def recordWrite (frequency : Int → Nat) (fd : Int) (buf : Option Bytes) (ret : Int) : Int → Nat :=
  if ret = -1 then frequency
  else Function.update frequency fd (wordOfBytes (buf.getD []))

/-- Every RTC descriptor is one of 2 to 7, and reloads the period of its recorded
frequency. -/
def RtcOk (frequency : Int → Nat) (fds : FdTable) : Prop :=
  ∀ slot : Fin 8, (fds slot).inode ≠ freeInode → (fds slot).fileTablePtr = some .rtc →
    2 ≤ slot ∧ Accepted (frequency slot.val) ∧ (fds slot).flags = 1024 / frequency slot.val

namespace RtcOk

variable {frequency : Int → Nat} {fds fds' : FdTable}

/-- A new process has no RTC descriptor. -/
theorem newFileDescriptors (frequency : Int → Nat) (old : FdTable) :
    RtcOk frequency (newFileDescriptors old) := by
  intro slot used isRtc
  unfold Process.newFileDescriptors at used isRtc
  split_ifs at used isRtc
  · cases isRtc
  · exact absurd rfl used

/-- Counters do not count. -/
theorem congr (ok : RtcOk frequency fds)
    (same : ∀ slot, (fds' slot).inode = (fds slot).inode ∧
      (fds' slot).fileTablePtr = (fds slot).fileTablePtr ∧ (fds' slot).flags = (fds slot).flags) :
    RtcOk frequency fds' := by
  intro slot used isRtc
  rw [(same slot).1] at used
  rw [(same slot).2.1] at isRtc
  rw [(same slot).2.2]
  exact ok slot used isRtc

/-- One slot gets an entry and one descriptor a recorded number. -/
theorem update (ok : RtcOk frequency fds) (slot : Fin 8) (entry : Fd) (recorded : Nat)
    (here : entry.inode ≠ freeInode → entry.fileTablePtr = some .rtc →
      2 ≤ slot ∧ Accepted recorded ∧ entry.flags = 1024 / recorded) :
    RtcOk (Function.update frequency slot.val recorded) (Function.update fds slot entry) := by
  intro other used isRtc
  by_cases same : other = slot
  · subst same
    rw [Function.update_self] at used isRtc ⊢
    rw [Function.update_self]
    exact here used isRtc
  · have differ : (other.val : Int) ≠ slot.val := by
      intro sameVal
      exact same (Fin.ext (by omega))
    rw [Function.update_of_ne same] at used isRtc ⊢
    rw [Function.update_of_ne differ]
    exact ok other used isRtc

/-- What is recorded for a descriptor of another driver does not count. -/
theorem record (ok : RtcOk frequency fds) {fd : Int} (recorded : Nat)
    (notRtc : ∀ slot : Fin 8, fd = slot.val → (fds slot).fileTablePtr ≠ some .rtc) :
    RtcOk (Function.update frequency fd recorded) fds := by
  intro slot used isRtc
  have differ : (slot.val : Int) ≠ fd := fun same => notRtc slot same.symm isRtc
  rw [Function.update_of_ne differ]
  exact ok slot used isRtc

/-! ### The drivers -/

theorem tick (ok : RtcOk frequency fds) : RtcOk frequency (tickCounters fds) := by
  apply ok.congr
  intro slot
  unfold tickCounters
  split_ifs
  · exact ⟨rfl, rfl, rfl⟩
  · exact ⟨rfl, rfl, rfl⟩

theorem «open» {image : Image} {filename : Bytes} {result : Option (Fin 8)}
    (ok : RtcOk frequency fds) (opened : openHandler image fds filename = (result, fds')) :
    RtcOk (recordOpen frequency (openReturn result)) fds' := by
  cases result with
  | none =>
      rw [openHandler_failed opened, openReturn, recordOpen, if_pos rfl]
      exact ok
  | some slot =>
      rcases openHandler_eq_some opened with ⟨free, entry, rfl, shape⟩
      have isHigh := two_le_getFreeFd free
      rw [openReturn, recordOpen, if_neg (by omega)]
      apply ok.update
      intro used isRtc
      rcases shape with rfl | ⟨i, -, -, rfl⟩ | ⟨i, -, -, rfl⟩
      · exact ⟨isHigh, ⟨⟨1, rfl⟩, by decide, by decide⟩, rfl⟩
      · cases isRtc
      · cases isRtc

theorem close {fd ret : Int} (ok : RtcOk frequency fds)
    (closed : closeHandler fds fd = some (ret, fds')) : RtcOk frequency fds' := by
  rcases closeHandler_eq_some closed with rfl | ⟨slot, entry, -, free, rfl⟩
  · exact ok
  · have closedOk := ok.update slot entry (frequency slot.val)
      fun used => absurd free used
    rwa [Function.update_eq_self] at closedOk

theorem read {image : Image} {line : TerminalLine} {fd nbytes : Int} {buf : Nat}
    {result : ReadResult} (ok : RtcOk frequency fds)
    (done : readHandler image line fds fd buf nbytes = some result) :
    RtcOk frequency result.fds := by
  rcases readHandler_fds done with same | ⟨slot, filePos, -, changed⟩
  · rwa [same]
  · have moved := ok.update slot { fds slot with filePos := filePos } (frequency slot.val)
      fun used isRtc => ok slot used isRtc
    rw [changed]
    rwa [Function.update_eq_self] at moved

theorem write {fd nbytes ret : Int} {buf : Option Bytes} (ok : RtcOk frequency fds)
    (written : writeHandler fds fd buf nbytes = some (ret, fds')) :
    RtcOk (recordWrite frequency fd buf ret) fds' := by
  rw [writeHandler] at written
  cases valid : checkValidFd fds fd with
  | none =>
      rw [valid] at written
      cases written
      exact ok
  | some slot =>
      rw [valid] at written
      rcases checkValidFd_eq_some_iff.mp valid with ⟨rfl, used⟩
      rcases Option.bind_eq_some_iff.mp written with ⟨table, pointer, written⟩
      cases table with
      | directory =>
          cases written
          exact ok
      | file =>
          cases written
          exact ok
      | terminal =>
          rcases Option.map_eq_some_iff.mp written with ⟨ret', -, same⟩
          cases same
          unfold recordWrite
          split_ifs
          · exact ok
          · apply ok.record
            intro other same isRtc
            have sameSlot : slot = other := Fin.ext (by omega)
            rw [← sameSlot, pointer] at isRtc
            cases isRtc
      | rtc =>
          dsimp only at written
          rcases rtcWrite_cases fds slot buf nbytes with
            ⟨⟨-, bytes, rfl, accepted⟩, result⟩ | ⟨-, result⟩
          · rw [result] at written
            cases written
            rw [recordWrite, if_neg (by decide)]
            exact ok.update slot _ _ fun _ _ => ⟨(ok slot used pointer).1, accepted, rfl⟩
          · rw [result] at written
            cases written
            exact ok

end RtcOk

end MonolithicKernel.Process
