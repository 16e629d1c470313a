import MonolithicKernel.FileSystem.ChunkedRead
import MonolithicKernel.FileSystem.Dispatch
import MonolithicKernel.Process.Kernel

/-!
Owns the descriptor table of one process over its whole life, and of the PCB
over the lives of the processes that had it before. The four drivers clean up
differently, and `process_create` keeps the jump tables that it finds; `Disciplined`
is what survives all of this: the terminal stays on 0 and 1 and nowhere else,
every slot in use has a jump table, and a slot with the RTC's is in use.

Does not own what the calls return beyond that, nor the tables of other processes.
-/

namespace MonolithicKernel.Process

open MonolithicKernel.FileSystem
open MonolithicKernel.Foundation
open MonolithicKernel.Lib

/-- The calls of a process on its descriptors, and the ticks in between. -/
inductive DescriptorCall where
  | open (filename : Bytes)
  | close (fd : Int)
  | read (fd : Int) (buf : Nat) (nbytes : Int) (line : TerminalLine)
  | write (fd : Int) (buf : Option Bytes) (nbytes : Int)
  | tick

/-- The table that a call leaves. -/
def serveDescriptors (image : Image) : Step FdTable DescriptorCall
  | fds, .open filename => some (openHandler image fds filename).2
  | fds, .close fd => (closeHandler fds fd).map Prod.snd
  | fds, .read fd buf nbytes line => (readHandler image line fds fd buf nbytes).map ReadResult.fds
  | fds, .write fd buf nbytes => (writeHandler fds fd buf nbytes).map Prod.snd
  | fds, .tick => some (tickCounters fds)

/-- The table in a PCB that no process has, or none any more: zero, or what the
halt of its last process left. -/
inductive LeftTable (image : Image) : FdTable → Prop where
  | zero : LeftTable image fun _ => ⟨none, 0, 0, 0⟩
  | halted {old final left : FdTable} {calls : List DescriptorCall} :
      LeftTable image old →
      Step.run (serveDescriptors image) (newFileDescriptors old) calls = some final →
      closeAll final = some left → LeftTable image left

structure Disciplined (fds : FdTable) : Prop where
  terminal : ∀ slot, slot < 2 →
    (fds slot).fileTablePtr = some .terminal ∧ (fds slot).inode = terminalInode
  dispatchable : Dispatchable fds
  rtc : ∀ slot, (fds slot).fileTablePtr = some .rtc → (fds slot).inode ≠ freeInode
  high : ∀ slot, 2 ≤ slot → (fds slot).fileTablePtr ≠ some .terminal

/-- Directories and regular files name inodes of the image. -/
def EntryInodes (image : Image) : Prop :=
  ∀ i < 63, image.dentryFileType i = 1 ∨ image.dentryFileType i = 2 →
    image.dentryInode i < image.nInodes

theorem EntryInodes.ne_free {image : Image} (inodes : EntryInodes image) {i : Nat} (slot : i < 63)
    (entry : image.dentryFileType i = 1 ∨ image.dentryFileType i = 2) :
    image.dentryInode i ≠ freeInode := by
  have bound := inodes i slot entry
  have count : image.nInodes < 2 ^ 32 := image.word_lt 4
  unfold freeInode
  omega

namespace Disciplined

variable {image : Image} {fds fds' : FdTable} {slot : Fin 8}

/-! ### Tables that agree -/

/-- Only jump tables and inodes count. -/
theorem congr (ok : Disciplined fds)
    (same : ∀ slot, (fds' slot).fileTablePtr = (fds slot).fileTablePtr ∧
      (fds' slot).inode = (fds slot).inode) : Disciplined fds' := by
  constructor
  · intro slot low
    rw [(same slot).1, (same slot).2]
    exact ok.terminal slot low
  · intro slot used
    rw [(same slot).2] at used
    rw [(same slot).1]
    exact ok.dispatchable slot used
  · intro slot pointer
    rw [(same slot).1] at pointer
    rw [(same slot).2]
    exact ok.rtc slot pointer
  · intro slot isHigh
    rw [(same slot).1]
    exact ok.high slot isHigh

/-- A high slot may get any entry that is not the terminal's, is not free with
the RTC's table and is not in use without one. -/
theorem update (ok : Disciplined fds) (isHigh : 2 ≤ slot) {entry : Fd}
    (dispatch : entry.inode ≠ freeInode → ∃ table, entry.fileTablePtr = some table)
    (rtc : entry.fileTablePtr = some .rtc → entry.inode ≠ freeInode)
    (notTerminal : entry.fileTablePtr ≠ some .terminal) :
    Disciplined (Function.update fds slot entry) := by
  constructor
  · intro other low
    rw [Function.update_of_ne (low.trans_le isHigh).ne]
    exact ok.terminal other low
  · exact ok.dispatchable.update dispatch
  · intro other
    by_cases here : other = slot
    · rw [here, Function.update_self]
      exact rtc
    · rw [Function.update_of_ne here]
      exact ok.rtc other
  · intro other otherHigh
    by_cases here : other = slot
    · rw [here, Function.update_self]
      exact notTerminal
    · rw [Function.update_of_ne here]
      exact ok.high other otherHigh

/-! ### Opening -/

/-- A successful open takes the lowest free slot of 2 to 7, puts it in use, at
position 0 for files and directories, and changes no other slot. -/
def TakesLowest (fds fds' : FdTable) (slot : Fin 8) : Prop :=
  2 ≤ slot ∧ (fds slot).inode = freeInode ∧
    (∀ other, 2 ≤ other → other < slot → (fds other).inode ≠ freeInode) ∧
    (fds' slot).inode ≠ freeInode ∧
    ((fds' slot).fileTablePtr = some .directory ∨ (fds' slot).fileTablePtr = some .file →
      (fds' slot).filePos = 0) ∧
    ∀ other, other ≠ slot → fds' other = fds other

theorem «open» (ok : Disciplined fds) (inodes : EntryInodes image) {filename : Bytes}
    (opened : openHandler image fds filename = (some slot, fds')) :
    Disciplined fds' ∧ TakesLowest fds fds' slot := by
  obtain ⟨free, entry, rfl, shape⟩ := openHandler_eq_some opened
  have isHigh := two_le_getFreeFd free
  have filled : entry.inode ≠ freeInode ∧ entry.fileTablePtr ≠ some .terminal ∧
      (∃ table, entry.fileTablePtr = some table) ∧
      (entry.fileTablePtr = some .directory ∨ entry.fileTablePtr = some .file →
        entry.filePos = 0) := by
    rcases shape with rfl | ⟨i, inDirectory, fileType, rfl⟩ | ⟨i, inDirectory, fileType, rfl⟩
    · exact ⟨by decide, by decide, ⟨_, rfl⟩, by simp⟩
    · exact ⟨inodes.ne_free inDirectory (.inl fileType), by simp, ⟨_, rfl⟩, fun _ => rfl⟩
    · exact ⟨inodes.ne_free inDirectory (.inr fileType), by simp, ⟨_, rfl⟩, fun _ => rfl⟩
  obtain ⟨inUse, notTerminal, table, position⟩ := filled
  refine ⟨ok.update isHigh (fun _ => table) (fun _ => inUse) notTerminal, isHigh,
    free_of_getFreeFd free, fun other => used_of_lt_getFreeFd free, ?_, ?_, ?_⟩
  · rwa [Function.update_self]
  · rwa [Function.update_self]
  · exact fun other elsewhere => Function.update_of_ne elsewhere ..

/-! ### Closing -/

/-- The descriptors that can be closed: those in use from 2 to 7. -/
def Closable (fds : FdTable) (fd : Int) (slot : Fin 8) : Prop :=
  2 ≤ slot ∧ fd = slot.val ∧ (fds slot).inode ≠ freeInode

/-- Closing a slot in use of 2 to 7 returns 0 and frees it; the RTC's table goes
with it. Closing anything else returns -1. -/
theorem close_cases (ok : Disciplined fds) (fd : Int) :
    (∃ slot entry, Closable fds fd slot ∧
      closeHandler fds fd = some (0, Function.update fds slot entry) ∧
      entry.inode = freeInode ∧ entry.fileTablePtr ≠ some .rtc ∧
      entry.fileTablePtr ≠ some .terminal) ∨
    (¬ ∃ slot, Closable fds fd slot) ∧ closeHandler fds fd = some (-1, fds) := by
  cases valid : checkValidFd fds fd with
  | none =>
      refine .inr ⟨?_, by rw [closeHandler, valid]⟩
      rintro ⟨slot, -, isSlot, used⟩
      cases valid.symm.trans (checkValidFd_eq_some_iff.mpr ⟨isSlot, used⟩)
  | some slot =>
      obtain ⟨isSlot, used⟩ := checkValidFd_eq_some_iff.mp valid
      obtain ⟨table, pointer⟩ := ok.dispatchable slot used
      have closed : closeHandler fds fd = some (table.close fds fd) := by
        rw [closeHandler, valid]
        simp [pointer]
      rw [closed]
      by_cases isHigh : 2 ≤ slot
      · refine .inl ?_
        cases table with
        | terminal => exact absurd pointer (ok.high slot isHigh)
        | rtc =>
            rw [Jumptable.close, rtcClose, valid]
            exact ⟨slot, _, ⟨isHigh, isSlot, used⟩, rfl, rfl, by decide, by decide⟩
        | directory =>
            rw [Jumptable.close, directoryClose, closeEntry, valid]
            exact ⟨slot, _, ⟨isHigh, isSlot, used⟩, rfl, rfl, by simp [pointer], by simp [pointer]⟩
        | file =>
            rw [Jumptable.close, fileClose, closeEntry, valid]
            exact ⟨slot, _, ⟨isHigh, isSlot, used⟩, rfl, rfl, by simp [pointer], by simp [pointer]⟩
      · refine .inr ⟨?_, ?_⟩
        · rintro ⟨other, otherHigh, isOther, -⟩
          obtain rfl : other = slot := Fin.ext (by omega)
          exact isHigh otherHigh
        · have isTerminal := (ok.terminal slot (not_le.mp isHigh)).1
          cases pointer.symm.trans isTerminal
          rfl

/-- A close returns 0 on a slot in use of 2 to 7 and -1 on everything else; it
frees that slot and changes no other. -/
def ClosesOne (fds fds' : FdTable) (fd ret : Int) : Prop :=
  (ret = 0 ∨ ret = -1 ∧ fds' = fds) ∧ (ret = 0 ↔ ∃ slot, Closable fds fd slot) ∧
    (ret = 0 → ∀ slot : Fin 8,
      (fd = slot.val → (fds' slot).inode = freeInode) ∧ (fd ≠ slot.val → fds' slot = fds slot))

theorem close {fd ret : Int} (ok : Disciplined fds)
    (closed : closeHandler fds fd = some (ret, fds')) :
    Disciplined fds' ∧ ClosesOne fds fds' fd ret := by
  rcases ok.close_cases fd with
    ⟨slot, entry, closable, done, free, notRtc, notTerminal⟩ | ⟨notClosable, done⟩
  · cases done.symm.trans closed
    refine ⟨ok.update closable.1 (fun used => absurd free used) (fun isRtc => absurd isRtc notRtc)
      notTerminal, .inl rfl, iff_of_true rfl ⟨slot, closable⟩, fun _ other => ⟨?_, ?_⟩⟩
    · intro isOther
      obtain rfl : slot = other := Fin.ext (by have := closable.2.1; omega)
      rwa [Function.update_self]
    · intro notOther
      apply Function.update_of_ne
      rintro rfl
      exact notOther closable.2.1
  · cases done.symm.trans closed
    exact ⟨ok, .inr ⟨rfl, rfl⟩, iff_of_false (by decide) notClosable, fun zero => by cases zero⟩

/-! ### Reading, writing and ticks -/

/-- At most the position and the flags of the slot `fd` differ. -/
def AltersOwn (fds fds' : FdTable) (fd : Int) : Prop :=
  ∀ slot : Fin 8, (fds' slot).fileTablePtr = (fds slot).fileTablePtr ∧
    (fds' slot).inode = (fds slot).inode ∧ (fd ≠ slot.val → fds' slot = fds slot)

theorem altersOwn_update {fd : Int} (isSlot : fd = slot.val) (filePos flags : Nat) :
    AltersOwn fds (Function.update fds slot { fds slot with filePos := filePos, flags := flags })
      fd := by
  intro other
  by_cases here : other = slot
  · subst here
    rw [Function.update_self]
    exact ⟨rfl, rfl, fun elsewhere => absurd isSlot elsewhere⟩
  · rw [Function.update_of_ne here]
    exact ⟨rfl, rfl, fun _ => rfl⟩

theorem altersOwn_refl (fds : FdTable) (fd : Int) : AltersOwn fds fds fd :=
  fun _ => ⟨rfl, rfl, fun _ => rfl⟩

theorem altersOwn_read {line : TerminalLine} {fd nbytes : Int} {buf : Nat} {result : ReadResult}
    (read : readHandler image line fds fd buf nbytes = some result) :
    AltersOwn fds result.fds fd := by
  rcases readHandler_fds read with same | ⟨slot, filePos, valid, changed⟩
  · rw [same]
    exact altersOwn_refl fds fd
  · rw [changed]
    exact altersOwn_update (checkValidFd_eq_some_iff.mp valid).1 filePos _

theorem altersOwn_write {fd nbytes ret : Int} {buf : Option Bytes}
    (written : writeHandler fds fd buf nbytes = some (ret, fds')) : AltersOwn fds fds' fd := by
  rcases writeHandler_fds written with rfl | ⟨slot, filePos, flags, valid, rfl⟩
  · exact altersOwn_refl _ fd
  · exact altersOwn_update (checkValidFd_eq_some_iff.mp valid).1 filePos flags

theorem alters (ok : Disciplined fds) {fd : Int} (own : AltersOwn fds fds' fd) :
    Disciplined fds' :=
  ok.congr fun slot => ⟨(own slot).1, (own slot).2.1⟩

theorem tick (ok : Disciplined fds) : Disciplined (tickCounters fds) := by
  apply ok.congr
  intro slot
  unfold tickCounters
  split_ifs
  · exact ⟨rfl, rfl⟩
  · exact ⟨rfl, rfl⟩

/-! ### Runs -/

theorem step {call : DescriptorCall} (ok : Disciplined fds) (inodes : EntryInodes image)
    (served : serveDescriptors image fds call = some fds') : Disciplined fds' := by
  cases call with
  | «open» filename =>
      cases served
      rcases opened : openHandler image fds filename with ⟨none | slot, fds'⟩
      · rw [openHandler_failed opened]
        exact ok
      · exact (ok.open inodes opened).1
  | close fd =>
      obtain ⟨⟨ret, table⟩, closed, rfl⟩ := Option.map_eq_some_iff.mp served
      exact (ok.close closed).1
  | read fd buf nbytes line =>
      obtain ⟨result, read, rfl⟩ := Option.map_eq_some_iff.mp served
      exact ok.alters (altersOwn_read read)
  | write fd buf nbytes =>
      obtain ⟨⟨ret, table⟩, written, rfl⟩ := Option.map_eq_some_iff.mp served
      exact ok.alters (altersOwn_write written)
  | tick =>
      cases served
      exact ok.tick

theorem run {calls : List DescriptorCall} (ok : Disciplined fds) (inodes : EntryInodes image)
    (ran : Step.run (serveDescriptors image) fds calls = some fds') : Disciplined fds' :=
  Step.invariant_of_any_run (fun _ _ _ ok served => ok.step inodes served) ok ran

/-! ### Halting -/

/-- One round of the closing loop frees its slot and frees no other one again. -/
theorem closeRound (ok : Disciplined fds) (isHigh : 2 ≤ slot)
    (closed : closeRound fds slot = some fds') :
    Disciplined fds' ∧ (fds' slot).inode = freeInode ∧
      ∀ other, (fds other).inode = freeInode → (fds' other).inode = freeInode := by
  unfold Process.closeRound at closed
  split_ifs at closed with free
  · cases closed
    exact ⟨ok, free, fun _ => id⟩
  · obtain ⟨table, pointer, rfl⟩ := Option.map_eq_some_iff.mp closed
    have handled : closeHandler fds slot.val = some (table.close fds slot.val) := by
      rw [closeHandler, checkValidFd_eq_some_iff.mpr ⟨rfl, free⟩]
      simp [pointer]
    generalize table.close fds slot.val = result at handled ⊢
    obtain ⟨closedOk, -, zero, freed⟩ := ok.close handled
    have freed := freed (zero.mpr ⟨slot, isHigh, rfl, free⟩)
    refine ⟨closedOk, (freed slot).1 rfl, fun other otherFree => ?_⟩
    by_cases here : other = slot
    · rw [here]
      exact (freed slot).1 rfl
    · rw [(freed other).2 fun same => here (Fin.ext (by omega))]
      exact otherFree

theorem closeSlots (slots : List (Fin 8)) : ∀ {fds : FdTable}, Disciplined fds →
    (∀ slot ∈ slots, 2 ≤ slot) → slots.foldlM Process.closeRound fds = some fds' →
    Disciplined fds' ∧ (∀ slot ∈ slots, (fds' slot).inode = freeInode) ∧
      ∀ other, (fds other).inode = freeInode → (fds' other).inode = freeInode := by
  induction slots with
  | nil =>
      intro fds ok _ closed
      cases closed
      exact ⟨ok, by simp, fun _ => id⟩
  | cons slot slots inductionHypothesis =>
      intro fds ok high closed
      rw [List.foldlM_cons] at closed
      obtain ⟨middle, first, rest⟩ := Option.bind_eq_some_iff.mp closed
      obtain ⟨middleOk, freed, kept⟩ := ok.closeRound (high slot List.mem_cons_self) first
      obtain ⟨finalOk, others, keptAgain⟩ := inductionHypothesis middleOk
        (fun other member => high other (List.mem_cons_of_mem _ member)) rest
      refine ⟨finalOk, ?_, fun other free => keptAgain other (kept other free)⟩
      intro other member
      rcases List.mem_cons.mp member with rfl | later
      · exact keptAgain other freed
      · exact others other later

/-- What a halt leaves in the slots from 2 on has neither the terminal's table
nor the RTC's. -/
theorem closeAll {left : FdTable} (ok : Disciplined fds) (closed : closeAll fds = some left)
    (slot : Fin 8) (isHigh : 2 ≤ slot) :
    (left slot).fileTablePtr ≠ some .terminal ∧ (left slot).fileTablePtr ≠ some .rtc := by
  obtain ⟨leftOk, freed, -⟩ := closeSlots _ ok (fun slot => (mem_openSlots slot).mp) closed
  exact ⟨leftOk.high slot isHigh, fun isRtc =>
    leftOk.rtc slot isRtc (freed slot ((mem_openSlots slot).mpr isHigh))⟩

/-- `process_create` sets up a disciplined table in such a PCB. -/
theorem newFileDescriptors {old : FdTable}
    (left : ∀ slot, 2 ≤ slot →
      (old slot).fileTablePtr ≠ some .terminal ∧ (old slot).fileTablePtr ≠ some .rtc) :
    Disciplined (newFileDescriptors old) := by
  have low : ∀ slot : Fin 8, slot < 2 ↔ slot = 0 ∨ slot = 1 := by decide
  constructor
  · intro slot isLow
    rw [Process.newFileDescriptors, if_pos ((low slot).mp isLow)]
    exact ⟨rfl, rfl⟩
  · intro slot used
    rw [Process.newFileDescriptors] at used ⊢
    split_ifs at used ⊢
    · exact ⟨.terminal, rfl⟩
    · exact absurd rfl used
  · intro slot isRtc
    rw [Process.newFileDescriptors] at isRtc ⊢
    split_ifs at isRtc ⊢ with isLow
    · cases isRtc
    · exact absurd isRtc (left slot (not_lt.mp fun isLow' => isLow ((low slot).mp isLow'))).2
  · intro slot isHigh
    rw [Process.newFileDescriptors, if_neg fun isLow => absurd isHigh
      (not_le.mpr ((low slot).mpr isLow))]
    exact (left slot isHigh).1

end Disciplined

/-- The table of a new process is disciplined, whoever had its PCB before. -/
theorem LeftTable.disciplined {image : Image} (inodes : EntryInodes image) {old : FdTable}
    (left : LeftTable image old) : Disciplined (newFileDescriptors old) := by
  induction left with
  | zero => exact Disciplined.newFileDescriptors fun _ _ => by decide
  | halted _ ran closed inductionHypothesis =>
      exact Disciplined.newFileDescriptors
        ((inductionHypothesis.run inodes ran).closeAll closed)

end MonolithicKernel.Process
