import MonolithicKernel.Process.Loading
import MonolithicKernel.Process.TableRuns

/-!
Owns the failures of `execute`: the checks of `process_create` that can fail, the
fact that no other way leads to -1, and the fact that a failed call has changed
nothing. The -1 of `process_create` reaches `process_start` as a `uint8_t`, where
it is 255 and no pid.

Does not own what a caller sees of a program that has run.
-/

namespace MonolithicKernel.Process

open MonolithicKernel.FileSystem
open MonolithicKernel.Foundation
open MonolithicKernel.Lib

/-! ### The checks -/

/-- Why a command is not started. -/
inductive Refused (image : Image) (kernel : Kernel) (name : Bytes) : Prop where
  | notFound (unnamed : readDentryByName image (some name) = none)
  | notRegular (dentry : Dentry) (named : readDentryByName image (some name) = some dentry)
      (otherType : dentry.fileType ≠ 2)
  | tooShort (dentry : Dentry) (named : readDentryByName image (some name) = some dentry)
      (short : (readData image dentry.inode 0 4).length < 4)
  | noMagic (dentry : Dentry) (named : readDentryByName image (some name) = some dentry)
      (otherBytes : readData image dentry.inode 0 4 ≠ elfMagic)
  | noFreePid (inUse : ∀ pid, kernel.activePids pid ≠ .unused)

section Checks

variable {image : Image} {kernel kernel' : Kernel} {command staleArgs : Bytes}

theorem getFreePid_eq_none_iff :
    kernel.getFreePid = none ↔ ∀ pid, kernel.activePids pid ≠ .unused := by
  simp [Kernel.getFreePid]

/-- The checks of `process_create` fail in one of the five ways. -/
theorem refused_iff {name : Bytes} :
    Refused image kernel name ↔ findExecutable image name = none ∨ kernel.getFreePid = none := by
  constructor
  · intro refused
    by_cases found : findExecutable image name = none
    · exact .inl found
    · rcases Option.ne_none_iff_exists'.mp found with ⟨inode, found⟩
      rcases findExecutable_eq_some_iff.mp found with ⟨dentry, named, regular, magic, -⟩
      cases refused with
      | notFound unnamed => cases unnamed.symm.trans named
      | notRegular other otherNamed otherType =>
          cases otherNamed.symm.trans named
          exact absurd regular otherType
      | tooShort other otherNamed short =>
          cases otherNamed.symm.trans named
          rw [magic] at short
          exact absurd short (by decide)
      | noMagic other otherNamed otherBytes =>
          cases otherNamed.symm.trans named
          exact absurd magic otherBytes
      | noFreePid inUse => exact .inr (getFreePid_eq_none_iff.mpr inUse)
  · rintro (notFound | inUse)
    · cases lookedUp : readDentryByName image (some name) with
      | none => exact .notFound lookedUp
      | some dentry =>
          by_cases regular : dentry.fileType = 2
          · refine .noMagic dentry lookedUp fun magic => ?_
            have found := findExecutable_eq_some_iff.mpr ⟨dentry, lookedUp, regular, magic, rfl⟩
            cases notFound.symm.trans found
          · exact .notRegular dentry lookedUp regular
    · exact .noFreePid (getFreePid_eq_none_iff.mp inUse)

theorem processCreate_failed_iff {terminal : Terminal} {hasParent : Bool} :
    processCreate image command staleArgs terminal hasParent kernel = some (none, kernel') ↔
      Refused image kernel (scanCommand staleArgs 32 command).1 ∧ kernel' = kernel := by
  rw [refused_iff]
  unfold processCreate
  dsimp only
  cases findExecutable image (scanCommand staleArgs 32 command).1 with
  | none => simp [eq_comm]
  | some inode =>
      cases kernel.getFreePid with
      | none => simp [eq_comm]
      | some pid => simp

/-- `execute` returns to its caller exactly when it is refused, and then with -1
and without a change. -/
theorem executeHandler_back_iff {current : Pid} (isCurrent : kernel.currentPid = some current)
    (running : ∀ current, kernel.currentPid = some current → kernel.activePids current = .active)
    {value : Int} :
    executeHandler image command staleArgs kernel = some (kernel', .back value) ↔
      Refused image kernel (scanCommand staleArgs 32 command).1 ∧ kernel' = kernel ∧
        value = -1 := by
  unfold executeHandler
  rw [isCurrent, Option.bind_some]
  constructor
  · intro done
    rcases launch_cases running done with ⟨rfl, same⟩ | ⟨pid, entryPoint, startedEq, -⟩
    · cases same
      rcases Option.map_eq_some_iff.mp done with ⟨⟨result, created⟩, createdEq, started⟩
      cases result with
      | none =>
          cases started
          exact ⟨(processCreate_failed_iff.mp createdEq).1, rfl, rfl⟩
      | some pid =>
          -- A pid that has just been claimed is started.
          rcases processCreate_eq_some createdEq with
            ⟨impossible, -⟩ | ⟨inode, free, -, isFree, same, finished⟩
          · cases impossible
          · cases same
            have notCurrent : (kernel'.setActive pid .created).currentPid ≠ some pid := by
              intro itself
              cases (unused_of_getFreePid isFree).symm.trans (running pid itself)
            rcases launched_of_finishCreate .inExecute (Function.update_self ..) notCurrent
              finished with ⟨entryPoint, resumed, -⟩
            cases resumed.symm.trans started
    · cases startedEq
  · rintro ⟨refused, rfl, rfl⟩
    rw [processCreate_failed_iff.mpr ⟨refused, rfl⟩]
    rfl

end Checks

end MonolithicKernel.Process
