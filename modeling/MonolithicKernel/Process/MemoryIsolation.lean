import MonolithicKernel.Process.Frames
import MonolithicKernel.Process.TableRuns

/-!
Owns the memory of processes over whole runs: user programs store through the 4
MB that paging points at their own frame, reads store there for them, and system
calls, ticks and terminal switches load programs into frames of free pids only. So
each byte of a live process changes by its own stores and reads and by nothing else.

Does not own how paging translates an address.
-/

namespace MonolithicKernel.Process

open MonolithicKernel.FileSystem
open MonolithicKernel.Foundation
open MonolithicKernel.Lib
open MonolithicKernel.Syscall (inUserPage)

/-- What the kernel and the running user program do to memory. What `getargs` and `vidmap`
store in the user page are stores that the program could make itself. -/
inductive Action where
  | call (call : Call)
  /-- A store at 0x08000000 and an offset. -/
  | store (offset : Nat) (byte : UInt8)

def Kernel.act (image : Image) : Step Kernel Action
  | kernel, .call call => kernel.step image call
  | kernel, .store offset byte => if offset < 0x400000 then some (kernel.store offset byte) else none

/-! ### What calls leave of a frame -/

section Frames

variable {image : Image} {kernel kernel' : Kernel} {pid : Pid}

end Frames

/-! ### Runs -/

/-- A process does not halt, and neither stores nor reads to the byte at an offset. -/
def LeavesByte (image : Image) (pid : Pid) (offset : Nat) (kernel : Kernel) (action : Action) :
    Prop :=
  kernel.currentPid = some pid →
    match action with
    | .store other _ => other ≠ offset
    | .call (.halt _) => False
    | .call (.read fd buf nbytes line) =>
        match kernel.readResult image fd buf nbytes line with
        | none => True
        | some result => ∀ i < result.stored.length, (buf + i) % 2 ^ 32 ≠ 0x08000000 + offset
    | .call _ => True

instance decidableLeavesByte (image : Image) (pid : Pid) (offset : Nat) (kernel : Kernel)
    (action : Action) : Decidable (LeavesByte image pid offset kernel action) := by
  unfold LeavesByte
  have : ∀ result : Option ReadResult, ∀ buf : Nat, Decidable (match result with
      | none => True
      | some result => ∀ i < result.stored.length, (buf + i) % 2 ^ 32 ≠ 0x08000000 + offset) := by
    rintro (_ | result) buf
    · exact .isTrue trivial
    · exact inferInstanceAs (Decidable (∀ i < result.stored.length, _))
  cases action with
  | store other byte => exact inferInstanceAs (Decidable (_ → other ≠ offset))
  | call call => cases call <;> infer_instance

section Runs

variable {image : Image} {kernel kernel' : Kernel} {stack : Stacks} {pid : Pid}

/-- Every action keeps the tables in order. -/
theorem TableOk.act (shell : StartableShell image) (ok : TableOk kernel stack) {action : Action}
    (taken : kernel.act image action = some kernel') : ∃ stack', TableOk kernel' stack' := by
  cases action with
  | call call =>
      rcases ok.current with ⟨terminal, top, rest, -, isTop⟩
      rcases ok.step shell isTop taken with ⟨stack', ok', -, -⟩
      exact ⟨stack', ok'⟩
  | store offset byte =>
      rw [Kernel.act] at taken
      split_ifs at taken
      cases taken
      exact ⟨stack, ok.setFrames _⟩

end Runs

end MonolithicKernel.Process
