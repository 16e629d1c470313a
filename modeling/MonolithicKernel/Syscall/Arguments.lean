import MonolithicKernel.Paging.Protection
import MonolithicKernel.Process.CommandLine
import MonolithicKernel.Process.Frames
import MonolithicKernel.Syscall.UserPointers

/-!
Owns the way of a program's arguments from `execute` to `getargs`: two copies of
128 bytes that need not end in a NUL, a `strlen` that stops at the first one
wherever it is, an unsigned comparison with `nbytes`, and a copy that pads.

Does not own commands whose name leaves no room for a NUL.
-/

namespace MonolithicKernel.Syscall

open MonolithicKernel.Foundation
open MonolithicKernel.Lib
open MonolithicKernel.Process

/-- The bytes of a result can all be stored from the buffer on. -/
def CanStore (buf : Nat) (result : Int × Bytes) : Prop :=
  ∀ i < result.2.length, Storable ((buf + i) % 2 ^ 32)

instance decidableCanStore (buf : Nat) (result : Int × Bytes) : Decidable (CanStore buf result) :=
  inferInstanceAs (Decidable (∀ i < result.2.length, Storable ((buf + i) % 2 ^ 32)))

/-- `getargs` of the current process. What it returns, and the bytes it stores
from the buffer on, may depend on the memory behind the `args` field. It does not come
back from a page fault. Nor is it followed into the kernel's own page, where the copy
may run over the field that it reads and the stack that it runs on. -/
def getargs (image : FileSystem.Image) (line : FileSystem.TerminalLine) (behind : Bytes)
    (kernel : Kernel) (buf : Nat) (nbytes : Int) : Option (Int × Bytes) :=
  kernel.currentPid.bind fun pid =>
    let pcb := kernel.pcb pid
    let caller := ⟨image, line, pcb.fileDescriptors, pcb.args ++ behind, pcb.terminalId⟩
    let result := getargsHandler caller buf nbytes
    if CanStore buf result then some result else none

section Field

variable {text : Bytes}

end Field

/-- Outside the kernel's own page, a store goes through at the storable addresses and is a
page fault everywhere else. -/
theorem storable_iff_translate {layout : Paging.Layout} {view : Paging.View}
    {kernel : Paging.PagedKernel} (represents : Paging.Represents layout view kernel)
    {address : WordRanges.Word} (outside : address.toNat / 0x400000 ≠ 1) :
    Storable address.toNat ↔
      ∃ physical, kernel.mmu.translate ⟨false, true⟩ address = some physical := by
  have word {target : Nat} (small : target < 2 ^ 32) : (BitVec.ofNat 32 target).toNat = target := by
    rw [BitVec.toNat_ofNat, Nat.mod_eq_of_lt small]
  simp only [represents.translate_iff]
  constructor
  · intro storable
    rcases storable with ⟨low, high⟩ | inside
    · by_cases video : address.toNat / 4096 = 0xB8
      · exact ⟨address, .video rfl video rfl⟩
      by_cases saved : address.toNat / 4096 = 0xBC
      · have bound : Screen.terminalPage view.terminal * 4096 + address.toNat % 4096 < 2 ^ 32 := by
          have small := view.terminal.isLt
          unfold Screen.terminalPage Screen.videoMemIndex
          omega
        exact ⟨_, .saved rfl saved (word bound)⟩
      -- The pages between are the three terminals'.
      let terminal : Terminal := ⟨address.toNat / 4096 - 0xB9, by omega⟩
      have here : address.toNat / 4096 = Screen.terminalPage terminal := by
        show _ = 0xB8 + 1 + (address.toNat / 4096 - 0xB9)
        omega
      have small := Paging.toNat_screenFrame_lt view.terminal terminal
      exact ⟨_, .screen terminal here (word (by omega))⟩
    · unfold inUserPage at inside
      have small := (Paging.userFrame view.owner).isLt
      exact ⟨_, .user (by omega) (by omega) (word (by omega))⟩
  · rintro ⟨physical, reach⟩
    unfold Storable inUserPage
    cases reach with
    | user lower upper target => exact .inr (by omega)
    | screen terminal here target =>
        have small := terminal.isLt
        unfold Screen.terminalPage Screen.videoMemIndex at here
        exact .inl (by omega)
    | video supervisor here target =>
        unfold Screen.videoMemIndex at here
        exact .inl (by omega)
    | saved supervisor here target =>
        unfold Screen.savedPage Screen.videoMemIndex at here
        exact .inl (by omega)
    | kernel supervisor inside unprotected target => exact absurd inside outside

/-! ### From `execute` to `getargs` -/

section Runs

variable {image : FileSystem.Image} {kernel executed final : Kernel} {command staleArgs : Bytes}
  {pid : Pid} {entryPoint : Nat} {calls : List Call}

end Runs

end MonolithicKernel.Syscall
