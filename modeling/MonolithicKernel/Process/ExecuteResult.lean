import MonolithicKernel.Process.Bracketing
import MonolithicKernel.Process.FailedExecute

/-!
Owns the value that the caller of `execute` finds in EAX. It comes back from
`process_start` when nothing was started, and from the `halt` of the child
otherwise. `halt_handler` hands the whole status over, although only its low
byte should reach the caller, so the two are apart exactly for statuses below
256.

Does not own what else the caller finds as it was.
-/

namespace MonolithicKernel.Process

open MonolithicKernel.FileSystem
open MonolithicKernel.Foundation
open MonolithicKernel.Lib

/-- EAX, as an `int32_t`, of a process that goes on behind its own system call. -/
def Resumption.result : Resumption → Option Int
  | .back value => some value
  | .returned _ _ status => some status.toBitVec.toInt
  | .started _ _ => none
  | .switched _ _ => none

/-- How an `execute` of `kernel` comes to its end: it fails, or it starts a child
that halts with a status after a run of whatever calls. -/
inductive ExecuteEnds (image : Image) (kernel : Kernel) (command staleArgs : Bytes) :
    Option UInt32 → Kernel → Resumption → Prop where
  | failed {kernel' : Kernel} {value : Int}
      (refused : kernel.call image (.execute command staleArgs) = some (kernel', .back value)) :
      ExecuteEnds image kernel command staleArgs none kernel' (.back value)
  | halted {executed last final : Kernel} {child : Pid} {entryPoint : Nat} {calls : List Call}
      {status : UInt32} {resumption : Resumption}
      (success : kernel.call image (.execute command staleArgs) =
        some (executed, .started child entryPoint))
      (ran : Step.run (Kernel.step image) executed calls = some last)
      (running : Step.AllSteps (Kernel.step image) (NotHaltOf child) executed calls)
      (isChild : last.currentPid = some child)
      (halt : last.call image (.halt status) = some (final, resumption)) :
      ExecuteEnds image kernel command staleArgs (some status) final resumption

/-- The result is -1 exactly when no child was started, and the low byte of the
status otherwise. -/
def SeparatesResult (outcome : Option UInt32) (result : Int) : Prop :=
  (result = -1 ↔ outcome = none) ∧
    ∀ status, outcome = some status → result = (status.toNat % 256 : Nat)

theorem separatesResult_status_iff (status : UInt32) :
    SeparatesResult (some status) status.toBitVec.toInt ↔ status.toNat < 256 := by
  have small := status.toNat_lt
  have value : status.toBitVec.toInt =
      if 2 * status.toNat < 2 ^ 32 then (status.toNat : Int) else status.toNat - 2 ^ 32 :=
    BitVec.toInt_eq_toNat_cond status.toBitVec
  constructor
  · rintro ⟨-, lowByte⟩
    have low := lowByte status rfl
    rw [value] at low
    split_ifs at low
    · omega
    · omega
  · intro below
    rw [if_pos (by omega)] at value
    constructor
    · simp only [reduceCtorEq, iff_false]
      omega
    · intro other same
      cases same
      omega

section Ends

variable {image : Image} {pcb : Pid → Pcb} {frames : Pid → Frame} {booted kernel : Kernel}
  {first caller : Pid} {entryPoint : Nat} {calls : List Call} {command staleArgs : Bytes}

/-- Every status ends the `execute` that started the process. -/
theorem exists_executeEnds {executed last : Kernel} {child : Pid} {childEntry : Nat}
    {after : List Call}
    (started : startShell image .inBoot 0 (bootKernel pcb frames) =
      some (booted, .started first entryPoint))
    (reached : Step.run (Kernel.step image) booted calls = some kernel)
    (isCaller : kernel.currentPid = some caller)
    (success : kernel.call image (.execute command staleArgs) =
      some (executed, .started child childEntry))
    (ran : Step.run (Kernel.step image) executed after = some last)
    (running : Step.AllSteps (Kernel.step image) (NotHaltOf child) executed after)
    (isChild : last.currentPid = some child) (status : UInt32) :
    ∃ final, ExecuteEnds image kernel command staleArgs (some status) final
      (.returned caller .inExecute status) := by
  rcases tableOk_of_started started with ⟨shell, stack₀, bootOk⟩
  rcases bootOk.run shell reached with ⟨stack, ok, -⟩
  rcases ok.bracket_of_execute isCaller success with ⟨rest, -, bracket, -⟩
  rcases (bracket.run shell running ran).halt isChild image status with
    ⟨lastStack, final, -, -, haltEq, -⟩
  exact ⟨final, .halted success ran running isChild haltEq⟩

/-- **The result of execute, exactly.** In every run from boot, an `execute` that ends
gives its caller a result, and the result tells a failed start from a finished
program as it should if and only if the program's status is below 256. -/
theorem executeResult_iff {outcome : Option UInt32} {final : Kernel} {resumption : Resumption}
    (started : startShell image .inBoot 0 (bootKernel pcb frames) =
      some (booted, .started first entryPoint))
    (reached : Step.run (Kernel.step image) booted calls = some kernel)
    (isCaller : kernel.currentPid = some caller)
    (ends : ExecuteEnds image kernel command staleArgs outcome final resumption) :
    final.currentPid = some caller ∧ ∃ result, resumption.result = some result ∧
      (SeparatesResult outcome result ↔
        ∀ status, outcome = some status → status.toNat < 256) := by
  rcases tableOk_of_started started with ⟨shell, stack₀, bootOk⟩
  rcases bootOk.run shell reached with ⟨stack, ok, -⟩
  cases ends with
  | failed refused =>
      rcases (executeHandler_back_iff isCaller ok.running).mp refused with ⟨-, rfl, rfl⟩
      exact ⟨isCaller, -1, rfl, by simp [SeparatesResult]⟩
  | halted success ran running isChild halt =>
      rename_i status
      rcases ok.bracket_of_execute isCaller success with ⟨rest, -, bracket, -⟩
      rcases (bracket.run shell running ran).halt isChild image status with
        ⟨lastStack, closed, -, -, haltEq, -, isCurrent, -⟩
      cases haltEq.symm.trans halt
      refine ⟨isCurrent, _, rfl, ?_⟩
      rw [separatesResult_status_iff]
      simp

end Ends

/-! ### A shell in a shell -/

/-- The first shell starts a second one, which halts behind the nested calls. -/
theorem exists_shellInShell (status : UInt32) :
    ∃ booted final, startShell shellImage .inBoot 0 (bootKernel (fun _ => zeroPcb) fun _ _ => 0) =
        some (booted, .started 0 0) ∧ booted.currentPid = some 0 ∧
      ExecuteEnds shellImage booted shellName [] (some status) final
        (.returned 0 .inExecute status) := by
  have evaluated : (startShell shellImage .inBoot 0 (bootKernel (fun _ => zeroPcb)
      fun _ _ => 0)).bind (fun started =>
        (started.1.call shellImage (.execute shellName [])).bind fun result =>
          (Step.run (Kernel.step shellImage) result.1 nestedCalls).map fun last =>
            (started.2, result.2, decide (started.1.currentPid = some 0 ∧
              Step.AllSteps (Kernel.step shellImage) (NotHaltOf 1) result.1 nestedCalls ∧
              last.currentPid = some 1))) = some (.started 0 0, .started 1 0, true) := by
    decide
  rcases Option.bind_eq_some_iff.mp evaluated with ⟨⟨booted, resumed⟩, started, called⟩
  rcases Option.bind_eq_some_iff.mp called with ⟨⟨executed, resumption⟩, success, went⟩
  rcases Option.map_eq_some_iff.mp went with ⟨last, ran, values⟩
  simp only [Prod.mk.injEq, decide_eq_true_eq] at values
  rcases values with ⟨rfl, rfl, isCaller, running, isChild⟩
  rcases exists_executeEnds started (Step.run_nil _ booted) isCaller success ran running isChild
    status with ⟨final, ends⟩
  exact ⟨booted, final, started, isCaller, ends⟩

theorem executeResult_shellImage :
    ∃ booted final resumption, ExecuteEnds shellImage booted shellName [] (some 7) final resumption ∧
      final.currentPid = some 0 ∧ ∃ result, resumption.result = some result ∧
        SeparatesResult (some 7) result := by
  rcases exists_shellInShell 7 with ⟨booted, final, started, isCaller, ends⟩
  rcases executeResult_iff started (Step.run_nil _ booted) isCaller ends with
    ⟨isCurrent, result, found, exactly⟩
  refine ⟨booted, final, _, ends, isCurrent, result, found, exactly.mpr ?_⟩
  intro status same
  cases same
  decide

/-- A program that halts with 0xFFFFFFFF looks as if it had not been started. -/
theorem not_forall_separatesResult :
    ¬ ∀ image pcb frames booted first entryPoint calls kernel caller command staleArgs outcome
      final resumption result,
      startShell image .inBoot 0 (bootKernel pcb frames) =
        some (booted, .started first entryPoint) →
      Step.run (Kernel.step image) booted calls = some kernel →
      kernel.currentPid = some caller →
      ExecuteEnds image kernel command staleArgs outcome final resumption →
      resumption.result = some result → SeparatesResult outcome result := by
  intro all
  rcases exists_shellInShell 0xFFFFFFFF with ⟨booted, final, started, isCaller, ends⟩
  have separated := all _ _ _ _ _ _ _ _ _ _ _ _ _ _ _ started (Step.run_nil _ booted) isCaller ends
    rfl
  have notStarted := separated.1.mp (by decide)
  cases notStarted

end MonolithicKernel.Process
