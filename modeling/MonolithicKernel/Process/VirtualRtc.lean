import MonolithicKernel.Process.Frames
import MonolithicKernel.Process.RtcSlots
import MonolithicKernel.Process.TableRuns

/-!
Owns the virtual RTC over whole runs. The frequency of a descriptor is not in the
kernel; a record beside it follows the calls. While a process waits in `rtc_read`
it stays on top of its terminal, so that every tick finds its table exactly once,
and no call of another process reaches that table.

Does not own the wait loop itself: the reader goes on when it sees 0.
-/

namespace MonolithicKernel.Process

open MonolithicKernel.FileSystem
open MonolithicKernel.Foundation
open MonolithicKernel.Lib

/-- The kernel, and the last accepted frequency of each descriptor. -/
structure Tracked where
  kernel : Kernel
  frequency : Pid → Int → Nat

/-- What a call of the current process adds to the record. -/
def record (kernel : Kernel) (frequency : Pid → Int → Nat) :
    Call → Resumption → Pid → Int → Nat
  | .open _, .back ret => fun pid =>
      if kernel.currentPid = some pid then recordOpen (frequency pid) ret else frequency pid
  | .write fd buf _, .back ret => fun pid =>
      if kernel.currentPid = some pid then recordWrite (frequency pid) fd buf ret
      else frequency pid
  | _, _ => frequency

def Tracked.step (image : Image) : Step Tracked Call := fun tracked call =>
  (tracked.kernel.call image call).map fun done =>
    ⟨done.1, record tracked.kernel tracked.frequency call done.2⟩

/-- The process is in `rtc_read`: it makes no call, but interrupts find it there. -/
def InRead (reader : Pid) (kernel : Kernel) (call : Call) : Prop :=
  kernel.currentPid = some reader → call = .tick ∨ ∃ termId, call = .switchTerminal termId

def Call.isTick : Call → Bool
  | .tick => true
  | _ => false

def ticks (calls : List Call) : Nat := calls.countP Call.isTick

/-! ### New processes -/

/-- Whoever is active after the call was active before, with the same table, or
has a new one. -/
def SameOrFresh (kernel kernel' : Kernel) : Prop :=
  ∀ pid, kernel'.activePids pid = .active →
    (kernel.activePids pid = .active ∧
      (kernel'.pcb pid).fileDescriptors = (kernel.pcb pid).fileDescriptors) ∨
    ∃ old, (kernel'.pcb pid).fileDescriptors = newFileDescriptors old

namespace SameOrFresh

variable {image : Image} {kernel kernel' : Kernel} {resumption : Resumption}

theorem refl (kernel : Kernel) : SameOrFresh kernel kernel := fun _ active => .inl ⟨active, rfl⟩

theorem saveContext_fileDescriptors (context : Context) (kernel : Kernel) (pid : Pid) :
    ((saveContext context kernel).pcb pid).fileDescriptors = (kernel.pcb pid).fileDescriptors := by
  unfold saveContext
  dsimp only
  split_ifs
  · rfl
  · rfl

theorem launch {command staleArgs : Bytes} {terminal : Terminal} {hasParent : Bool}
    {caller : Context}
    (launched : (processCreate image command staleArgs terminal hasParent kernel).map
      (fun created => processStart caller created.2 created.1) = some (kernel', resumption)) :
    SameOrFresh kernel kernel' := by
  rcases Option.map_eq_some_iff.mp launched with ⟨⟨result, created⟩, createdEq, started⟩
  rcases processCreate_eq_some createdEq with ⟨rfl, rfl⟩ | ⟨inode, free, -, -, rfl, finished⟩
  · cases started
    exact refl _
  · rcases Option.map_eq_some_iff.mp finished with ⟨frame, -, rfl⟩
    rw [processStart_created (Function.update_self ..)] at started
    cases started
    intro pid active
    by_cases here : pid = free
    · subst here
      refine .inr ⟨(kernel.pcb pid).fileDescriptors, ?_⟩
      refine (saveContext_fileDescriptors ..).trans ?_
      show (Function.update kernel.pcb pid _ pid).fileDescriptors = _
      rw [Function.update_self]
      rfl
    · refine .inl ⟨?_, ?_⟩
      · have before : Function.update (Function.update kernel.activePids free .created) free
            .active pid = .active := active
        rwa [Function.update_of_ne here, Function.update_of_ne here] at before
      · refine (saveContext_fileDescriptors ..).trans ?_
        show (Function.update kernel.pcb free _ pid).fileDescriptors = _
        rw [Function.update_of_ne here]

theorem switchTerminal {termId : Terminal}
    (switched : switchTerminal image termId kernel = some (kernel', resumption)) :
    SameOrFresh kernel kernel' := by
  rcases switchTerminal_eq_some switched with ⟨⟨shown, rfl⟩, -⟩ | ⟨started, startedEq, -⟩
  · exact refl kernel
  · have launched := launch startedEq
    exact launched

theorem halt {status : UInt32} (coherent : kernel.fileDescriptors = kernel.currentPid)
    (halted : haltHandler image status kernel = some (kernel', resumption)) :
    SameOrFresh kernel kernel' := by
  rcases haltHandler_eq_some halted with ⟨current, closed, isCurrent, closedEq, branch⟩
  rcases closeDescriptors_eq_some closedEq with ⟨owner, fds, isOwner, -, rfl⟩
  obtain rfl : owner = current := Option.some.inj (isOwner.symm.trans (coherent.trans isCurrent))
  -- The closed table belongs to the pid that is given back.
  have others : ∀ pid, Function.update kernel.activePids owner .unused pid = .active →
      kernel.activePids pid = .active ∧ ((kernel.setPcb owner
        { kernel.pcb owner with fileDescriptors := fds }).pcb pid).fileDescriptors =
          (kernel.pcb pid).fileDescriptors := by
    intro pid active
    have differ : pid ≠ owner := by
      rintro rfl
      rw [Function.update_self] at active
      cases active
    rw [Function.update_of_ne differ] at active
    exact ⟨active, by rw [Kernel.setPcb_pcb_of_ne differ]⟩
  rcases branch with ⟨restarted, startedEq, -⟩ | ⟨parent, returned⟩
  · intro pid active
    rcases launch startedEq pid active with ⟨before, same⟩ | fresh
    · rcases others pid before with ⟨active, same'⟩
      exact .inl ⟨active, same.trans same'⟩
    · exact .inr fresh
  · cases returned
    exact fun pid active => .inl (others pid active)

theorem scheduleLoop (rounds : Nat) (kernel : Kernel) :
    SameOrFresh kernel (scheduleLoop rounds kernel).1 := by
  rcases scheduleLoop_cases rounds kernel with ⟨index, none | ⟨next, -, -, switched⟩⟩
  · rw [none]
    exact refl kernel
  · rw [switched]
    exact fun pid active => .inl ⟨active, saveContext_fileDescriptors ..⟩

end SameOrFresh

/-! ### The record is true -/

/-- Every active process has its frequencies on record. -/
def OnRecord (kernel : Kernel) (frequency : Pid → Int → Nat) : Prop :=
  ∀ pid, kernel.activePids pid = .active →
    RtcOk (frequency pid) (kernel.pcb pid).fileDescriptors

namespace OnRecord

variable {image : Image} {kernel kernel' : Kernel} {frequency : Pid → Int → Nat}
  {resumption : Resumption}

theorem of_sameOrFresh (onRecord : OnRecord kernel frequency)
    (sameOrFresh : SameOrFresh kernel kernel') : OnRecord kernel' frequency := by
  intro pid active
  rcases sameOrFresh pid active with ⟨before, same⟩ | ⟨old, fresh⟩
  · rw [same]
    exact onRecord pid before
  · rw [fresh]
    exact .newFileDescriptors (frequency pid) old

/-- The current process uses its table. -/
theorem useFileDescriptors {use : FdTable → Option (Int × FdTable)}
    (onRecord : OnRecord kernel frequency) (note : Int → (Int → Nat) → Int → Nat)
    (coherent : kernel.fileDescriptors = kernel.currentPid)
    (keeps : ∀ frequency fds ret fds', RtcOk frequency fds → use fds = some (ret, fds') →
      RtcOk (note ret frequency) fds')
    (done : useFileDescriptors kernel use = some (kernel', resumption)) :
    ∃ ret, resumption = .back ret ∧ OnRecord kernel' fun pid =>
      if kernel.currentPid = some pid then note ret (frequency pid) else frequency pid := by
  rcases useFileDescriptors_eq_some done with ⟨owner, ret, fds, isOwner, usedFds, rfl, rfl⟩
  rw [coherent] at isOwner
  refine ⟨ret, rfl, fun pid active => ?_⟩
  dsimp only
  by_cases own : pid = owner
  · subst own
    rw [if_pos isOwner, Kernel.setPcb_pcb_self]
    exact keeps _ _ _ _ (onRecord pid active) usedFds
  · have notCurrent : kernel.currentPid ≠ some pid := fun isCurrent =>
      own (Option.some.inj (isCurrent.symm.trans isOwner))
    rw [if_neg notCurrent, Kernel.setPcb_pcb_of_ne own]
    exact onRecord pid active

theorem foldl_updateCounters (terminals : List Terminal) (onRecord : OnRecord kernel frequency) :
    OnRecord (terminals.foldl updateCounters kernel) frequency := by
  induction terminals generalizing kernel with
  | nil => exact onRecord
  | cons terminal terminals inductionHypothesis =>
      apply inductionHypothesis
      unfold updateCounters
      split
      · exact onRecord
      · rename_i owner _
        intro pid active
        by_cases own : pid = owner
        · subst own
          rw [Kernel.setPcb_pcb_self]
          exact (onRecord pid active).tick
        · rw [Kernel.setPcb_pcb_of_ne own]
          exact onRecord pid active

theorem tick (onRecord : OnRecord kernel frequency) :
    OnRecord (rtcHandler kernel).1 frequency := by
  have counted := onRecord.foldl_updateCounters (List.finRange 3)
  unfold rtcHandler
  dsimp only
  split_ifs
  · have reloaded : OnRecord { (List.finRange 3).foldl updateCounters kernel with
        rtcCount := 8 } frequency := counted
    exact reloaded.of_sameOrFresh (.scheduleLoop 3 _)
  · exact counted

/-- **One step.** -/
theorem step {call : Call} (onRecord : OnRecord kernel frequency)
    (coherent : kernel.fileDescriptors = kernel.currentPid)
    (done : kernel.call image call = some (kernel', resumption)) :
    OnRecord kernel' (record kernel frequency call resumption) := by
  cases call with
  | execute command staleArgs =>
      rcases Option.bind_eq_some_iff.mp done with ⟨current, -, launched⟩
      exact onRecord.of_sameOrFresh (.launch launched)
  | halt status => exact onRecord.of_sameOrFresh (.halt coherent done)
  | «open» filename =>
      rcases onRecord.useFileDescriptors (fun ret frequency => recordOpen frequency ret)
        coherent (fun frequency fds ret fds' ok opened => by
          cases opened
          exact ok.open rfl) done with ⟨ret, rfl, recorded⟩
      exact recorded
  | close fd =>
      rcases onRecord.useFileDescriptors (fun _ frequency => frequency) coherent
        (fun _ _ _ _ ok closed => ok.close closed) done with ⟨ret, rfl, recorded⟩
      simp only [ite_self] at recorded
      exact recorded
  | read fd buf nbytes line =>
      rcases useFileDescriptors_of_read done with ⟨read, frames, readEq, rfl⟩
      rcases onRecord.useFileDescriptors (fun _ frequency => frequency) coherent
        (fun _ _ _ _ ok read => by
          rcases Option.map_eq_some_iff.mp read with ⟨result, readEq, same⟩
          cases same
          exact ok.read readEq) readEq with ⟨ret, rfl, recorded⟩
      simp only [ite_self] at recorded
      exact recorded
  | write fd buf nbytes =>
      rcases onRecord.useFileDescriptors
        (fun ret frequency => recordWrite frequency fd buf ret) coherent
        (fun _ _ _ _ ok written => ok.write written) done with ⟨ret, rfl, recorded⟩
      exact recorded
  | switchTerminal termId => exact onRecord.of_sameOrFresh (.switchTerminal done)
  | tick =>
      have same : (rtcHandler kernel).1 = kernel' := congrArg Prod.fst (Option.some.inj done)
      rw [← same]
      exact onRecord.tick

end OnRecord

section Ticks

variable {kernel : Kernel} {stack : Stacks} {terminal : Terminal} {pid : Pid} {rest : List Pid}

/-- The counter loop comes to a process once for each terminal it is on. -/
theorem fileDescriptors_foldl_updateCounters {terminals : List Terminal} (nodup : terminals.Nodup)
    (isTop : kernel.terminalPids terminal = some pid)
    (only : ∀ other, kernel.terminalPids other = some pid → other = terminal) :
    ((terminals.foldl updateCounters kernel).pcb pid).fileDescriptors =
      if terminal ∈ terminals then tickCounters (kernel.pcb pid).fileDescriptors
      else (kernel.pcb pid).fileDescriptors := by
  induction terminals generalizing kernel with
  | nil => rfl
  | cons head tail inductionHypothesis =>
      rcases List.nodup_cons.mp nodup with ⟨notAgain, nodupTail⟩
      have sameTops : (updateCounters kernel head).terminalPids = kernel.terminalPids := by
        unfold updateCounters
        split
        · rfl
        · rfl
      have later := @inductionHypothesis (updateCounters kernel head) nodupTail
        (by rw [sameTops, isTop]) (by rw [sameTops]; exact only)
      rw [List.foldl_cons, later]
      by_cases here : terminal = head
      · subst here
        rw [if_neg notAgain, if_pos List.mem_cons_self, updateCounters, isTop]
        dsimp only
        rw [Kernel.setPcb_pcb_self]
      · have same : ((updateCounters kernel head).pcb pid).fileDescriptors =
            (kernel.pcb pid).fileDescriptors := by
          unfold updateCounters
          split
          · rfl
          · rename_i other isOther
            have differ : pid ≠ other := fun same => here (only head (same ▸ isOther)).symm
            rw [Kernel.setPcb_pcb_of_ne differ]
        rw [same]
        simp [here]

theorem TableOk.fileDescriptors_tick (ok : TableOk kernel stack)
    (top : stack terminal = pid :: rest) :
    ((rtcHandler kernel).1.pcb pid).fileDescriptors =
      tickCounters (kernel.pcb pid).fileDescriptors := by
  have isTop : kernel.terminalPids terminal = some pid := by rw [ok.top, top, List.head?_cons]
  have counted := fileDescriptors_foldl_updateCounters (List.nodup_finRange 3) isTop
    fun other isOther => ok.processTableOk.distinct other terminal pid isOther isTop
  rw [if_pos (List.mem_finRange terminal)] at counted
  have active : ((List.finRange 3).foldl updateCounters kernel).activePids pid = .active := by
    rcases fields_of_updateCounters (List.finRange 3) kernel with ⟨pcb, same⟩
    have active := active_of_top ok.stacked top
    rw [same]
    exact active
  rw [← counted]
  unfold rtcHandler
  dsimp only
  split_ifs
  · have kept := @Kept.scheduleLoop
      { (List.finRange 3).foldl updateCounters kernel with rtcCount := 8 } pid active 3
    exact kept.fileDescriptors
  · rfl

end Ticks

/-! ### A reader waits -/

/-- The reader is on top of its terminal, and the counter it waits for is `count`. -/
structure Waits (reader : Pid) (slot : Fin 8) (count : Nat) (kernel : Kernel) : Prop where
  onTop : ∃ stack terminal rest, TableOk kernel stack ∧ stack terminal = reader :: rest
  isHigh : 2 ≤ slot
  isRtc : ((kernel.pcb reader).fileDescriptors slot).fileTablePtr = some .rtc
  filePos : ((kernel.pcb reader).fileDescriptors slot).filePos = count

namespace Waits

variable {image : Image} {kernel kernel' : Kernel} {reader : Pid} {slot : Fin 8} {count : Nat}

/-- A process that makes no call stays on top of its terminal. -/
theorem onTop_step (shell : StartableShell image) {call : Call}
    (waits : Waits reader slot count kernel) (inRead : InRead reader kernel call)
    (taken : kernel.step image call = some kernel') :
    ∃ stack terminal rest, TableOk kernel' stack ∧ stack terminal = reader :: rest := by
  rcases waits.onTop with ⟨stack, terminal, rest, ok, top⟩
  rcases ok.current with ⟨moving, current, below, -, isCurrent⟩
  rcases ok.step shell isCurrent taken with ⟨stack', ok', move, -⟩
  refine ⟨stack', terminal, ?_⟩
  -- The other moves change the stack of the process that calls.
  have elsewhere : ∀ {other : Terminal} {rest' : List Pid}, stack other = current :: rest' →
      current ≠ reader → terminal ≠ other := by
    rintro other rest' shape differ rfl
    rw [top] at shape
    exact differ (List.cons.inj shape).1.symm
  have notReader : (∀ termId, call ≠ .switchTerminal termId) → call ≠ .tick →
      current ≠ reader := by
    rintro notSwitch notTick rfl
    rcases inRead isCurrent with isTick | ⟨termId, isSwitch⟩
    · exact notTick isTick
    · exact notSwitch termId isSwitch
  cases move with
  | stay => exact ⟨rest, ok', top⟩
  | push shape =>
      rw [Function.update_of_ne (elsewhere shape (notReader (by simp) (by simp)))]
      exact ⟨rest, ok', top⟩
  | pop shape =>
      rw [Function.update_of_ne (elsewhere shape (notReader (by simp) (by simp)))]
      exact ⟨rest, ok', top⟩
  | restart shape =>
      rw [Function.update_of_ne (elsewhere shape (notReader (by simp) (by simp)))]
      exact ⟨rest, ok', top⟩
  | start empty =>
      rename_i started _
      have differ : terminal ≠ started := by
        rintro rfl
        rw [top] at empty
        cases empty
      rw [Function.update_of_ne differ]
      exact ⟨rest, ok', top⟩

/-- **One step of a wait.** A tick counts down, and nothing else does. -/
theorem step (shell : StartableShell image) {call : Call}
    (waits : Waits reader slot count kernel) (inRead : InRead reader kernel call)
    (taken : kernel.step image call = some kernel') :
    Waits reader slot (count - ticks [call]) kernel' := by
  have onTop := waits.onTop_step shell inRead taken
  rcases waits.onTop with ⟨stack, terminal, rest, ok, top⟩
  by_cases isTick : call = .tick
  · subst isTick
    have ticked : (rtcHandler kernel).1 = kernel' := Option.some.inj taken
    have counted := ok.fileDescriptors_tick top
    rw [ticked] at counted
    refine ⟨onTop, waits.isHigh, ?_, ?_⟩
    · rw [counted, tickCounters]
      split_ifs
      · exact waits.isRtc
      · exact waits.isRtc
    · have pointer := waits.isRtc
      have present := waits.filePos
      rw [counted, tickCounters]
      show _ = count - 1
      split_ifs with counts
      · exact congrArg (· - 1) present
      · have finished : ¬ 0 < ((kernel.pcb reader).fileDescriptors slot).filePos :=
          fun positive => counts ⟨waits.isHigh, pointer, positive⟩
        omega
  · have notOwn : kernel.currentPid ≠ some reader ∨ ∃ termId, call = .switchTerminal termId := by
      by_cases own : kernel.currentPid = some reader
      · exact .inr ((inRead own).resolve_left isTick)
      · exact .inl own
    have kept := Kept.step_of_unused (active_of_top ok.stacked top) notOwn ok.fileDescriptors
      isTick taken
    have uncounted : ticks [call] = 0 := by
      cases call with
      | tick => exact absurd rfl isTick
      | execute _ _ => rfl
      | halt _ => rfl
      | «open» _ => rfl
      | close _ => rfl
      | read _ _ _ _ => rfl
      | write _ _ _ => rfl
      | switchTerminal _ => rfl
    rw [uncounted, Nat.sub_zero]
    refine ⟨onTop, waits.isHigh, ?_, ?_⟩
    · rw [kept.fileDescriptors]
      exact waits.isRtc
    · rw [kept.fileDescriptors]
      exact waits.filePos

/-- After any calls of others, the counter has lost exactly the ticks. -/
theorem run (shell : StartableShell image) {later : List Call} {final : Kernel}
    (waits : Waits reader slot count kernel)
    (inRead : Step.AllSteps (Kernel.step image) (InRead reader) kernel later)
    (ran : Step.run (Kernel.step image) kernel later = some final) :
    Waits reader slot (count - ticks later) final := by
  induction later generalizing kernel count with
  | nil =>
      cases ran
      exact waits
  | cons call later inductionHypothesis =>
      rcases (Step.run_cons_eq_some _).mp ran with ⟨next, taken, rest⟩
      rcases inRead next taken with ⟨here, after⟩
      have counted := inductionHypothesis (waits.step shell here taken) after rest
      have split : ticks ([call] ++ later) = ticks [call] + ticks later := List.countP_append
      rw [List.singleton_append] at split
      rwa [split, ← Nat.sub_sub]

end Waits

/-! ### Reads and writes of the current process -/

section Calls

variable {image : Image} {kernel : Kernel} {stack : Stacks} {pid : Pid} {fd : Int} {slot : Fin 8}

end Calls

end MonolithicKernel.Process
