import MonolithicKernel.Foundation.Runs
import MonolithicKernel.Process.Fields
import MonolithicKernel.Process.Launch

/-!
Owns the machine that takes interrupts wherever the code has them enabled. A
kernel path is the list of functions it is in, innermost first; each function is
cut where interrupts can come in. System calls go through a trap gate, so
`process_create` runs with interrupts enabled from its entry to the `cli` behind
its store, and so does all of `rtc_handler` and `process_switch`; the keyboard
handler and `halt_handler` run with interrupts disabled up to the `sti` in
`process_create`. `process_start` enables them again before its `iret`: there the
new process is current while the processor is still on the stack of the creator.

The path that has the processor is `running`; `saved` is where each saved kernel
stack goes on. `live` is not in the code: it lists the pids of the processes
created and not yet halted.

Owns the exclusiveness of pids on this machine. Does not own what the scheduler
may pick.
-/

namespace MonolithicKernel.Process

open MonolithicKernel.FileSystem
open MonolithicKernel.Foundation
open MonolithicKernel.Lib

/-- What `process_create` has on its stack once the executable is found. -/
structure Creation where
  inode : Nat
  fileArgs : Bytes
  terminal : Terminal
  caller : Context
  /-- The process that called it or was interrupted, or the one that has halted. -/
  host : Option Pid
deriving DecidableEq, Repr

inductive CreateStage where
  /-- Before the scan in `get_free_pid`. -/
  | entered
  /-- Between the scan and the store. -/
  | scanned (pid : Pid)
  /-- Between the store and `cli`. -/
  | stored (pid : Pid)
  /-- In the `process_start` that follows, between its `sti` and its `iret`. -/
  | entering (pid : Pid)
  /-- In that `process_start`, whose saved stack this is. -/
  | started
deriving DecidableEq, Repr

inductive TickStage where
  | entered
  /-- Behind the counter loop. -/
  | counted
  /-- In the scheduling loop, with the rounds it has left. -/
  | choosing (rounds : Nat)
  /-- About to call `process_switch`. -/
  | calling
  /-- In `process_switch`, before the stack is switched. -/
  | switching (pid : Pid)
  /-- In `process_switch`, whose saved stack this is. -/
  | switched
deriving DecidableEq, Repr

inductive Activation where
  | idle
  | user
  | create (creation : Creation) (stage : CreateStage)
  | tick (stage : TickStage)
deriving DecidableEq, Repr

/-- A kernel path, innermost function first. -/
abbrev Path := List Activation

structure Machine where
  kernel : Kernel
  running : Path
  saved : Pid → Path
  live : List Pid

/-- A call of `process_create`, up to the point where the executable is found. -/
def enterCreate (image : Image) (command staleArgs : Bytes) (terminal : Terminal)
    (caller : Context) (host : Option Pid) (path : Path) : Path :=
  let scanned := scanCommand staleArgs 32 command
  match findExecutable image scanned.1 with
  | none => path
  | some inode => .create ⟨inode, scanned.2, terminal, caller, host⟩ .entered :: path

namespace Machine

/-- The running stack is saved in the current PCB, if there is one, and goes on
as `path`. -/
def savePath (machine : Machine) (path : Path) : Pid → Path := fun pid =>
  if machine.kernel.currentPid = some pid then path else machine.saved pid

/-- The next step of `process_create` and of the `process_start` behind it. -/
def advanceCreate (image : Image) (machine : Machine) (creation : Creation) (rest : Path) :
    CreateStage → Option Machine
  | .entered =>
      match machine.kernel.getFreePid with
      | none => some { machine with running := rest }
      | some pid => some { machine with running := .create creation (.scanned pid) :: rest }
  | .scanned pid =>
      some { machine with
        kernel := machine.kernel.setActive pid .created
        running := .create creation (.stored pid) :: rest
        live := machine.live ++ [pid] }
  | .stored pid =>
      (finishCreate image creation.inode creation.fileArgs creation.terminal
        (creation.caller = .inExecute) machine.kernel pid).map fun created =>
          if created.activePids pid ≠ .created then
            { machine with kernel := created, running := rest }
          else
            { machine with
              kernel := enterProcess creation.caller created pid
              running := [.create creation (.entering pid)]
              saved := machine.savePath (.create creation .started :: rest) }
  | .entering _ => some { machine with running := .user :: rest }
  | .started => some { machine with running := rest }

/-- The next step of `rtc_handler` and of the `process_switch` it calls. Once in
`process_switch` the path never goes back to what is below it. -/
def advanceTick (machine : Machine) (rest : Path) : TickStage → Option Machine
  | .entered =>
      some { machine with
        kernel := (List.finRange 3).foldl updateCounters machine.kernel
        running := .tick .counted :: rest }
  | .counted =>
      let rtcCount := machine.kernel.rtcCount - 1
      if rtcCount = 0 then
        some { machine with
          kernel := { machine.kernel with rtcCount := 8 }
          running := .tick (.choosing 3) :: rest }
      else some { machine with
        kernel := { machine.kernel with rtcCount := rtcCount }
        running := rest }
  | .choosing 0 => some { machine with running := rest }
  | .choosing (rounds + 1) =>
      let kernel := { machine.kernel with currentIndex := machine.kernel.currentIndex + 1 }
      if kernel.terminalPids kernel.currentIndex ≠ none ∧
          kernel.terminalPids kernel.currentIndex ≠ kernel.currentPid then
        some { machine with kernel := kernel, running := .tick .calling :: rest }
      else some { machine with kernel := kernel, running := .tick (.choosing rounds) :: rest }
  | .calling =>
      (machine.kernel.terminalPids machine.kernel.currentIndex).map fun pid =>
        { machine with
          kernel := (processSwitch machine.kernel pid).1
          running := [.tick (.switching pid)]
          saved := machine.savePath (.tick .switched :: rest) }
  | .switching pid => some { machine with running := machine.saved pid }
  | .switched => some { machine with running := rest }

/-- The next step of the innermost function. -/
def advance (image : Image) (machine : Machine) : Option Machine :=
  match machine.running with
  | .create creation stage :: rest => machine.advanceCreate image creation rest stage
  | .tick stage :: rest => machine.advanceTick rest stage
  | _ => none

/-- The running program executes a command. -/
def execute (image : Image) (command staleArgs : Bytes) (machine : Machine) : Option Machine :=
  match machine.running, machine.kernel.currentPid with
  | .user :: rest, some current =>
      some { machine with
        running := enterCreate image command staleArgs (machine.kernel.pcb current).terminalId
          .inExecute (some current) (.user :: rest) }
  | _, _ => none

/-- The running program halts: back to the parent, whose `process_start`,
`execute_handler` and system call return with interrupts disabled, or into the
restart of the shell. -/
def halt (image : Image) (status : UInt32) (machine : Machine) : Option Machine :=
  match machine.running, machine.kernel.currentPid with
  | .user :: _, some pid =>
      (closeDescriptors machine.kernel).map fun kernel =>
        match (kernel.pcb pid).parentPcb with
        | none =>
            { machine with
              kernel := { kernel with currentPid := none }.setActive pid .unused
              running := enterCreate image shellName [] (kernel.pcb pid).terminalId .inHalt
                (some pid) [.user]
              live := machine.live.erase pid }
        | some parent =>
            { machine with
              kernel := (returnToParent kernel pid parent status).1
              running := (machine.saved parent).tail
              live := machine.live.erase pid }
  | _, _ => none

/-- Alt and a function key: `switch_terminal` up to `process_create`. -/
def key (image : Image) (termId : Terminal) (machine : Machine) : Machine :=
  if termId = machine.kernel.currentTerminal then machine
  else if machine.kernel.getFreePid = none ∧ machine.kernel.terminalActive termId = false then
    machine
  else if machine.kernel.terminalActive termId = false then
    { machine with
      kernel := { machine.kernel with
        currentTerminal := termId
        terminalActive := Function.update machine.kernel.terminalActive termId true }
      running := enterCreate image shellName [] termId .inSwitchTerminal
        machine.kernel.currentPid machine.running }
  else { machine with kernel := { machine.kernel with currentTerminal := termId } }

end Machine

inductive Label where
  | advance
  | execute (command staleArgs : Bytes)
  | halt (status : UInt32)
  | key (termId : Terminal)
  | tick

/-- One step, or one interrupt. -/
def Machine.step (image : Image) : Step Machine Label
  | machine, .advance => machine.advance image
  | machine, .execute command staleArgs => machine.execute image command staleArgs
  | machine, .halt status => machine.halt image status
  | machine, .key termId => some (machine.key image termId)
  | machine, .tick => some { machine with running := .tick .entered :: machine.running }

/-- The end of `entry`: `process_create` for the first shell, and the idle loop
below it. -/
def Machine.start (image : Image) (pcb : Pid → Pcb) (frames : Pid → Frame) : Machine where
  kernel := bootKernel pcb frames
  running := enterCreate image shellName [] 0 .inBoot none [.idle]
  saved := fun _ => []
  live := []

/-! ### What the steps do to `active_pids` -/

theorem activePids_finishCreate {image : Image} {inode : Nat} {fileArgs : Bytes}
    {terminal : Terminal} {hasParent : Bool} {kernel kernel' : Kernel} {pid : Pid}
    (finished : finishCreate image inode fileArgs terminal hasParent kernel pid = some kernel') :
    kernel'.activePids = kernel.activePids := by
  rcases Option.map_eq_some_iff.mp finished with ⟨frame, -, rfl⟩
  rfl

/-- How one step changes which pids are in use. -/
inductive PidMove (label : Label) (machine machine' : Machine) : Prop where
  | keep : machine'.live = machine.live →
      (∀ pid, machine'.kernel.activePids pid = .unused ↔ machine.kernel.activePids pid = .unused) →
      PidMove label machine machine'
  | store {creation : Creation} {pid : Pid} {rest : Path} : label = .advance →
      machine.running = .create creation (.scanned pid) :: rest →
      machine'.live = machine.live ++ [pid] →
      machine'.kernel.activePids = Function.update machine.kernel.activePids pid .created →
      PidMove label machine machine'
  | free {pid : Pid} : machine'.live = machine.live.erase pid →
      machine'.kernel.activePids = Function.update machine.kernel.activePids pid .unused →
      PidMove label machine machine'

theorem PidMove.same {label : Label} {machine machine' : Machine} (live : machine'.live = machine.live)
    (activePids : machine'.kernel.activePids = machine.kernel.activePids) :
    PidMove label machine machine' := by
  apply PidMove.keep live
  intro pid
  rw [activePids]

theorem pidMove_advanceCreate {image : Image} {machine machine' : Machine} {creation : Creation}
    {stage : CreateStage} {rest : Path} (top : machine.running = .create creation stage :: rest)
    (taken : machine.advanceCreate image creation rest stage = some machine') :
    PidMove .advance machine machine' := by
  cases stage with
  | entered =>
      rw [Machine.advanceCreate] at taken
      split at taken
      · cases taken
        exact .same rfl rfl
      · cases taken
        exact .same rfl rfl
  | scanned pid =>
      cases taken
      exact .store rfl top rfl rfl
  | stored pid =>
      rcases Option.map_eq_some_iff.mp taken with ⟨created, finished, rfl⟩
      have activePids := activePids_finishCreate finished
      split_ifs with notCreated
      · exact .same rfl activePids
      · refine .keep rfl fun other => ?_
        show Function.update created.activePids pid .active other = .unused ↔ _
        rw [activePids] at notCreated ⊢
        by_cases here : other = pid
        · subst here
          rw [Function.update_self, not_not.mp notCreated]
          decide
        · rw [Function.update_of_ne here]
  | entering pid =>
      cases taken
      exact .same rfl rfl
  | started =>
      cases taken
      exact .same rfl rfl

theorem pidMove_advanceTick {machine machine' : Machine} {stage : TickStage} {rest : Path}
    (taken : machine.advanceTick rest stage = some machine') :
    PidMove .advance machine machine' := by
  cases stage with
  | entered =>
      cases taken
      rcases fields_of_updateCounters (List.finRange 3) machine.kernel with ⟨pcb, counted⟩
      refine .same rfl ?_
      show ((List.finRange 3).foldl updateCounters machine.kernel).activePids = _
      rw [counted]
  | counted =>
      dsimp only [Machine.advanceTick] at taken
      split_ifs at taken <;> cases taken <;> exact .same rfl rfl
  | choosing rounds =>
      cases rounds with
      | zero =>
          cases taken
          exact .same rfl rfl
      | succ rounds =>
          dsimp only [Machine.advanceTick] at taken
          split_ifs at taken <;> cases taken <;> exact .same rfl rfl
  | calling =>
      rcases Option.map_eq_some_iff.mp taken with ⟨pid, -, rfl⟩
      exact .same rfl rfl
  | switching pid =>
      cases taken
      exact .same rfl rfl
  | switched =>
      cases taken
      exact .same rfl rfl

theorem pidMove_halt {image : Image} {status : UInt32} {machine machine' : Machine}
    (taken : machine.halt image status = some machine') :
    PidMove (.halt status) machine machine' := by
  unfold Machine.halt at taken
  split at taken
  · rcases Option.map_eq_some_iff.mp taken with ⟨closed, closedEq, rfl⟩
    rcases closeDescriptors_eq_some closedEq with ⟨owner, fds, -, -, rfl⟩
    split
    · exact .free rfl rfl
    · exact .free rfl rfl
  · cases taken

/-- Every step keeps the pids in use, claims one or frees one. -/
theorem pidMove_of_step {image : Image} {machine machine' : Machine} {label : Label}
    (taken : machine.step image label = some machine') : PidMove label machine machine' := by
  cases label with
  | advance =>
      replace taken : machine.advance image = some machine' := taken
      unfold Machine.advance at taken
      split at taken
      · exact pidMove_advanceCreate ‹_› taken
      · exact pidMove_advanceTick taken
      · cases taken
  | execute command staleArgs =>
      replace taken : machine.execute image command staleArgs = some machine' := taken
      unfold Machine.execute at taken
      split at taken
      · cases taken
        exact .same rfl rfl
      · cases taken
  | halt status => exact pidMove_halt taken
  | key termId =>
      cases taken
      unfold Machine.key
      split_ifs <;> exact .same rfl rfl
  | tick =>
      cases taken
      exact .same rfl rfl

/-! ### Exclusive pids -/

/-- No two processes created and not yet halted have the same pid, PCB, kernel
stack or frame. -/
def Machine.Exclusive (machine : Machine) : Prop :=
  machine.live.Nodup ∧ (machine.live.map Kernel.getPcbPointer).Nodup ∧
    (machine.live.map Kernel.getKernelStartEsp).Nodup ∧
    (machine.live.map fun pid => 2 + pid.val).Nodup

theorem getPcbPointer_injective : Function.Injective Kernel.getPcbPointer := by
  intro pid other same
  unfold Kernel.getPcbPointer at same
  exact Fin.ext (by omega)

theorem getKernelStartEsp_injective : Function.Injective Kernel.getKernelStartEsp := by
  intro pid other same
  unfold Kernel.getKernelStartEsp at same
  exact Fin.ext (by omega)

theorem frame_injective : Function.Injective fun pid : Pid => 2 + pid.val := by
  intro pid other same
  dsimp only at same
  exact Fin.ext (by omega)

/-- A pid determines its PCB, its kernel stack and its frame. -/
theorem exclusive_iff_nodup {machine : Machine} : machine.Exclusive ↔ machine.live.Nodup := by
  refine ⟨fun exclusive => exclusive.1, fun nodup => ⟨nodup, ?_, ?_, ?_⟩⟩
  · exact List.Nodup.map getPcbPointer_injective nodup
  · exact List.Nodup.map getKernelStartEsp_injective nodup
  · exact List.Nodup.map frame_injective nodup

/-- The processes created and not yet halted are those whose pid is in use. -/
structure ClaimsOk (machine : Machine) : Prop where
  nodup : machine.live.Nodup
  inUse : ∀ pid, pid ∈ machine.live ↔ machine.kernel.activePids pid ≠ .unused

/-- A store in `active_pids` finds its slot still free. -/
def StoreOnFree (machine : Machine) (label : Label) : Prop :=
  match label, machine.running with
  | .advance, .create _ (.scanned pid) :: _ => machine.kernel.activePids pid = .unused
  | _, _ => True

instance (machine : Machine) (label : Label) : Decidable (StoreOnFree machine label) := by
  unfold StoreOnFree
  split <;> infer_instance

theorem storeOnFree_scanned {machine : Machine} {creation : Creation} {pid : Pid} {rest : Path}
    (top : machine.running = .create creation (.scanned pid) :: rest) :
    StoreOnFree machine .advance ↔ machine.kernel.activePids pid = .unused := by
  unfold StoreOnFree
  rw [top]

/-- A step that is not a store meets the condition. -/
theorem storeOnFree_of_not_store {machine : Machine} {label : Label}
    (noStore : ∀ creation pid rest, label = .advance →
      machine.running ≠ .create creation (.scanned pid) :: rest) :
    StoreOnFree machine label := by
  unfold StoreOnFree
  split
  · exact absurd ‹_› (noStore _ _ _ rfl)
  · trivial

theorem live_of_store {image : Image} {machine machine' : Machine} {creation : Creation}
    {pid : Pid} {rest : Path} (top : machine.running = .create creation (.scanned pid) :: rest)
    (taken : machine.step image .advance = some machine') : machine'.live = machine.live ++ [pid] := by
  replace taken : machine.advance image = some machine' := taken
  unfold Machine.advance at taken
  rw [top] at taken
  cases taken
  rfl

/-- A store keeps the pids exclusive exactly when it finds its slot free. -/
theorem nodup_store_iff {machine machine' : Machine} {pid : Pid} (ok : ClaimsOk machine)
    (live : machine'.live = machine.live ++ [pid]) :
    machine'.live.Nodup ↔ machine.kernel.activePids pid = .unused := by
  rw [live, List.nodup_append]
  have inUse := ok.inUse pid
  constructor
  · rintro ⟨-, -, apart⟩
    by_contra taken
    exact apart pid (inUse.mpr taken) pid List.mem_cons_self rfl
  · intro free
    refine ⟨ok.nodup, List.nodup_singleton pid, ?_⟩
    rintro member isLive other isPid rfl
    rw [List.mem_singleton.mp isPid] at isLive
    exact inUse.mp isLive free

theorem claimsOk_of_pidMove {label : Label} {machine machine' : Machine} (ok : ClaimsOk machine)
    (move : PidMove label machine machine') (nodup : machine'.live.Nodup) : ClaimsOk machine' := by
  refine ⟨nodup, fun other => ?_⟩
  cases move with
  | keep live sameUnused => rw [live, ok.inUse, ne_eq, ne_eq, sameUnused]
  | @store creation pid rest _ top live activePids =>
      rw [live, activePids, List.mem_append, List.mem_singleton]
      by_cases here : other = pid
      · rw [here, Function.update_self]
        simp
      · rw [Function.update_of_ne here, ok.inUse]
        simp [here]
  | @free pid live activePids =>
      rw [live, activePids, ok.nodup.mem_erase_iff]
      by_cases here : other = pid
      · rw [here, Function.update_self]
        simp
      · rw [Function.update_of_ne here, ok.inUse]
        simp [here]

/-- **Exclusive pids, exactly.** In a run from the end of `entry` the pids are
exclusive in every state if and only if every store finds its slot still free. -/
theorem exclusive_iff_storeOnFree (image : Image) (pcb : Pid → Pcb) (frames : Pid → Frame)
    (labels : List Label) :
    Step.AllStates (Machine.step image) Machine.Exclusive (Machine.start image pcb frames) labels ↔
      Step.AllSteps (Machine.step image) StoreOnFree (Machine.start image pcb frames) labels := by
  have startOk : ClaimsOk (Machine.start image pcb frames) :=
    ⟨List.nodup_nil, fun pid => by simp [Machine.start, bootKernel, Kernel.processesInit]⟩
  have exactly : ∀ machine label machine', ClaimsOk machine →
      machine.step image label = some machine' →
      (machine'.Exclusive ↔ StoreOnFree machine label) := by
    intro machine label machine' ok taken
    rw [exclusive_iff_nodup]
    by_cases storing : label = .advance ∧
        ∃ creation pid rest, machine.running = .create creation (.scanned pid) :: rest
    · rcases storing with ⟨rfl, creation, pid, rest, top⟩
      rw [storeOnFree_scanned top, nodup_store_iff ok (live_of_store top taken)]
    · have met : StoreOnFree machine label := storeOnFree_of_not_store
        fun creation pid rest isAdvance top => storing ⟨isAdvance, creation, pid, rest, top⟩
      refine iff_of_true ?_ met
      cases pidMove_of_step taken with
      | keep live _ => exact live ▸ ok.nodup
      | @store creation pid rest isAdvance top _ _ =>
          exact absurd ⟨isAdvance, creation, pid, rest, top⟩ storing
      | free live _ => exact live ▸ ok.nodup.erase _
  exact Step.allStates_iff_allSteps exactly
    (fun machine label machine' ok taken met => claimsOk_of_pidMove ok (pidMove_of_step taken)
      (exclusive_iff_nodup.mp ((exactly machine label machine' ok taken).mpr met)))
    startOk (exclusive_iff_nodup.mpr startOk.nodup)

open Label in
/-- The shells of terminals 1 and 0 execute a command at the same time. The first
has scanned when a tick switches to the second, which gets the same pid; after
eight more ticks the first goes on with its store. -/
def racingExecutes : List Label :=
  .replicate 4 advance ++ [key 1] ++ .replicate 4 advance ++
    [execute shellName [], advance, tick] ++ .replicate 8 advance ++
    [execute shellName []] ++ .replicate 4 advance ++
    (List.replicate 7 [tick, advance, advance]).flatten ++ [tick] ++ .replicate 7 advance

theorem not_forall_exclusive :
    ¬ ∀ image pcb frames labels, Step.AllStates (Machine.step image) Machine.Exclusive
      (Machine.start image pcb frames) labels := by
  intro all
  have ran : (Step.run (Machine.step shellImage)
      (Machine.start shellImage (fun _ => zeroPcb) fun _ _ => 0) racingExecutes).map Machine.live =
        some [0, 1, 2, 2] := by
    decide +kernel
  rcases Option.map_eq_some_iff.mp ran with ⟨final, finalEq, live⟩
  have exclusive := (all _ _ _ racingExecutes).final finalEq
  rw [exclusive_iff_nodup, live] at exclusive
  revert exclusive
  decide

end MonolithicKernel.Process
