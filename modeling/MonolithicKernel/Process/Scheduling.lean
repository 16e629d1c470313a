import MonolithicKernel.Process.LaunchSteps

/-!
Owns what the scheduler picks on the machine that takes interrupts: while no
decision is begun inside a half-finished one, inside the restart of a shell or on
the way of a process off a stack that others will use, `rtc_handler` passes only
active processes to `process_switch`, and there is always a current process whose
stack is saved and kept.

The tick that decides inside the restart of a shell finds the halted process
still in `terminal_pids`.
-/

namespace MonolithicKernel.Process

open MonolithicKernel.FileSystem
open MonolithicKernel.Foundation

/-- A call of `process_switch` gets an active process, and saves the path it
interrupts on a stack that is kept for it. -/
def Machine.SwitchSafe (machine : Machine) : Prop :=
  machine.running.head? = some (.tick .calling) →
    (∃ pid, machine.kernel.terminalPids machine.kernel.currentIndex = some pid ∧
      machine.kernel.activePids pid = .active) ∧
    machine.kernel.currentPid ≠ none ∧
    ∀ frame ∈ machine.running, frame.stranded = false

/-- The step begins to decide in `rtc_handler`, or begins the first shell of a
terminal in `switch_terminal`. -/
def Deciding (machine : Machine) : Label → Prop
  | .advance => machine.running.head? = some (.tick .counted) ∧ machine.kernel.rtcCount - 1 = 0
  | .key termId => termId ≠ machine.kernel.currentTerminal ∧ machine.kernel.getFreePid ≠ none ∧
      machine.kernel.terminalActive termId = false
  | _ => False

instance (machine : Machine) (label : Label) : Decidable (Deciding machine label) := by
  cases label <;> unfold Deciding <;> infer_instance

/-- The step does not decide inside a critical window, and a store in
`active_pids` finds its slot free. -/
def Undisturbed (machine : Machine) (label : Label) : Prop :=
  StoreOnFree machine label ∧ (Deciding machine label → Uncritical machine.running)

instance (machine : Machine) (label : Label) : Decidable (Undisturbed machine label) :=
  inferInstanceAs (Decidable (_ ∧ _))

variable {image : Image}

/-- Before the first process, a path may claim the first terminal. -/
theorem schedulerOk_boot (image : Image) (machine : Machine) (pcb : Pid → Pcb) (frames : Pid → Frame)
    (kernel : machine.kernel = bootKernel pcb frames)
    (fits : ∀ frame ∈ machine.running, frame.Fits image (fun _ => []) none)
    (claimed : (claims machine.running).Sublist [.terminal 0])
    (uncritical : Uncritical machine.running) : machine.SchedulerOk image := by
  have atOther : ∀ holder : Option Pid, holder ≠ none →
      Function.update (fun _ => ([] : Path)) none machine.running holder = [] :=
    fun holder notOwner => Function.update_of_ne notOwner ..
  refine ⟨fun _ => [], Function.update (fun _ => []) none machine.running, none, ?_⟩
  constructor
  case stacked =>
    rw [kernel]
    constructor
    all_goals simp [Linked, bootKernel, Kernel.processesInit]
  case shell => exact fun _ nonempty => absurd rfl nonempty
  case running => exact Function.update_self ..
  case saved => simp
  case elsewhere => exact fun holder notOwner _ => atOther holder notOwner
  case uncritical =>
    intro holder notOwner
    rw [atOther holder notOwner]
    exact List.forall_mem_nil _
  case fits =>
    intro holder frame inPath
    by_cases isOwner : holder = none
    · rw [isOwner, Function.update_self] at inPath
      exact isOwner ▸ fits frame inPath
    · rw [atOther holder isOwner] at inPath
      cases inPath
  case owned =>
    have nothing : Owned (fun _ : Token => False) fun _ : Option Pid => [] :=
      ⟨by simp, by simp, by simp⟩
    have nowValid : Token.Valid machine.kernel (fun _ => []) (.terminal 0) := by
      rw [kernel]
      exact ⟨rfl, rfl⟩
    have first := nothing.acquire none id nowValid fun _ => False.elim
    rw [claims_update, ← Function.update_idem]
    apply first.release none _ fun _ => .inl
    rw [Function.update_self]
    exact claimed
  case mode =>
    rw [kernel]
    exact .calm ⟨rfl, fun _ => rfl, fun _ => rfl⟩ (uncritical.of_suffix (core_suffix _))

/-- `entry` is in `process_create` for the shell of terminal 0. -/
theorem schedulerOk_start (image : Image) (pcb : Pid → Pcb) (frames : Pid → Frame) :
    (Machine.start image pcb frames).SchedulerOk image := by
  have started : (Machine.start image pcb frames).running =
      enterCreate image shellName [] 0 .inBoot none [.idle] := rfl
  rcases enterCreate_cases image shellName [] 0 .inBoot none [.idle] with
    same | ⟨inode, fileArgs, found, entered⟩
  · rw [same] at started
    apply schedulerOk_boot image _ pcb frames rfl <;> rw [started]
    · exact List.forall_mem_singleton.mpr trivial
    · exact List.nil_sublist _
    · exact List.forall_mem_singleton.mpr rfl
  · rw [scanCommand_shellName] at found
    rw [entered] at started
    apply schedulerOk_boot image _ pcb frames rfl <;> rw [started]
    · exact List.forall_mem_cons.mpr ⟨⟨inode, found⟩, List.forall_mem_singleton.mpr trivial⟩
    · exact List.Sublist.refl _
    · exact List.forall_mem_cons.mpr ⟨rfl, List.forall_mem_singleton.mpr rfl⟩

theorem schedulerOk_advance {machine machine' : Machine} (ok : machine.SchedulerOk image)
    (undisturbed : Undisturbed machine .advance) (taken : machine.advance image = some machine') :
    machine'.SchedulerOk image := by
  rcases ok with ⟨stack, paths, owner, scheduled⟩
  unfold Machine.advance at taken
  split at taken
  · rename_i creation stage rest top
    cases stage with
    | entered => exact scheduled.createEntered top taken
    | scanned pid =>
        exact scheduled.createScanned top ((storeOnFree_scanned top).mp undisturbed.1) taken
    | stored pid => exact scheduled.createStored top taken
    | entering pid => exact scheduled.createEntering top taken
    | started => exact scheduled.createStarted top taken
  · rename_i stage rest top
    cases stage with
    | entered => exact scheduled.tickEntered top taken
    | counted =>
        apply scheduled.tickCounted top _ taken
        intro decides
        exact undisturbed.2 ⟨by rw [top]; rfl, decides⟩
    | choosing rounds => exact scheduled.tickChoosing top taken
    | calling => exact scheduled.tickCalling top taken
    | switching next => exact scheduled.tickSwitching top taken
    | switched => exact scheduled.tickSwitched top taken
  · cases taken

theorem schedulerOk_step {machine machine' : Machine} {label : Label}
    (ok : machine.SchedulerOk image) (undisturbed : Undisturbed machine label)
    (taken : machine.step image label = some machine') : machine'.SchedulerOk image := by
  cases label with
  | advance => exact schedulerOk_advance ok undisturbed taken
  | execute command staleArgs =>
      rcases ok with ⟨stack, paths, owner, scheduled⟩
      exact scheduled.execute taken
  | halt status =>
      rcases ok with ⟨stack, paths, owner, scheduled⟩
      exact scheduled.halt taken
  | key termId =>
      rcases ok with ⟨stack, paths, owner, scheduled⟩
      cases taken
      apply scheduled.key
      intro other free inactive
      exact undisturbed.2 ⟨other, free, inactive⟩
  | tick =>
      rcases ok with ⟨stack, paths, owner, scheduled⟩
      cases taken
      exact scheduled.tick

theorem switchSafe_of_schedulerOk {machine : Machine} (ok : machine.SchedulerOk image) :
    machine.SwitchSafe := by
  intro calling
  rcases ok with ⟨stack, paths, owner, scheduled⟩
  rcases List.head?_eq_some_iff.mp calling with ⟨rest, top⟩
  have mode := scheduled.mode
  rw [top, core_loud rfl] at mode
  cases mode with
  | calm _ uncritical => cases uncritical.head
  | @calling current _ calm chosen uncritical =>
      have kept : ∀ frame ∈ machine.running, frame.stranded = false := by
        rw [top]
        exact List.forall_mem_cons.mpr ⟨rfl, uncritical.not_stranded⟩
      refine ⟨?_, by simp [calm.currentPid], kept⟩
      rcases Option.ne_none_iff_exists'.mp chosen with ⟨pid, pointed⟩
      have isTop := (calm.2.2.2 _).symm.trans pointed
      rcases List.head?_eq_some_iff.mp isTop with ⟨others, onTop⟩
      exact ⟨pid, pointed, active_of_top scheduled.stacked onTop⟩

/-- **The scheduler runs live processes only.** In a run from the end of `entry`
whose decisions begin outside the critical windows and whose stores find their
slots free, every call of `process_switch` is safe. -/
theorem switchSafe_of_undisturbed (image : Image) (pcb : Pid → Pcb) (frames : Pid → Frame)
    (labels : List Label)
    (undisturbed : Step.AllSteps (Machine.step image) Undisturbed
      (Machine.start image pcb frames) labels) :
    Step.AllStates (Machine.step image) Machine.SwitchSafe (Machine.start image pcb frames) labels :=
  Step.allStates_of_allSteps (fun _ _ _ => schedulerOk_step) (fun _ => switchSafe_of_schedulerOk)
    (schedulerOk_start image pcb frames) undisturbed

open Label in
/-- Two shells, a tick that switches from the second to the first and one back, and one
that finds the child of the second between `sti` and `iret`. -/
def switchingShells : List Label :=
  .replicate 4 advance ++ [key 1] ++ .replicate 4 advance ++ [tick] ++ .replicate 8 advance ++
    (List.replicate 7 [tick, advance, advance]).flatten ++ [tick] ++ .replicate 6 advance ++
    [execute shellName []] ++ .replicate 3 advance ++
    (List.replicate 7 [tick, advance, advance]).flatten ++ [tick] ++ .replicate 6 advance

theorem switchSafe_switchingShells :
    Step.AllStates (Machine.step shellImage) Machine.SwitchSafe
      (Machine.start shellImage (fun _ => zeroPcb) fun _ _ => 0) switchingShells :=
  switchSafe_of_undisturbed shellImage _ _ switchingShells (by decide +kernel)

open Label in
/-- The first shell halts, and the first tick finds its restart on the way. -/
def tickedRestart : List Label :=
  .replicate 4 advance ++ [halt 0, tick] ++ .replicate 5 advance

theorem not_forall_switchSafe :
    ¬ ∀ image pcb frames labels, Step.AllStates (Machine.step image) Machine.SwitchSafe
      (Machine.start image pcb frames) labels := by
  intro all
  have ran : (Step.run (Machine.step shellImage)
      (Machine.start shellImage (fun _ => zeroPcb) fun _ _ => 0) tickedRestart).map
        (fun machine => (machine.running.head?, machine.kernel.currentPid)) =
        some (some (.tick .calling), none) := by
    decide +kernel
  rcases Option.map_eq_some_iff.mp ran with ⟨final, finalEq, shape⟩
  have safe := (all _ _ _ tickedRestart).final finalEq
  exact (safe (congrArg Prod.fst shape)).2.1 (congrArg Prod.snd shape)

end MonolithicKernel.Process
