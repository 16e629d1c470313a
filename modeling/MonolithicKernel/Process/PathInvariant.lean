import MonolithicKernel.Foundation.Ownership
import MonolithicKernel.Process.Effects
import MonolithicKernel.Process.Preemption

/-!
Owns the invariant of the interrupted machine: which kernel path belongs to which
process, what the functions on the paths have claimed, and how the tables relate
to the function that is innermost when the timer ticks that have not come to a
decision yet are left out.

The windows in which the tables are half changed are the critical activations.
No path but the running one contains one, and it has at most one.

Does not own the steps that start, halt or switch processes.
-/

namespace MonolithicKernel.Process

open MonolithicKernel.FileSystem
open MonolithicKernel.Foundation
open MonolithicKernel.Lib

/-! ### Windows of a path -/

/-- A tick that has not come to a decision. -/
def Activation.quiet : Activation → Bool
  | .tick .entered | .tick .counted => true
  | _ => false

/-- A process between `sti` and `iret` is still on the stack of its creator. A parent
waits there until the child halts; a process that was interrupted goes on there, and a
halted one leaves the stack to the next process with its pid. -/
def Activation.stranded : Activation → Bool
  | .create creation (.entering pid) =>
      creation.caller ≠ .inExecute ∧ creation.host ≠ none ∧ creation.host ≠ some pid
  | _ => false

/-- The restart of a shell in `halt_handler`, the way from the check in `rtc_handler` to
the stack switch in `process_switch`, and the end of a `process_start` whose stack others
will use. -/
def Activation.critical : Activation → Bool
  | .create creation (.entering pid) => (Activation.create creation (.entering pid)).stranded
  | .create _ .started => false
  | .create creation _ => creation.caller = .inHalt
  | .tick .calling | .tick (.switching _) => true
  | _ => false

theorem Activation.critical_of_stranded {frame : Activation} (stranded : frame.stranded = true) :
    frame.critical = true := by
  cases frame with
  | create creation stage =>
      cases stage with
      | entering pid => exact stranded
      | entered => cases stranded
      | scanned pid => cases stranded
      | stored pid => cases stranded
      | started => cases stranded
  | idle => cases stranded
  | user => cases stranded
  | tick stage => cases stranded

/-- The path without the quiet ticks on top of it. -/
def core (path : Path) : Path := path.dropWhile Activation.quiet

/-- No activation of the path is critical. -/
def Uncritical (path : Path) : Prop := ∀ frame ∈ path, frame.critical = false

instance (path : Path) : Decidable (Uncritical path) :=
  inferInstanceAs (Decidable (∀ frame ∈ path, frame.critical = false))

@[simp] theorem core_quiet {frame : Activation} {path : Path} (quiet : frame.quiet = true) :
    core (frame :: path) = core path :=
  List.dropWhile_cons_of_pos quiet

@[simp] theorem core_loud {frame : Activation} {path : Path} (loud : frame.quiet = false) :
    core (frame :: path) = frame :: path :=
  List.dropWhile_cons_of_neg (by simp [loud])

theorem core_suffix (path : Path) : core path <:+ path := List.dropWhile_suffix _

theorem Uncritical.of_suffix {path rest : Path} (uncritical : Uncritical path)
    (suffix : rest <:+ path) : Uncritical rest :=
  fun frame member => uncritical frame (suffix.subset member)

theorem Uncritical.head {frame : Activation} {path : Path} (uncritical : Uncritical (frame :: path)) :
    frame.critical = false :=
  uncritical frame List.mem_cons_self

theorem Uncritical.tail {frame : Activation} {path : Path} (uncritical : Uncritical (frame :: path)) :
    Uncritical path :=
  uncritical.of_suffix (List.suffix_cons frame path)

theorem Uncritical.cons {frame : Activation} {path : Path} (uncritical : Uncritical path)
    (noncritical : frame.critical = false) : Uncritical (frame :: path) :=
  List.forall_mem_cons.mpr ⟨noncritical, uncritical⟩

theorem Uncritical.not_stranded {path : Path} (uncritical : Uncritical path) :
    ∀ frame ∈ path, frame.stranded = false := by
  intro frame inPath
  by_contra stranded
  have critical := Activation.critical_of_stranded (Bool.eq_true_of_not_eq_false stranded)
  cases critical.symm.trans (uncritical frame inPath)

/-! ### Claims of the functions on a path -/

/-- A pid claimed for a process that is not yet started, or a terminal whose
first process is on its way. -/
inductive Token where
  | pid (pid : Pid)
  | terminal (terminal : Terminal)
deriving DecidableEq

def Token.Valid (kernel : Kernel) (stack : Stacks) : Token → Prop
  | .pid claimed => kernel.activePids claimed = .created
  | .terminal claimed => kernel.terminalActive claimed = true ∧ stack claimed = []

/-- A claim is valid by two fields of the kernel. -/
theorem Token.Valid.congr {kernel kernel' : Kernel} {stack : Stacks} {token : Token}
    (valid : token.Valid kernel stack) (activePids : kernel'.activePids = kernel.activePids)
    (terminalActive : kernel'.terminalActive = kernel.terminalActive) :
    token.Valid kernel' stack := by
  cases token with
  | pid claimed => exact (congrFun activePids claimed).trans valid
  | terminal claimed => exact ⟨(congrFun terminalActive claimed).trans valid.1, valid.2⟩

def Creation.tokens (creation : Creation) : List Token :=
  if creation.caller = .inExecute then [] else [.terminal creation.terminal]

def Activation.tokens : Activation → List Token
  | .create creation (.stored pid) => .pid pid :: creation.tokens
  | .create _ (.entering _) | .create _ .started => []
  | .create creation _ => creation.tokens
  | _ => []

/-- What the functions on a path have claimed. -/
def claims (path : Path) : List Token := path.flatMap Activation.tokens

@[simp] theorem claims_cons (frame : Activation) (path : Path) :
    claims (frame :: path) = frame.tokens ++ claims path := rfl

theorem claims_singleton (frame : Activation) : claims [frame] = frame.tokens :=
  List.append_nil _

theorem claims_sublist_of_suffix {path rest : Path} (suffix : rest <:+ path) :
    (claims rest).Sublist (claims path) := by
  rcases suffix with ⟨front, rfl⟩
  rw [claims, claims, List.flatMap_append]
  exact List.sublist_append_right _ _

/-- A child is executed by the process whose path it is on, on the terminal of
that process, and enters its program there; any other creation is of the shell in
the image. -/
def Activation.Fits (image : Image) (stack : Stacks) (holder : Option Pid) : Activation → Prop
  | .create creation _ =>
      if creation.caller = .inExecute then
        ∃ pid, holder = some pid ∧ pid ∈ stack creation.terminal
      else ∃ inode, findExecutable image shellName = some inode
  | _ => True

/-- Other stacks fit as well when the holder keeps its place. -/
theorem Activation.Fits.mono {image : Image} {stack stack' : Stacks} {holder : Option Pid}
    {frame : Activation} (fits : frame.Fits image stack holder)
    (stays : ∀ pid, holder = some pid → ∀ terminal, pid ∈ stack terminal → pid ∈ stack' terminal) :
    frame.Fits image stack' holder := by
  cases frame with
  | idle => trivial
  | user => trivial
  | tick stage => trivial
  | create creation stage =>
      dsimp only [Activation.Fits] at fits ⊢
      split_ifs at fits ⊢
      · rcases fits with ⟨pid, isHolder, inStack⟩
        exact ⟨pid, isHolder, stays pid isHolder _ inStack⟩
      · exact fits

/-! ### The running path and the tables -/

/-- The tables while the running path is not critical: nothing is started yet, or
a top runs and `terminal_pids` points at the tops. -/
def Calm (kernel : Kernel) (stack : Stacks) : Option Pid → Prop
  | none => kernel.currentPid = none ∧ (∀ terminal, kernel.terminalPids terminal = none) ∧
      ∀ terminal, stack terminal = []
  | some pid => kernel.currentPid = some pid ∧ kernel.fileDescriptors = some pid ∧
      (∃ terminal rest, stack terminal = pid :: rest) ∧
      ∀ terminal, kernel.terminalPids terminal = (stack terminal).head?

/-- The process of a creation is not started yet. -/
def CreateStage.unfinished : CreateStage → Bool
  | .entering _ | .started => false
  | _ => true

/-- The tables while a root shell is restarted: `terminal_pids` still points at
the process that has halted. -/
structure Restarting (kernel : Kernel) (stack : Stacks) (creation : Creation)
    (stage : CreateStage) : Prop where
  currentPid : kernel.currentPid = none
  caller : creation.caller = .inHalt
  unfinished : stage.unfinished = true
  free : stage = .entered → ∃ pid, kernel.activePids pid = .unused
  tops : ∀ terminal, terminal ≠ creation.terminal →
    kernel.terminalPids terminal = (stack terminal).head?
  halted : ∀ pid, kernel.terminalPids creation.terminal = some pid →
    kernel.activePids pid ≠ .active

/-- The owner of the running path, and the tables, by the core of that path. -/
inductive Mode (kernel : Kernel) (stack : Stacks) : Option Pid → Path → Prop where
  | calm {owner : Option Pid} {path : Path} : Calm kernel stack owner → Uncritical path →
      Mode kernel stack owner path
  | calling {pid : Pid} {path : Path} : Calm kernel stack (some pid) →
      kernel.terminalPids kernel.currentIndex ≠ none → Uncritical path →
      Mode kernel stack (some pid) (.tick .calling :: path)
  | switching {pid : Pid} : Calm kernel stack (some pid) →
      Mode kernel stack none [.tick (.switching pid)]
  | entering {creation : Creation} {pid : Pid} : Calm kernel stack (some pid) →
      Mode kernel stack (some pid) [.create creation (.entering pid)]
  | restart {creation : Creation} {stage : CreateStage} :
      Restarting kernel stack creation stage →
      Mode kernel stack none [.create creation stage, .user]

/-- The stacks, the path that belongs to each process, and the owner of the
running path. A path outside of any process belongs to `none`. -/
structure Scheduled (image : Image) (machine : Machine) (stack : Stacks)
    (paths : Option Pid → Path) (owner : Option Pid) : Prop where
  stacked : Stacked machine.kernel.pcb machine.kernel.activePids stack
  shell : ∀ terminal, stack terminal ≠ [] → machine.kernel.terminalActive terminal = true ∧
    ∃ inode, findExecutable image shellName = some inode
  running : paths owner = machine.running
  saved : ∀ terminal, ∀ pid ∈ stack terminal, some pid ≠ owner → paths (some pid) = machine.saved pid
  elsewhere : ∀ holder, holder ≠ owner → (∀ pid, holder = some pid → ∀ terminal, pid ∉ stack terminal) →
    paths holder = []
  uncritical : ∀ holder, holder ≠ owner → Uncritical (paths holder)
  fits : ∀ holder, ∀ frame ∈ paths holder, frame.Fits image stack holder
  owned : Owned (Token.Valid machine.kernel stack) fun holder => claims (paths holder)
  mode : Mode machine.kernel stack owner (core machine.running)

/-- The machine has stacks and paths as `Scheduled` says. -/
def Machine.SchedulerOk (image : Image) (machine : Machine) : Prop :=
  ∃ stack paths owner, Scheduled image machine stack paths owner

section Tables

variable {kernel kernel' : Kernel} {stack : Stacks} {owner : Option Pid} {path : Path}

/-- `Calm` reads three fields of the kernel. -/
theorem Calm.congr (calm : Calm kernel stack owner) (currentPid : kernel'.currentPid = kernel.currentPid)
    (fileDescriptors : kernel'.fileDescriptors = kernel.fileDescriptors)
    (terminalPids : kernel'.terminalPids = kernel.terminalPids) : Calm kernel' stack owner := by
  cases owner with
  | none => exact ⟨currentPid.trans calm.1, terminalPids ▸ calm.2.1, calm.2.2⟩
  | some pid =>
      exact ⟨currentPid.trans calm.1, fileDescriptors.trans calm.2.1, calm.2.2.1,
        terminalPids ▸ calm.2.2.2⟩

theorem Calm.currentPid (calm : Calm kernel stack owner) : kernel.currentPid = owner := by
  cases owner with
  | none => exact calm.1
  | some pid => exact calm.1

theorem Calm.currentOnTop (calm : Calm kernel stack owner) : CurrentOnTop kernel stack := by
  intro current isCurrent
  rw [calm.currentPid] at isCurrent
  subst isCurrent
  exact calm.2.2.1

theorem Calm.terminalsNotBelow (calm : Calm kernel stack owner)
    (stacked : Stacked kernel.pcb kernel.activePids stack) : TerminalsNotBelow kernel stack := by
  intro terminal pid pointed
  cases owner with
  | none => cases (calm.2.1 terminal).symm.trans pointed
  | some current =>
      rw [calm.2.2.2 terminal] at pointed
      rcases List.head?_eq_some_iff.mp pointed with ⟨rest, top⟩
      exact stacked.head_not_mem_tail top

theorem Mode.terminalsNotBelow (mode : Mode kernel stack owner path)
    (stacked : Stacked kernel.pcb kernel.activePids stack) : TerminalsNotBelow kernel stack := by
  cases mode with
  | calm calm _ => exact calm.terminalsNotBelow stacked
  | calling calm _ _ => exact calm.terminalsNotBelow stacked
  | switching calm => exact calm.terminalsNotBelow stacked
  | entering calm => exact calm.terminalsNotBelow stacked
  | @restart creation stage restarting =>
      intro terminal pid pointed other below
      by_cases here : terminal = creation.terminal
      · subst here
        exact restarting.halted pid pointed (stacked.active other pid (List.mem_of_mem_tail below))
      · rw [restarting.tops terminal here] at pointed
        rcases List.head?_eq_some_iff.mp pointed with ⟨rest, top⟩
        exact stacked.head_not_mem_tail top other below

/-- New PCBs, another tick count and another keyboard focus change no mode. -/
theorem Mode.congr (mode : Mode kernel stack owner path)
    (currentPid : kernel'.currentPid = kernel.currentPid)
    (fileDescriptors : kernel'.fileDescriptors = kernel.fileDescriptors)
    (terminalPids : kernel'.terminalPids = kernel.terminalPids)
    (currentIndex : kernel'.currentIndex = kernel.currentIndex)
    (activePids : kernel'.activePids = kernel.activePids) : Mode kernel' stack owner path := by
  cases mode with
  | calm calm uncritical =>
      exact .calm (calm.congr currentPid fileDescriptors terminalPids) uncritical
  | calling calm chosen uncritical =>
      refine .calling (calm.congr currentPid fileDescriptors terminalPids) ?_ uncritical
      rwa [terminalPids, currentIndex]
  | switching calm => exact .switching (calm.congr currentPid fileDescriptors terminalPids)
  | entering calm => exact .entering (calm.congr currentPid fileDescriptors terminalPids)
  | restart restarting =>
      apply Mode.restart
      constructor
      case currentPid => exact currentPid.trans restarting.currentPid
      case caller => exact restarting.caller
      case unfinished => exact restarting.unfinished
      case free => exact activePids ▸ restarting.free
      case tops => exact terminalPids ▸ restarting.tops
      case halted => exact activePids ▸ terminalPids ▸ restarting.halted

/-- Only a critical activation disturbs the tables. -/
theorem Mode.calm_of_uncritical (mode : Mode kernel stack owner path) (uncritical : Uncritical path) :
    Calm kernel stack owner := by
  cases mode with
  | calm calm _ => exact calm
  | calling _ _ _ => cases uncritical _ List.mem_cons_self
  | switching _ => cases uncritical _ List.mem_cons_self
  | entering calm => exact calm
  | @restart creation stage restarting =>
      have critical := uncritical _ List.mem_cons_self
      cases stage with
      | started => cases restarting.unfinished
      | entering pid => cases restarting.unfinished
      | entered => simp [Activation.critical, restarting.caller] at critical
      | scanned pid => simp [Activation.critical, restarting.caller] at critical
      | stored pid => simp [Activation.critical, restarting.caller] at critical

/-- Below an innermost activation that is neither quiet nor critical, nothing is. -/
theorem Mode.calm_of_top {frame : Activation} (mode : Mode kernel stack owner (frame :: path))
    (noncritical : frame.critical = false) :
    Calm kernel stack owner ∧ Uncritical (frame :: path) := by
  have uncritical : Uncritical (frame :: path) := by
    cases mode with
    | calm _ uncritical => exact uncritical
    | calling _ _ uncritical => exact uncritical.cons noncritical
    | switching _ => cases noncritical
    | entering _ => exact Uncritical.cons (List.forall_mem_nil _) noncritical
    | restart _ =>
        apply Uncritical.cons _ noncritical
        intro other member
        rw [List.mem_singleton.mp member]
        rfl
  exact ⟨mode.calm_of_uncritical uncritical, uncritical⟩

end Tables

/-! ### Steps of the running path -/

section Steps

variable {image : Image} {machine machine' : Machine} {stack : Stacks}
  {paths : Option Pid → Path} {owner : Option Pid}

/-- Two lists of claims, with the owner's replaced. -/
theorem claims_update (path : Path) :
    (fun holder => claims (Function.update paths owner path holder)) =
      Function.update (fun holder => claims (paths holder)) owner (claims path) := by
  funext holder
  exact Function.apply_update (fun _ => claims) paths owner path holder

/-- The running path goes on as another path, with `owned` as its claims. -/
theorem Scheduled.rerun (scheduled : Scheduled image machine stack paths owner)
    (stacked : Stacked machine'.kernel.pcb machine'.kernel.activePids stack)
    (shell : ∀ terminal, stack terminal ≠ [] → machine'.kernel.terminalActive terminal = true ∧
      ∃ inode, findExecutable image shellName = some inode)
    (saved : machine'.saved = machine.saved)
    (fits : ∀ frame ∈ machine'.running, frame.Fits image stack owner)
    (owned : Owned (Token.Valid machine'.kernel stack)
      (Function.update (fun holder => claims (paths holder)) owner (claims machine'.running)))
    (mode : Mode machine'.kernel stack owner (core machine'.running)) :
    Scheduled image machine' stack (Function.update paths owner machine'.running) owner where
  stacked := stacked
  shell := shell
  running := Function.update_self ..
  saved terminal pid member notOwner := by
    rw [Function.update_of_ne notOwner, saved]
    exact scheduled.saved terminal pid member notOwner
  elsewhere holder notOwner nowhere := by
    rw [Function.update_of_ne notOwner]
    exact scheduled.elsewhere holder notOwner nowhere
  uncritical holder notOwner := by
    rw [Function.update_of_ne notOwner]
    exact scheduled.uncritical holder notOwner
  fits holder frame member := by
    by_cases isOwner : holder = owner
    · subst isOwner
      rw [Function.update_self] at member
      exact fits frame member
    · rw [Function.update_of_ne isOwner] at member
      exact scheduled.fits holder frame member
  owned := by
    rw [claims_update]
    exact owned
  mode := mode

theorem Scheduled.fits_running {frame : Activation} {rest : Path}
    (scheduled : Scheduled image machine stack paths owner) (top : machine.running = frame :: rest) :
    frame.Fits image stack owner ∧ ∀ other ∈ rest, other.Fits image stack owner := by
  have fits := scheduled.fits owner
  rw [scheduled.running, top] at fits
  exact List.forall_mem_cons.mp fits

theorem Scheduled.claims_running {frame : Activation} {rest : Path}
    (scheduled : Scheduled image machine stack paths owner) (top : machine.running = frame :: rest) :
    claims (paths owner) = frame.tokens ++ claims rest := by
  rw [scheduled.running, top, claims_cons]

/-- The innermost function goes on as `front`, without new claims. -/
theorem Scheduled.goOn {frame : Activation} {rest : Path}
    (scheduled : Scheduled image machine stack paths owner) (front : Path)
    (top : machine.running = frame :: rest) (running : machine'.running = front ++ rest)
    (stacked : Stacked machine'.kernel.pcb machine'.kernel.activePids stack)
    (activePids : machine'.kernel.activePids = machine.kernel.activePids)
    (terminalActive : machine'.kernel.terminalActive = machine.kernel.terminalActive)
    (saved : machine'.saved = machine.saved) (kept : (claims front).Sublist frame.tokens)
    (fits : ∀ other ∈ front, other.Fits image stack owner)
    (mode : Mode machine'.kernel stack owner (core (front ++ rest))) :
    machine'.SchedulerOk image := by
  refine ⟨stack, _, owner, scheduled.rerun stacked
    (terminalActive ▸ scheduled.shell) saved ?_ ?_ (running ▸ mode)⟩
  · intro other member
    rw [running] at member
    rcases List.mem_append.mp member with inFront | inRest
    · exact fits other inFront
    · apply scheduled.fits owner
      rw [scheduled.running, top]
      exact List.mem_cons_of_mem _ inRest
  · apply scheduled.owned.release owner
    · rw [scheduled.claims_running top, running, claims, List.flatMap_append]
      exact kept.append (List.Sublist.refl _)
    · intro token valid
      exact .inl (valid.congr activePids terminalActive)

/-- The processor goes from one path to another, whose owner is new. The old path
is parked where it will go on, or dropped together with its owner. -/
theorem Scheduled.handOver (scheduled : Scheduled image machine stack paths owner)
    (parked : Path) (owner' : Option Pid) (stack' : Stacks) (differs : owner ≠ owner')
    (stacked : Stacked machine'.kernel.pcb machine'.kernel.activePids stack')
    (shell : ∀ terminal, stack' terminal ≠ [] →
      machine'.kernel.terminalActive terminal = true ∧
        ∃ inode, findExecutable image shellName = some inode)
    (members : ∀ pid, some pid ≠ owner → some pid ≠ owner' → ∀ terminal,
      (pid ∈ stack' terminal ↔ pid ∈ stack terminal))
    (parkedSaved : ∀ pid, owner = some pid → ∀ terminal, pid ∈ stack' terminal →
      parked = machine'.saved pid)
    (parkedDropped : (∀ pid, owner = some pid → ∀ terminal, pid ∉ stack' terminal) → parked = [])
    (saved : ∀ pid, some pid ≠ owner → machine'.saved pid = machine.saved pid)
    (uncritical : Uncritical parked)
    (fitsParked : ∀ frame ∈ parked, frame.Fits image stack' owner)
    (fitsRunning : ∀ frame ∈ machine'.running, frame.Fits image stack' owner')
    (owned : Owned (Token.Valid machine'.kernel stack')
      (Function.update (Function.update (fun holder => claims (paths holder)) owner (claims parked))
        owner' (claims machine'.running)))
    (mode : Mode machine'.kernel stack' owner' (core machine'.running)) :
    machine'.SchedulerOk image := by
  refine ⟨stack', Function.update (Function.update paths owner parked) owner' machine'.running,
    owner', ?_⟩
  have atOwner : Function.update (Function.update paths owner parked) owner' machine'.running owner =
      parked := by
    rw [Function.update_of_ne differs, Function.update_self]
  have atOther : ∀ holder, holder ≠ owner → holder ≠ owner' →
      Function.update (Function.update paths owner parked) owner' machine'.running holder =
        paths holder := by
    intro holder notOwner notNew
    rw [Function.update_of_ne notNew, Function.update_of_ne notOwner]
  constructor
  case stacked => exact stacked
  case shell => exact shell
  case running => exact Function.update_self ..
  case saved =>
    intro terminal pid inStack notNew
    by_cases isOwner : some pid = owner
    · rw [isOwner, atOwner]
      exact parkedSaved pid isOwner.symm terminal inStack
    · rw [atOther _ isOwner notNew, saved pid isOwner]
      exact scheduled.saved terminal pid ((members pid isOwner notNew terminal).mp inStack) isOwner
  case elsewhere =>
    intro holder notNew nowhere
    by_cases isOwner : holder = owner
    · subst isOwner
      rw [atOwner]
      exact parkedDropped nowhere
    · rw [atOther holder isOwner notNew]
      apply scheduled.elsewhere holder isOwner
      rintro pid rfl terminal inStack
      exact nowhere pid rfl terminal ((members pid isOwner notNew terminal).mpr inStack)
  case uncritical =>
    intro holder notNew
    by_cases isOwner : holder = owner
    · subst isOwner
      rwa [atOwner]
    · rw [atOther holder isOwner notNew]
      exact scheduled.uncritical holder isOwner
  case fits =>
    intro holder frame inPath
    by_cases isNew : holder = owner'
    · subst isNew
      rw [Function.update_self] at inPath
      exact fitsRunning frame inPath
    · by_cases isOwner : holder = owner
      · subst isOwner
        rw [atOwner] at inPath
        exact fitsParked frame inPath
      · rw [atOther holder isOwner isNew] at inPath
        apply (scheduled.fits holder frame inPath).mono
        rintro pid rfl terminal inStack
        exact (members pid isOwner isNew terminal).mpr inStack
  case owned =>
    rw [claims_update, claims_update]
    exact owned
  case mode => exact mode

end Steps

end MonolithicKernel.Process
