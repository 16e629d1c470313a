import MonolithicKernel.Process.PathSteps

/-!
Owns the steps of the interrupted machine that change the stacks: a created
process is started, a process executes a child or halts, and the keyboard starts
the first shell of a terminal.

Does not own runs.
-/

namespace MonolithicKernel.Process

open MonolithicKernel.FileSystem
open MonolithicKernel.Foundation
open MonolithicKernel.Lib

section LaunchSteps

variable {image : Image} {machine machine' : Machine} {stack : Stacks}
  {paths : Option Pid → Path} {owner : Option Pid} {rest : Path}

/-! ### Starting a created process -/

/-- What the tables say when a creation is about to be started: both modes of
its path have no other current process than the owner. -/
structure BeforeStart (kernel : Kernel) (stack : Stacks) (owner : Option Pid) (creation : Creation)
    (rest : Path) : Prop where
  currentPid : kernel.currentPid = owner
  currentOnTop : CurrentOnTop kernel stack
  tops : ∀ terminal, terminal ≠ creation.terminal →
    kernel.terminalPids terminal = (stack terminal).head?
  uncritical : owner ≠ none → Uncritical rest

theorem Mode.beforeStart {creation : Creation} {stage : CreateStage} {kernel : Kernel}
    (mode : Mode kernel stack owner (.create creation stage :: rest)) :
    BeforeStart kernel stack owner creation rest := by
  cases mode with
  | calm calm uncritical =>
      refine ⟨calm.currentPid, calm.currentOnTop, ?_, fun _ => uncritical.tail⟩
      intro terminal _
      cases owner with
      | none => rw [calm.2.1, calm.2.2]; rfl
      | some pid => exact calm.2.2.2 terminal
  | entering calm =>
      exact ⟨calm.currentPid, calm.currentOnTop, fun terminal _ => calm.2.2.2 terminal,
        fun _ => List.forall_mem_nil _⟩
  | restart restarting =>
      refine ⟨restarting.currentPid, ?_, restarting.tops, fun some => absurd rfl some⟩
      intro current isCurrent
      cases restarting.currentPid.symm.trans isCurrent

/-- The terminal of a creation has the parent on top, or nothing yet. -/
theorem Scheduled.parent_of_creation {creation : Creation} {stage : CreateStage}
    (scheduled : Scheduled image machine stack paths owner)
    (top : machine.running = .create creation stage :: rest) (unfinished : stage.unfinished = true)
    (before : BeforeStart machine.kernel stack owner creation rest) :
    ((if creation.caller = .inExecute then machine.kernel.currentPid else none) =
        (stack creation.terminal).head? ∧
      ∀ parent ∈ (stack creation.terminal).head?,
        machine.kernel.currentPid = some parent ∧ creation.caller = .inExecute) ∧
    machine.kernel.terminalActive creation.terminal = true ∧
      ∃ inode, findExecutable image shellName = some inode := by
  have fits := (scheduled.fits_running top).1
  dsimp only [Activation.Fits] at fits
  split_ifs at fits ⊢ with child
  · rcases fits with ⟨parent, isOwner, inStack⟩
    have current := before.currentPid.trans isOwner
    rcases before.currentOnTop parent current with ⟨terminal, others, onTop⟩
    have here : terminal = creation.terminal :=
      scheduled.stacked.terminal_unique (onTop ▸ List.mem_cons_self) inStack
    subst here
    refine ⟨⟨?_, ?_⟩, scheduled.shell creation.terminal (by simp [onTop])⟩
    · rw [onTop, current]
      rfl
    · intro other isHead
      rw [onTop] at isHead
      cases isHead
      exact ⟨current, child⟩
  · have held : Token.terminal creation.terminal ∈ claims (paths owner) := by
      rw [scheduled.claims_running top]
      apply List.mem_append_left
      cases stage with
      | started => cases unfinished
      | entering pid => cases unfinished
      | entered => simp [Activation.tokens, Creation.tokens, child]
      | scanned pid => simp [Activation.tokens, Creation.tokens, child]
      | stored pid => simp [Activation.tokens, Creation.tokens, child]
    have valid := scheduled.owned.valid owner _ held
    rw [valid.2]
    exact ⟨⟨rfl, by simp⟩, valid.1, fits⟩

/-- The claims of a creation that is started are given up. -/
theorem Scheduled.release_creation {creation : Creation} {pid : Pid} {kernel' : Kernel}
    {parent : Option Pid} {kept : List Token}
    (scheduled : Scheduled image machine stack paths owner)
    (top : machine.running = .create creation (.stored pid) :: rest)
    (launched : Launched creation.caller creation.terminal parent machine.kernel kernel' pid)
    (sublist : kept.Sublist (claims rest)) :
    Owned
      (Token.Valid kernel'
        (Function.update stack creation.terminal (pid :: stack creation.terminal)))
      (Function.update (fun holder => claims (paths holder)) owner kept) := by
  have held := scheduled.claims_running top
  have nodup := scheduled.owned.nodup owner
  rw [held] at nodup
  have apart : ∀ token ∈ (Activation.create creation (.stored pid)).tokens, token ∉ kept :=
    fun token mine theirs => List.disjoint_of_nodup_append nodup mine (sublist.subset theirs)
  apply scheduled.owned.release owner
  · rw [held]
    exact sublist.trans (List.sublist_append_right _ _)
  · intro token valid
    rw [held]
    cases token with
    | pid other =>
        by_cases same : other = pid
        · subst same
          have mine : Token.pid other ∈ (Activation.create creation (.stored other)).tokens :=
            List.mem_cons_self
          exact .inr ⟨List.mem_append_left _ mine, apart _ mine⟩
        · left
          show kernel'.activePids other = .created
          rw [launched.activePids, Function.update_of_ne same]
          exact valid
    | terminal other =>
        by_cases same : other = creation.terminal
        · subst same
          have fits := (scheduled.fits_running top).1
          dsimp only [Activation.Fits] at fits
          split_ifs at fits with child
          · rcases fits with ⟨holder, -, inStack⟩
            rw [valid.2] at inStack
            cases inStack
          · have mine : Token.terminal creation.terminal ∈
                (Activation.create creation (.stored pid)).tokens := by
              simp [Activation.tokens, Creation.tokens, child]
            exact .inr ⟨List.mem_append_left _ mine, apart _ mine⟩
        · left
          refine ⟨(congrFun launched.terminalActive other).trans valid.1, ?_⟩
          rw [Function.update_of_ne same]
          exact valid.2

/-- Where the owner's path goes on when the process that it created runs. -/
def parkedCreation (owner : Option Pid) (creation : Creation) (rest : Path) : Path :=
  owner.elim [] fun _ => .create creation .started :: rest

theorem claims_parkedCreation (owner : Option Pid) (creation : Creation) (rest : Path) :
    (claims (parkedCreation owner creation rest)).Sublist (claims rest) := by
  cases owner with
  | none => exact List.nil_sublist _
  | some _ => exact List.Sublist.refl _

theorem Scheduled.start {creation : Creation} {pid : Pid} {kernel' : Kernel}
    (scheduled : Scheduled image machine stack paths owner)
    (top : machine.running = .create creation (.stored pid) :: rest)
    (before : BeforeStart machine.kernel stack owner creation rest)
    (notActive : machine.kernel.activePids pid ≠ .active)
    (launched : Launched creation.caller creation.terminal
      (if creation.caller = .inExecute then machine.kernel.currentPid else none) machine.kernel
      kernel' pid) :
    Machine.SchedulerOk image { machine with
      kernel := kernel'
      running := [.create creation (.entering pid)]
      saved := machine.savePath (.create creation .started :: rest) } := by
  rcases scheduled.parent_of_creation top rfl before with ⟨⟨isParent, waits⟩, active, found⟩
  have fresh := scheduled.stacked.not_mem_of_inactive notActive
  have ownerTop : ∀ parent, owner = some parent →
      ∃ terminal others, stack terminal = parent :: others :=
    fun parent isOwner => before.currentOnTop parent (before.currentPid.trans isOwner)
  have differs : owner ≠ some pid := by
    intro isOwner
    rcases ownerTop pid isOwner with ⟨terminal, others, onTop⟩
    exact fresh terminal (onTop ▸ List.mem_cons_self)
  have grows : ∀ member terminal, member ∈ stack terminal → member ∈
      Function.update stack creation.terminal (pid :: stack creation.terminal) terminal := by
    intro member terminal inStack
    by_cases here : terminal = creation.terminal
    · subst here
      rw [Function.update_self]
      exact List.mem_cons_of_mem _ inStack
    · rwa [Function.update_of_ne here]
  refine scheduled.handOver (parkedCreation owner creation rest) (some pid)
    (Function.update stack creation.terminal (pid :: stack creation.terminal))
    differs (launched.stacked scheduled.stacked notActive before.currentOnTop isParent waits).1
    ?shell ?members ?parkedSaved ?parkedDropped ?saved ?uncritical ?fitsParked ?fitsRunning
    ?owned ?mode
  case shell =>
    intro terminal nonempty
    rw [launched.terminalActive]
    by_cases here : terminal = creation.terminal
    · subst here
      exact ⟨active, found⟩
    · rw [Function.update_of_ne here] at nonempty
      exact scheduled.shell terminal nonempty
  case members =>
    intro member _ notNew terminal
    refine ⟨fun inStack => ?_, grows member terminal⟩
    by_cases here : terminal = creation.terminal
    · subst here
      rw [Function.update_self] at inStack
      exact (List.mem_cons.mp inStack).resolve_left fun same => notNew (congrArg some same)
    · rwa [Function.update_of_ne here] at inStack
  case parkedSaved =>
    intro parent isOwner terminal _
    subst isOwner
    exact (if_pos before.currentPid).symm
  case parkedDropped =>
    intro nowhere
    cases owner with
    | none => rfl
    | some parent =>
        rcases ownerTop parent rfl with ⟨terminal, others, onTop⟩
        exact absurd (grows parent terminal (onTop ▸ List.mem_cons_self))
          (nowhere parent rfl terminal)
  case saved =>
    intro member notOwner
    exact if_neg fun isCurrent => notOwner (isCurrent.symm.trans before.currentPid)
  case uncritical =>
    cases owner with
    | none => exact List.forall_mem_nil _
    | some parent => exact (before.uncritical (by simp)).cons rfl
  case fitsParked =>
    have fits := scheduled.fits_running top
    intro frame inParked
    cases owner with
    | none => cases inParked
    | some parent =>
        have fitsStack : frame.Fits image stack (some parent) := by
          rcases List.mem_cons.mp inParked with rfl | older
          · exact fits.1
          · exact fits.2 frame older
        exact fitsStack.mono fun member _ => grows member
  case fitsRunning =>
    refine List.forall_mem_singleton.mpr ?_
    have fits := (scheduled.fits_running top).1
    dsimp only [Activation.Fits] at fits ⊢
    split_ifs at fits ⊢
    · refine ⟨pid, rfl, ?_⟩
      rw [Function.update_self]
      exact List.mem_cons_self
    · exact fits
  case owned =>
    apply (scheduled.release_creation top launched (claims_parkedCreation ..)).release (some pid)
      (List.nil_sublist _) fun _ => .inl
  case mode =>
    refine .entering ⟨launched.currentPid, launched.fileDescriptors, ?_,
      launched.top before.tops⟩
    exact ⟨creation.terminal, stack creation.terminal, Function.update_self ..⟩

theorem Scheduled.createStored {creation : Creation} {pid : Pid}
    (scheduled : Scheduled image machine stack paths owner)
    (top : machine.running = .create creation (.stored pid) :: rest)
    (taken : machine.advanceCreate image creation rest (.stored pid) = some machine') :
    machine'.SchedulerOk image := by
  have mode := scheduled.mode
  rw [top, core_loud rfl] at mode
  have before := mode.beforeStart
  rcases Option.map_eq_some_iff.mp taken with ⟨created, finished, started⟩
  have claimed : machine.kernel.activePids pid = .created := by
    apply scheduled.owned.valid owner (.pid pid)
    rw [scheduled.claims_running top]
    exact List.mem_cons_self
  have notActive : machine.kernel.activePids pid ≠ .active := by
    rw [claimed]
    decide
  have notCurrent : machine.kernel.currentPid ≠ some pid := by
    intro isCurrent
    rcases before.currentOnTop pid isCurrent with ⟨terminal, others, onTop⟩
    exact notActive (active_of_top scheduled.stacked onTop)
  rw [if_neg (by rw [activePids_finishCreate finished]; exact not_not.mpr claimed)] at started
  subst started
  rcases launched_of_finishCreate creation.caller claimed notCurrent finished with
    ⟨-, -, launched⟩
  apply scheduled.start top before notActive
  simpa using launched

/-! ### Calls of `process_create` -/

theorem enterCreate_cases (image : Image) (command staleArgs : Bytes) (terminal : Terminal)
    (caller : Context) (host : Option Pid) (path : Path) :
    enterCreate image command staleArgs terminal caller host path = path ∨
      ∃ inode fileArgs, findExecutable image (scanCommand staleArgs 32 command).1 = some inode ∧
        enterCreate image command staleArgs terminal caller host path =
          .create ⟨inode, fileArgs, terminal, caller, host⟩ .entered :: path := by
  unfold enterCreate
  dsimp only
  cases found : findExecutable image (scanCommand staleArgs 32 command).1 with
  | none => exact .inl rfl
  | some inode => exact .inr ⟨inode, _, rfl, rfl⟩

theorem scanCommand_shellName : scanCommand [] 32 shellName = (shellName, [0]) := by decide

/-- Executing a child enters `process_create` on the path of the parent. -/
theorem Scheduled.execute {command staleArgs : Bytes}
    (scheduled : Scheduled image machine stack paths owner)
    (taken : machine.execute image command staleArgs = some machine') :
    machine'.SchedulerOk image := by
  unfold Machine.execute at taken
  split at taken
  · rename_i rest current top isCurrent
    have mode := scheduled.mode
    rw [top, core_loud rfl] at mode
    rcases mode.calm_of_top rfl with ⟨calm, uncritical⟩
    obtain rfl : owner = some current := calm.currentPid.symm.trans isCurrent
    rcases calm.2.2.1 with ⟨terminal, others, onTop⟩
    rw [terminalId_of_top scheduled.stacked onTop] at taken
    cases taken
    rcases enterCreate_cases image command staleArgs terminal .inExecute (some current)
      (.user :: rest) with same | ⟨inode, fileArgs, -, entered⟩
    · exact scheduled.goOn [.user] top same scheduled.stacked rfl rfl rfl
        (List.nil_sublist _) (List.forall_mem_singleton.mpr trivial) mode
    · refine scheduled.goOn
        [.create ⟨inode, fileArgs, terminal, .inExecute, some current⟩ .entered, .user] top
        entered scheduled.stacked rfl rfl rfl (List.nil_sublist _) ?_
        (.calm calm (uncritical.cons rfl))
      refine List.forall_mem_cons.mpr ⟨?_, List.forall_mem_singleton.mpr trivial⟩
      exact ⟨current, rfl, onTop ▸ List.mem_cons_self⟩
  · cases taken

/-! ### `halt_handler` -/

theorem not_mem_popped {pcb : Pid → Pcb} {activePids : Pid → PidStatus} {terminal : Terminal}
    {pid : Pid} {others : List Pid} (stacked : Stacked pcb activePids stack)
    (onTop : stack terminal = pid :: others) (other : Terminal) :
    pid ∉ Function.update stack terminal others other := by
  apply (stacked.pop onTop).not_mem_of_inactive
  rw [Function.update_self]
  decide

/-- Popping starts no stack. -/
theorem nonempty_of_popped {terminal other : Terminal} {pid : Pid} {others : List Pid}
    (onTop : stack terminal = pid :: others)
    (nonempty : Function.update stack terminal others other ≠ []) : stack other ≠ [] := by
  by_cases here : other = terminal
  · subst here
    simp [onTop]
  · rwa [Function.update_of_ne here] at nonempty

theorem mem_popped_iff {terminal : Terminal} {pid member : Pid} {others : List Pid}
    (onTop : stack terminal = pid :: others) (notTop : member ≠ pid) (other : Terminal) :
    member ∈ Function.update stack terminal others other ↔ member ∈ stack other := by
  by_cases here : other = terminal
  · subst here
    rw [Function.update_self, onTop, List.mem_cons]
    simp [notTop]
  · rw [Function.update_of_ne here]

/-- Popping a top takes away no other process's claim. -/
theorem popped_valid {kernel : Kernel} {pcb : Pid → Pcb} {terminal : Terminal} {pid : Pid}
    {others : List Pid} (stacked : Stacked pcb kernel.activePids stack)
    (onTop : stack terminal = pid :: others) (token : Token) (valid : token.Valid kernel stack) :
    token.Valid (kernel.setActive pid .unused) (Function.update stack terminal others) := by
  cases token with
  | pid claimed =>
      have different : claimed ≠ pid := by
        rintro rfl
        have active := stacked.active terminal claimed (onTop ▸ List.mem_cons_self)
        cases active.symm.trans valid
      exact (Function.update_of_ne different ..).trans valid
  | terminal claimed =>
      have different : claimed ≠ terminal := by
        rintro rfl
        cases onTop.symm.trans valid.2
      exact ⟨valid.1, (Function.update_of_ne different ..).trans valid.2⟩

/-- A root process leaves its terminal to the restart of the shell. -/
theorem Scheduled.haltRoot {pid : Pid} {terminal : Terminal} {pcb : Pid → Pcb}
    (scheduled : Scheduled image machine stack paths (some pid))
    (calm : Calm machine.kernel stack (some pid)) (onTop : stack terminal = [pid])
    (stacked : Stacked pcb machine.kernel.activePids stack) :
    Machine.SchedulerOk image { machine with
      kernel := { machine.kernel with pcb := pcb, currentPid := none }.setActive pid .unused
      running := enterCreate image shellName [] terminal .inHalt (some pid) [.user]
      live := machine.live.erase pid } := by
  rcases scheduled.shell terminal (by simp [onTop]) with ⟨active, inode, found⟩
  have entered : enterCreate image shellName [] terminal .inHalt (some pid) [.user] =
      [.create ⟨inode, [0], terminal, .inHalt, some pid⟩ .entered, .user] := by
    rw [enterCreate, scanCommand_shellName]
    dsimp only
    rw [found]
  rw [entered]
  refine scheduled.handOver [] none (Function.update stack terminal []) (by simp)
    (stacked.pop onTop) ?shell ?members ?parkedSaved (fun _ => rfl) (fun _ _ => rfl)
    (List.forall_mem_nil _) (List.forall_mem_nil _) ?fitsRunning ?owned ?mode
  case shell =>
    intro other nonempty
    exact scheduled.shell other (nonempty_of_popped onTop nonempty)
  case members =>
    intro member notOwner _ other
    exact mem_popped_iff onTop (fun same => notOwner (congrArg some same)) other
  case parkedSaved =>
    rintro member isOwner other inStack
    cases isOwner
    exact absurd inStack (not_mem_popped stacked onTop other)
  case fitsRunning =>
    exact List.forall_mem_cons.mpr ⟨⟨inode, found⟩, List.forall_mem_singleton.mpr trivial⟩
  case owned =>
    have unowned : paths none = [] := scheduled.elsewhere none (by simp) (by simp)
    have dropped : Owned (Token.Valid machine.kernel stack) (Function.update _ (some pid) []) :=
      scheduled.owned.release (some pid) (List.nil_sublist _) fun _ => .inl
    have wasFree : ¬ Token.Valid machine.kernel stack (.terminal terminal) := by
      simp [Token.Valid, onTop]
    have nowValid : Token.Valid ({ machine.kernel with pcb := pcb, currentPid := none }.setActive
        pid .unused) (Function.update stack terminal []) (.terminal terminal) :=
      ⟨active, Function.update_self ..⟩
    have claimed := dropped.acquire none wasFree nowValid (popped_valid stacked onTop)
    rw [Function.update_of_ne (by simp), unowned] at claimed
    exact claimed
  case mode =>
    apply Mode.restart
    refine ⟨rfl, rfl, rfl, fun _ => ⟨pid, Function.update_self ..⟩, ?_, ?_⟩
    · intro other elsewhere
      rw [Function.update_of_ne elsewhere]
      exact calm.2.2.2 other
    · intro other pointed
      have isTop := (calm.2.2.2 terminal).symm.trans pointed
      rw [onTop] at isTop
      cases isTop
      exact (Function.update_self ..).trans_ne (by decide)

/-- A child gives the processor back to its parent, in `execute_handler`. -/
theorem Scheduled.haltChild {pid parent : Pid} {others : List Pid} {terminal : Terminal}
    {pcb : Pid → Pcb} {status : UInt32}
    (scheduled : Scheduled image machine stack paths (some pid))
    (calm : Calm machine.kernel stack (some pid)) (onTop : stack terminal = pid :: parent :: others)
    (stacked : Stacked pcb machine.kernel.activePids stack) :
    Machine.SchedulerOk image { machine with
      kernel := (returnToParent { machine.kernel with pcb := pcb } pid parent status).1
      running := (machine.saved parent).tail
      live := machine.live.erase pid } := by
  rcases returnToParent_stacked { machine.kernel with pcb := pcb } status
    stacked onTop calm.2.2.2 with
    ⟨kernel', returned, stacked', -, activePids, tops, current, fileDescriptors, -, -, active⟩
  rw [returned]
  have waits : parent ∈ stack terminal := by
    rw [onTop]
    exact List.mem_cons_of_mem _ List.mem_cons_self
  have different : parent ≠ pid := by
    rintro rfl
    exact not_mem_popped stacked onTop terminal (by simp)
  have notOwner : some parent ≠ some pid := fun same => different (Option.some.inj same)
  have parentPath : paths (some parent) = machine.saved parent :=
    scheduled.saved terminal parent waits notOwner
  have uncritical := scheduled.uncritical (some parent) notOwner
  have fits := scheduled.fits (some parent)
  rw [parentPath] at uncritical fits
  refine scheduled.handOver [] (some parent)
    (Function.update stack terminal (parent :: others)) notOwner.symm stacked' ?shell
    ?members ?parkedSaved (fun _ => rfl) (fun _ _ => rfl) (List.forall_mem_nil _)
    (List.forall_mem_nil _) ?fitsRunning ?owned ?mode
  case shell =>
    intro other nonempty
    rw [active]
    exact scheduled.shell other (nonempty_of_popped onTop nonempty)
  case members =>
    intro member isOther _ other
    exact mem_popped_iff onTop (fun same => isOther (congrArg some same)) other
  case parkedSaved =>
    rintro member isOwner other inStack
    cases isOwner
    exact absurd inStack (not_mem_popped stacked onTop other)
  case fitsRunning =>
    intro frame inPath
    apply (fits frame (List.mem_of_mem_tail inPath)).mono
    rintro member isParent other inStack
    cases isParent
    exact (mem_popped_iff onTop different other).mpr inStack
  case owned =>
    have dropped : Owned (Token.Valid kernel' (Function.update stack terminal (parent :: others)))
        (Function.update _ (some pid) []) :=
      scheduled.owned.release (some pid) (List.nil_sublist _) fun token valid =>
        .inl ((popped_valid stacked onTop token valid).congr activePids active)
    apply dropped.release (some parent) _ fun _ => .inl
    rw [Function.update_of_ne notOwner, parentPath]
    exact claims_sublist_of_suffix (List.tail_suffix _)
  case mode =>
    refine .calm ⟨current, fileDescriptors, ?_, tops⟩
      (uncritical.of_suffix ((core_suffix _).trans (List.tail_suffix _)))
    exact ⟨terminal, others, Function.update_self ..⟩

theorem Scheduled.halt {status : UInt32} (scheduled : Scheduled image machine stack paths owner)
    (taken : machine.halt image status = some machine') : machine'.SchedulerOk image := by
  unfold Machine.halt at taken
  split at taken
  · rename_i rest pid top isCurrent
    have mode := scheduled.mode
    rw [top, core_loud rfl] at mode
    rcases mode.calm_of_top rfl with ⟨calm, -⟩
    obtain rfl : owner = some pid := calm.currentPid.symm.trans isCurrent
    rcases calm.2.2.1 with ⟨terminal, others, onTop⟩
    rcases closeDescriptors_stacked scheduled.stacked onTop calm.2.1 with ⟨pcb, closed, stacked, -⟩
    have isParent := parentPcb_of_top stacked onTop
    have isTerminal := terminalId_of_top stacked onTop
    rw [closed, Option.map_some] at taken
    dsimp only at isParent isTerminal taken
    rw [isParent, isTerminal] at taken
    cases others with
    | nil =>
        cases taken
        exact scheduled.haltRoot calm onTop stacked
    | cons parent others =>
        cases taken
        exact scheduled.haltChild calm onTop stacked
  · cases taken

/-! ### The keyboard -/

/-- Showing another terminal changes nothing here. Starting one claims it. -/
theorem Scheduled.key {termId : Terminal} (scheduled : Scheduled image machine stack paths owner)
    (undisturbed : termId ≠ machine.kernel.currentTerminal → machine.kernel.getFreePid ≠ none →
      machine.kernel.terminalActive termId = false → Uncritical machine.running) :
    (machine.key image termId).SchedulerOk image := by
  unfold Machine.key
  split_ifs with shown full inactive
  · exact ⟨stack, paths, owner, scheduled⟩
  · exact ⟨stack, paths, owner, scheduled⟩
  · have uncritical := undisturbed shown (fun none => full ⟨none, inactive⟩) inactive
    have calm := scheduled.mode.calm_of_uncritical (uncritical.of_suffix (core_suffix _))
    have runningFits := scheduled.fits owner
    rw [scheduled.running] at runningFits
    have shell : ∀ terminal, stack terminal ≠ [] →
        Function.update machine.kernel.terminalActive termId true terminal = true ∧
          ∃ inode, findExecutable image shellName = some inode := by
      intro terminal nonempty
      rcases scheduled.shell terminal nonempty with ⟨active, found⟩
      refine ⟨?_, found⟩
      by_cases here : terminal = termId
      · rw [here, Function.update_self]
      · rwa [Function.update_of_ne here]
    have stays : ∀ token, Token.Valid machine.kernel stack token →
        Token.Valid { machine.kernel with
          currentTerminal := termId
          terminalActive := Function.update machine.kernel.terminalActive termId true }
          stack token := by
      intro token valid
      cases token with
      | pid claimed => exact valid
      | terminal claimed =>
          refine ⟨?_, valid.2⟩
          by_cases here : claimed = termId
          · rw [here]
            exact Function.update_self ..
          · exact (Function.update_of_ne here ..).trans valid.1
    rcases enterCreate_cases image shellName [] termId .inSwitchTerminal
      machine.kernel.currentPid machine.running with same | ⟨inode, fileArgs, found, entered⟩
    · refine ⟨stack, _, owner, scheduled.rerun scheduled.stacked shell rfl ?_ ?_ ?_⟩
      · rw [same]
        exact runningFits
      · apply scheduled.owned.release owner _ fun token valid => .inl (stays token valid)
        rw [same, scheduled.running]
      · rw [same]
        exact scheduled.mode.congr rfl rfl rfl rfl rfl
    · rw [scanCommand_shellName] at found
      refine ⟨stack, _, owner, scheduled.rerun scheduled.stacked shell rfl ?_ ?_ ?_⟩
      · rw [entered]
        exact List.forall_mem_cons.mpr ⟨⟨inode, found⟩, runningFits⟩
      · have empty : stack termId = [] := by
          by_contra nonempty
          cases inactive.symm.trans (scheduled.shell termId nonempty).1
        have wasFree : ¬ Token.Valid machine.kernel stack (.terminal termId) := by
          simp [Token.Valid, inactive]
        have claimed := scheduled.owned.acquire owner wasFree ⟨Function.update_self .., empty⟩ stays
        rw [scheduled.running] at claimed
        rw [entered]
        exact claimed
      · rw [entered]
        exact .calm (calm.congr rfl rfl rfl) (uncritical.cons rfl)
  · refine ⟨stack, _, owner, scheduled.rerun scheduled.stacked scheduled.shell rfl ?_ ?_
      (scheduled.mode.congr rfl rfl rfl rfl rfl)⟩
    · rw [← scheduled.running]
      exact scheduled.fits owner
    · apply scheduled.owned.release owner _ fun _ valid => .inl (valid.congr rfl rfl)
      rw [scheduled.running]

end LaunchSteps

end MonolithicKernel.Process
