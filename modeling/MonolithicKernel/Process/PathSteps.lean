import MonolithicKernel.Process.PathInvariant

/-!
Owns the steps of the interrupted machine on the paths: each piece of
`rtc_handler`, `process_switch`, `process_create` and `process_start`, the two
system calls and the keyboard keep the invariant. A decision of the scheduler
and the first shell of a terminal need the running path to be uncritical; a
store in `active_pids` needs its slot free.

Does not own runs.
-/

namespace MonolithicKernel.Process

open MonolithicKernel.FileSystem
open MonolithicKernel.Foundation
open MonolithicKernel.Lib

section PathSteps

variable {image : Image} {machine machine' : Machine} {stack : Stacks}
  {paths : Option Pid → Path} {owner : Option Pid} {rest : Path}

/-! ### `rtc_handler` and `process_switch` -/

theorem Scheduled.tickEntered (scheduled : Scheduled image machine stack paths owner)
    (top : machine.running = .tick .entered :: rest)
    (taken : machine.advanceTick rest .entered = some machine') : machine'.SchedulerOk image := by
  have mode := scheduled.mode
  rw [top, core_quiet rfl] at mode
  rcases updateCounters_stacked (List.finRange 3) scheduled.stacked
    (mode.terminalsNotBelow scheduled.stacked) with ⟨pcb, counted, stacked, -⟩
  rw [Machine.advanceTick, counted] at taken
  cases taken
  refine scheduled.goOn [.tick .counted] top rfl stacked rfl rfl rfl ?_ ?_ ?_
  · exact List.Sublist.refl _
  · exact List.forall_mem_singleton.mpr trivial
  · exact mode.congr rfl rfl rfl rfl rfl

theorem Scheduled.tickCounted (scheduled : Scheduled image machine stack paths owner)
    (top : machine.running = .tick .counted :: rest)
    (undisturbed : machine.kernel.rtcCount - 1 = 0 → Uncritical machine.running)
    (taken : machine.advanceTick rest .counted = some machine') : machine'.SchedulerOk image := by
  have mode := scheduled.mode
  rw [top, core_quiet rfl] at mode
  dsimp only [Machine.advanceTick] at taken
  split_ifs at taken with decides
  · cases taken
    have uncritical := undisturbed decides
    rw [top] at uncritical
    have calm := mode.calm_of_uncritical (uncritical.tail.of_suffix (core_suffix rest))
    refine scheduled.goOn [.tick (.choosing 3)] top rfl scheduled.stacked rfl rfl rfl ?_ ?_ ?_
    · exact List.Sublist.refl _
    · exact List.forall_mem_singleton.mpr trivial
    · exact .calm (calm.congr rfl rfl rfl) (uncritical.tail.cons rfl)
  · cases taken
    refine scheduled.goOn [] top rfl scheduled.stacked rfl rfl rfl ?_ ?_ ?_
    · exact List.Sublist.refl _
    · exact List.forall_mem_nil _
    · exact mode.congr rfl rfl rfl rfl rfl

theorem Scheduled.tickChoosing {rounds : Nat}
    (scheduled : Scheduled image machine stack paths owner)
    (top : machine.running = .tick (.choosing rounds) :: rest)
    (taken : machine.advanceTick rest (.choosing rounds) = some machine') :
    machine'.SchedulerOk image := by
  have mode := scheduled.mode
  rw [top, core_loud rfl] at mode
  rcases mode.calm_of_top rfl with ⟨calm, uncritical⟩
  cases rounds with
  | zero =>
      cases taken
      refine scheduled.goOn [] top rfl scheduled.stacked rfl rfl rfl ?_ ?_ ?_
      · exact List.Sublist.refl _
      · exact List.forall_mem_nil _
      · exact .calm calm (uncritical.tail.of_suffix (core_suffix rest))
  | succ rounds =>
      dsimp only [Machine.advanceTick] at taken
      split_ifs at taken with chosen
      · cases taken
        refine scheduled.goOn [.tick .calling] top rfl scheduled.stacked rfl rfl rfl ?_ ?_ ?_
        · exact List.Sublist.refl _
        · exact List.forall_mem_singleton.mpr trivial
        · cases owner with
          | none => exact absurd (calm.2.1 _) chosen.1
          | some pid => exact .calling (calm.congr rfl rfl rfl) chosen.1 uncritical.tail
      · cases taken
        refine scheduled.goOn [.tick (.choosing rounds)] top rfl scheduled.stacked rfl rfl rfl
          ?_ ?_ ?_
        · exact List.Sublist.refl _
        · exact List.forall_mem_singleton.mpr trivial
        · exact .calm (calm.congr rfl rfl rfl) (uncritical.tail.cons rfl)

/-- The process whose path runs `calling` is saved there. -/
theorem Scheduled.tickCalling (scheduled : Scheduled image machine stack paths owner)
    (top : machine.running = .tick .calling :: rest)
    (taken : machine.advanceTick rest .calling = some machine') : machine'.SchedulerOk image := by
  have mode := scheduled.mode
  rw [top, core_loud rfl] at mode
  rcases Option.map_eq_some_iff.mp taken with ⟨next, pointed, rfl⟩
  cases mode with
  | calm _ uncritical => cases uncritical.head
  | @calling pid _ calm _ uncritical =>
      have stacked := (processSwitch_stacked scheduled.stacked calm.currentOnTop next).1
      rcases calm with ⟨current, fileDescriptors, onTop, tops⟩
      have nextTop : ∃ terminal rest, stack terminal = next :: rest := by
        rw [tops] at pointed
        exact ⟨_, List.head?_eq_some_iff.mp pointed⟩
      have unowned : paths none = [] := scheduled.elsewhere none (by simp) (by simp)
      refine scheduled.handOver (.tick .switched :: rest) none stack (by simp) stacked
        scheduled.shell (fun _ _ _ _ => Iff.rfl) ?_ ?_ ?_ (uncritical.cons rfl) ?_ ?_ ?_ ?_
      · intro member isPid terminal _
        cases isPid
        exact (if_pos current).symm
      · intro nowhere
        rcases onTop with ⟨terminal, others, isTop⟩
        exact absurd (isTop ▸ List.mem_cons_self) (nowhere pid rfl terminal)
      · intro member notOwner
        exact if_neg fun isCurrent => notOwner (isCurrent.symm.trans current)
      · exact List.forall_mem_cons.mpr ⟨trivial, (scheduled.fits_running top).2⟩
      · exact List.forall_mem_singleton.mpr trivial
      · have sublist : (claims rest).Sublist (claims (paths (some pid))) := by
          rw [scheduled.claims_running top]
          exact List.Sublist.refl _
        have parked : Owned (Token.Valid machine.kernel stack)
            (Function.update _ _ (claims rest)) :=
          scheduled.owned.release (some pid) sublist fun _ => .inl
        apply parked.release none (List.nil_sublist _)
        intro token valid
        exact .inl (valid.congr rfl rfl)
      · exact .switching ⟨rfl, rfl, nextTop, tops⟩

/-- The stack switch takes up the path of the next process. -/
theorem Scheduled.tickSwitching {next : Pid} (scheduled : Scheduled image machine stack paths owner)
    (top : machine.running = .tick (.switching next) :: rest)
    (taken : machine.advanceTick rest (.switching next) = some machine') :
    machine'.SchedulerOk image := by
  have mode := scheduled.mode
  rw [top, core_loud rfl] at mode
  cases taken
  cases mode with
  | calm _ uncritical => cases uncritical.head
  | switching calm =>
      rcases calm.2.2.1 with ⟨terminal, others, isTop⟩
      have nextPath : paths (some next) = machine.saved next :=
        scheduled.saved terminal next (isTop ▸ List.mem_cons_self) (by simp)
      refine scheduled.handOver [] (some next) stack (by simp) scheduled.stacked
        scheduled.shell (fun _ _ _ _ => Iff.rfl) (by simp) (fun _ => rfl) (fun _ _ => rfl)
        (List.forall_mem_nil _) (List.forall_mem_nil _) ?_ ?_ ?_
      · show ∀ frame ∈ machine.saved next, _
        rw [← nextPath]
        exact scheduled.fits (some next)
      · have dropped : Owned (Token.Valid machine.kernel stack) (Function.update _ none []) :=
          scheduled.owned.release none (List.nil_sublist _) fun _ => .inl
        apply dropped.release (some next) _ fun _ => .inl
        show (claims (machine.saved next)).Sublist _
        rw [← nextPath]
        exact List.Sublist.refl _
      · have uncritical := scheduled.uncritical (some next) (by simp)
        rw [nextPath] at uncritical
        exact .calm calm (uncritical.of_suffix (core_suffix _))

theorem Scheduled.tickSwitched (scheduled : Scheduled image machine stack paths owner)
    (top : machine.running = .tick .switched :: rest)
    (taken : machine.advanceTick rest .switched = some machine') : machine'.SchedulerOk image := by
  have mode := scheduled.mode
  rw [top, core_loud rfl] at mode
  rcases mode.calm_of_top rfl with ⟨calm, uncritical⟩
  cases taken
  refine scheduled.goOn [] top rfl scheduled.stacked rfl rfl rfl ?_ ?_ ?_
  · exact List.Sublist.refl _
  · exact List.forall_mem_nil _
  · exact .calm calm (uncritical.tail.of_suffix (core_suffix rest))

/-- A tick comes in. -/
theorem Scheduled.tick (scheduled : Scheduled image machine stack paths owner) :
    Machine.SchedulerOk image { machine with running := .tick .entered :: machine.running } := by
  refine ⟨stack, _, owner, scheduled.rerun scheduled.stacked scheduled.shell rfl ?_ ?_ ?_⟩
  · refine List.forall_mem_cons.mpr ⟨trivial, ?_⟩
    rw [← scheduled.running]
    exact scheduled.fits owner
  · apply scheduled.owned.release owner _ fun _ => .inl
    rw [scheduled.running]
    exact List.Sublist.refl _
  · exact scheduled.mode

/-! ### `process_create` and `process_start` -/

theorem Scheduled.createEntered {creation : Creation}
    (scheduled : Scheduled image machine stack paths owner)
    (top : machine.running = .create creation .entered :: rest)
    (taken : machine.advanceCreate image creation rest .entered = some machine') :
    machine'.SchedulerOk image := by
  have mode := scheduled.mode
  rw [top, core_loud rfl] at mode
  have fits := (scheduled.fits_running top).1
  rw [Machine.advanceCreate] at taken
  split at taken
  · rename_i full
    cases taken
    refine scheduled.goOn [] top rfl scheduled.stacked rfl rfl rfl
      (List.nil_sublist _) (List.forall_mem_nil _) ?_
    cases mode with
    | calm calm uncritical => exact .calm calm (uncritical.tail.of_suffix (core_suffix rest))
    | restart restarting =>
        rcases restarting.free rfl with ⟨pid, unused⟩
        rcases exists_getFreePid unused with ⟨found, isFree⟩
        cases full.symm.trans isFree
  · rename_i pid isFree
    cases taken
    refine scheduled.goOn [.create creation (.scanned pid)] top rfl scheduled.stacked
      rfl rfl rfl (claims_singleton _ ▸ List.Sublist.refl _)
      (List.forall_mem_singleton.mpr fits) ?_
    cases mode with
    | calm calm uncritical =>
        have noncritical := uncritical.head
        exact .calm calm (uncritical.tail.cons noncritical)
    | restart restarting =>
        exact .restart { restarting with unfinished := rfl, free := by simp }

theorem Scheduled.createScanned {creation : Creation} {pid : Pid}
    (scheduled : Scheduled image machine stack paths owner)
    (top : machine.running = .create creation (.scanned pid) :: rest)
    (free : machine.kernel.activePids pid = .unused)
    (taken : machine.advanceCreate image creation rest (.scanned pid) = some machine') :
    machine'.SchedulerOk image := by
  have mode := scheduled.mode
  rw [top, core_loud rfl] at mode
  have notActive : machine.kernel.activePids pid ≠ .active := by
    rw [free]
    decide
  cases taken
  refine ⟨stack, _, owner,
    scheduled.rerun (scheduled.stacked.setInactive notActive (by decide)) scheduled.shell rfl
      ?_ ?_ ?_⟩
  · have fits := scheduled.fits_running top
    exact List.forall_mem_cons.mpr ⟨fits.1, fits.2⟩
  · have wasFree : ¬ Token.Valid machine.kernel stack (.pid pid) := by simp [Token.Valid, free]
    have nowValid : Token.Valid (machine.kernel.setActive pid .created) stack (.pid pid) :=
      Function.update_self ..
    have others : ∀ token, Token.Valid machine.kernel stack token →
        Token.Valid (machine.kernel.setActive pid .created) stack token := by
      intro token valid
      cases token with
      | pid other =>
          by_cases same : other = pid
          · subst same
            exact nowValid
          · exact (Function.update_of_ne same ..).trans valid
      | terminal _ => exact valid
    have claimed := scheduled.owned.acquire owner wasFree nowValid others
    rw [scheduled.claims_running top] at claimed
    exact claimed
  · cases mode with
    | calm calm uncritical =>
        have noncritical := uncritical.head
        exact .calm (calm.congr rfl rfl rfl) (uncritical.tail.cons noncritical)
    | restart restarting =>
        apply Mode.restart
        refine { restarting with unfinished := rfl, free := by simp, halted := ?_ }
        intro other pointed
        by_cases same : other = pid
        · subst same
          exact (Function.update_self ..).trans_ne (by decide)
        · exact (Function.update_of_ne same ..).trans_ne (restarting.halted other pointed)

/-- The `iret` of `process_start`. -/
theorem Scheduled.createEntering {creation : Creation} {pid : Pid}
    (scheduled : Scheduled image machine stack paths owner)
    (top : machine.running = .create creation (.entering pid) :: rest)
    (taken : machine.advanceCreate image creation rest (.entering pid) = some machine') :
    machine'.SchedulerOk image := by
  have mode := scheduled.mode
  rw [top, core_loud rfl] at mode
  cases taken
  refine scheduled.goOn [.user] top rfl scheduled.stacked rfl rfl rfl
    (List.nil_sublist _) (List.forall_mem_singleton.mpr trivial) ?_
  cases mode with
  | calm calm uncritical => exact .calm calm (uncritical.tail.cons rfl)
  | entering calm => exact .calm calm (List.forall_mem_singleton.mpr rfl)
  | restart restarting => cases restarting.unfinished

theorem Scheduled.createStarted {creation : Creation}
    (scheduled : Scheduled image machine stack paths owner)
    (top : machine.running = .create creation .started :: rest)
    (taken : machine.advanceCreate image creation rest .started = some machine') :
    machine'.SchedulerOk image := by
  have mode := scheduled.mode
  rw [top, core_loud rfl] at mode
  rcases mode.calm_of_top rfl with ⟨calm, uncritical⟩
  cases taken
  refine scheduled.goOn [] top rfl scheduled.stacked rfl rfl rfl
    (List.nil_sublist _) (List.forall_mem_nil _) ?_
  exact .calm calm (uncritical.tail.of_suffix (core_suffix rest))

end PathSteps

end MonolithicKernel.Process
