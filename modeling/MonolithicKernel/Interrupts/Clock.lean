import MonolithicKernel.Interrupts.InService

/-!
Owns when the clock stands still. A key that comes in between the entry of the
timer's handler and its `send_eoi` may start a shell, which leaves the timer's line
in service with nothing left that could end it.
-/

namespace MonolithicKernel.Interrupts

open MonolithicKernel.Foundation

namespace Machine

variable {machine machine' : Machine}

/-- A path that is saved away has a line to end. -/
def Stalled (machine : Machine) : Prop :=
  ∃ path ∈ machine.saved, ∃ activation ∈ path, activation.eoiLeft ≠ []

instance decidableStalled (machine : Machine) : Decidable machine.Stalled :=
  inferInstanceAs (Decidable (∃ path ∈ machine.saved, ∃ activation ∈ path, _))

/-- A program is started only when no handler on the running path has a line to end. -/
def StartsOutside (machine : Machine) (label : Label) : Prop :=
  label = .processStart → ∀ activation ∈ machine.running, activation.eoiLeft = []

/-- What a step does to the saved paths, other than starting a program. -/
theorem Accounted.saved_step (accounted : Accounted machine) {label : Label}
    (taken : machine.step label = some machine') (other : label ≠ .processStart) :
    ∀ path ∈ machine'.saved, path ∈ machine.saved ∨ ∀ activation ∈ path, activation.eoiLeft = [] := by
  cases label with
  | request irq =>
      cases taken
      exact fun path member => .inl member
  | deliver =>
      rw [Machine.step, deliver_eq accounted.opened] at taken
      split_ifs at taken <;> cases taken <;> exact fun path member => .inl member
  | sendEoi =>
      rw [Machine.step, Machine.sendEoi] at taken
      split at taken <;> cases taken
      exact fun path member => .inl member
  | setInterruptFlag flag =>
      rw [Machine.step] at taken
      split_ifs at taken
      cases taken
      exact fun path member => .inl member
  | iret =>
      rw [Machine.step, Machine.iret] at taken
      split at taken <;> cases taken
      exact fun path member => .inl member
  | processStart => exact absurd rfl other
  | processSwitch index =>
      rw [Machine.step, Machine.processSwitch] at taken
      split at taken
      case h_2 => cases taken
      rename_i flag rest running
      obtain ⟨next, -, rfl⟩ := Option.map_eq_some_iff.mp taken
      intro path member
      cases List.mem_or_eq_of_mem_set member with
      | inl kept => exact .inl kept
      | inr moved =>
          -- The timer's handler has ended its lines, and nothing below it had any to end.
          right
          have ordered := accounted.ordered _ List.mem_cons_self
          rw [running, List.pairwise_cons] at ordered
          rw [moved, running]
          intro activation inside
          cases List.mem_cons.mp inside with
          | inl top => rw [top]
          | inr below =>
              by_contra toEnd
              cases ordered.1 activation below toEnd
  | halt index =>
      rw [Machine.step, Machine.halt] at taken
      split_ifs at taken
      cases taken
      exact fun path member => .inl (List.mem_of_mem_eraseIdx member)

theorem Accounted.not_stalled_step (accounted : Accounted machine) (running : ¬ machine.Stalled)
    {label : Label} (taken : machine.step label = some machine') :
    ¬ machine'.Stalled ↔ StartsOutside machine label := by
  by_cases starts : label = .processStart
  · subst label
    have saved : machine'.saved = machine.running :: machine.saved := by
      rw [Machine.step, Machine.processStart] at taken
      split at taken <;> cases taken <;> rfl
    constructor
    · intro goes _ activation inside
      by_contra toEnd
      exact goes ⟨machine.running, saved ▸ List.mem_cons_self, activation, inside, toEnd⟩
    · intro outside stalled
      obtain ⟨path, member, activation, inside, toEnd⟩ := stalled
      rw [saved] at member
      cases List.mem_cons.mp member with
      | inl here =>
          rw [here] at inside
          exact toEnd (outside rfl activation inside)
      | inr before => exact running ⟨path, before, activation, inside, toEnd⟩
  · constructor
    · exact fun _ starts' => absurd starts' starts
    · intro _ stalled
      obtain ⟨path, member, activation, inside, toEnd⟩ := stalled
      cases accounted.saved_step taken starts path member with
      | inl before => exact running ⟨path, before, activation, inside, toEnd⟩
      | inr ended => exact toEnd (ended activation inside)

/-- **Starts.** The clock stalls in no state of a run exactly when no shell is started
from a keyboard handler that came in before the timer's line was ended. -/
theorem not_stalled_iff_startsOutside {pic : Pic} (quiet : Quiet pic) (labels : List Label) :
    Step.AllStates Machine.step (fun machine => ¬ machine.Stalled) (start pic) labels ↔
      Step.AllSteps Machine.step StartsOutside (start pic) labels := by
  have fresh : ¬ (start pic).Stalled := by
    intro stalled
    obtain ⟨path, member, -⟩ := stalled
    cases member
  have exactly (state : Machine) (label : Label) (next : Machine)
      (holds : Accounted state ∧ ¬ state.Stalled) (taken : state.step label = some next) :
      ¬ next.Stalled ↔ StartsOutside state label := holds.1.not_stalled_step holds.2 taken
  exact Step.allStates_iff_allSteps exactly
    (fun state label next holds taken met =>
      ⟨holds.1.step taken, (exactly state label next holds taken).mpr met⟩)
    ⟨accounted_start quiet, fresh⟩ fresh

/-- The clock is stalled, and only keyboard handlers are running. -/
structure Stuck (machine : Machine) : Prop where
  accounted : Accounted machine
  stalled : machine.Stalled
  keys : ∀ activation ∈ machine.running, activation.handler = .keyboardWrapper

theorem Stuck.not_tickDue (stuck : Stuck machine) : ¬ TickDue machine.pic := by
  intro due
  obtain ⟨path, member, activation, inside, toEnd⟩ := stuck.stalled
  apply toEnd
  apply stuck.accounted.ended_of_tickDue due
  rw [activations_cons]
  exact List.mem_append_right _ (List.mem_flatten.mpr ⟨path, member, inside⟩)

theorem Stuck.step (stuck : Stuck machine) {label : Label}
    (taken : machine.step label = some machine') : Stuck machine' := by
  have accounted := stuck.accounted.step taken
  obtain ⟨path, member, activation, inside, toEnd⟩ := stuck.stalled
  have keys := stuck.keys
  have still {saved : List Path} (kept : path ∈ saved) :
      ∃ path ∈ saved, ∃ activation ∈ path, activation.eoiLeft ≠ [] :=
    ⟨path, kept, activation, inside, toEnd⟩
  cases label with
  | request irq =>
      cases taken
      exact ⟨accounted, still member, keys⟩
  | deliver =>
      rw [Machine.step, deliver_eq stuck.accounted.opened, if_neg stuck.not_tickDue] at taken
      split_ifs at taken
      cases taken
      refine ⟨accounted, still member, fun activation inside => ?_⟩
      cases List.mem_cons.mp inside with
      | inl top => rw [top]
      | inr below => exact keys activation below
  | sendEoi =>
      rw [Machine.step, Machine.sendEoi] at taken
      split at taken <;> cases taken
      rename_i running
      rw [running] at keys
      refine ⟨accounted, still member, fun activation inside => ?_⟩
      cases List.mem_cons.mp inside with
      | inl top =>
          have before := keys _ List.mem_cons_self
          rw [top]
          exact before
      | inr below => exact keys activation (List.mem_cons_of_mem _ below)
  | setInterruptFlag flag =>
      rw [Machine.step] at taken
      split_ifs at taken
      cases taken
      exact ⟨accounted, still member, keys⟩
  | iret =>
      rw [Machine.step, Machine.iret] at taken
      split at taken <;> cases taken
      rename_i running
      rw [running] at keys
      exact ⟨accounted, still member, fun activation inside =>
        keys activation (List.mem_cons_of_mem _ inside)⟩
  | processStart =>
      rw [Machine.step, Machine.processStart] at taken
      have made : machine' = machine.startProgram := by
        split at taken <;> cases taken <;> rfl
      subst made
      refine ⟨accounted, still (List.mem_cons_of_mem _ member), fun activation inside => ?_⟩
      cases inside
  | processSwitch index =>
      rw [Machine.step, Machine.processSwitch] at taken
      split at taken
      case h_2 => cases taken
      rename_i running
      rw [running] at keys
      cases keys _ List.mem_cons_self
  | halt index =>
      rw [Machine.step, Machine.halt] at taken
      split_ifs at taken with returns
      cases taken
      obtain ⟨below, here⟩ := List.getElem?_eq_some_iff.mp returns.2
      have others : ([] :: machine.saved.eraseIdx index).Perm machine.saved :=
        here ▸ List.getElem_cons_eraseIdx_perm below
      cases List.mem_cons.mp (others.mem_iff.mpr member) with
      | inl empty =>
          rw [empty] at inside
          cases inside
      | inr kept => exact ⟨accounted, still kept, keys⟩

/-- **The clock stands still.** Once a shell is started inside a window of the timer,
no tick is taken any more, whatever runs and whatever is pressed. -/
theorem no_tick_of_started {pic : Pic} (quiet : Quiet pic) {before after : List Label}
    {started final next : Machine}
    (ran : Step.run Machine.step (start pic) before = some machine)
    (window : ∃ activation ∈ machine.running, activation.eoiLeft ≠ [])
    (starts : machine.processStart = some started)
    (later : Step.run Machine.step started after = some final)
    (delivered : final.deliver = some next) : next = final.enterKeyboard := by
  have accounted := (accounted_start quiet).run ran
  have made : started = machine.startProgram := by
    rw [Machine.processStart] at starts
    split at starts <;> cases starts <;> rfl
  have stuck : Stuck started := by
    refine ⟨accounted.processStart starts, ?_, ?_⟩
    · obtain ⟨activation, inside, toEnd⟩ := window
      rw [made]
      exact ⟨machine.running, List.mem_cons_self, activation, inside, toEnd⟩
    · rw [made]
      exact fun activation inside => nomatch inside
  have stuck' : Stuck final :=
    Step.invariant_of_any_run (fun _ _ _ (before : Stuck _) taken => before.step taken) stuck later
  rw [deliver_eq stuck'.accounted.opened, if_neg stuck'.not_tickDue] at delivered
  split_ifs at delivered
  exact (Option.some.inj delivered).symm

/-- The timer ticks, a key comes in before its line is ended, and starts a shell. -/
theorem no_tick_of_started_shell :
    ∃ machine started final,
      Step.run Machine.step (start Pic.untouched) [.setInterruptFlag true, .request 8, .deliver,
        .request 1, .deliver, .sendEoi] = some machine ∧
      machine.processStart = some started ∧
      Step.run Machine.step started [.request 8, .request 1] = some final ∧
      ∀ next, final.deliver = some next → next = final.enterKeyboard := by
  have ran : ∃ machine, Step.run Machine.step (start Pic.untouched) [.setInterruptFlag true,
      .request 8, .deliver, .request 1, .deliver, .sendEoi] = some machine ∧
        (∃ activation ∈ machine.running, activation.eoiLeft ≠ []) ∧
        machine.processStart = some machine.startProgram :=
    ⟨_, rfl, by decide, rfl⟩
  obtain ⟨machine, ran, window, starts⟩ := ran
  have later : ∃ final, Step.run Machine.step machine.startProgram [.request 8, .request 1] =
      some final := ⟨_, rfl⟩
  obtain ⟨final, later⟩ := later
  exact ⟨machine, machine.startProgram, final, ran, starts, later, fun next delivered =>
    no_tick_of_started quiet_untouched ran window starts later delivered⟩

/-- Ticks and keys while no program is started. -/
theorem not_stalled_iff_startsOutside_keys :
    Step.AllStates Machine.step (fun machine => ¬ machine.Stalled) (start Pic.untouched)
        [.setInterruptFlag true, .request 8, .deliver, .request 1, .deliver] ↔
      Step.AllSteps Machine.step StartsOutside (start Pic.untouched)
        [.setInterruptFlag true, .request 8, .deliver, .request 1, .deliver] :=
  not_stalled_iff_startsOutside quiet_untouched _

end Machine

end MonolithicKernel.Interrupts
