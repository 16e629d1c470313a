import Mathlib

/-!
Owns the runs of a deterministic labelled step: execution of a label list,
conditions on every step of a run, properties of every state of a run, and the
two rules the kernel's invariants use. The invariant rule carries an invariant
along a run whose steps all meet a condition. The exactness rule turns a step
lemma of the form "the property holds after the step exactly when the step met
the condition" into the same statement about whole runs.

Does not own any particular machine.
-/

namespace MonolithicKernel.Foundation

/-- One labelled step. `none` means that the step cannot be taken. -/
abbrev Step (σ ι : Type*) := σ → ι → Option σ

namespace Step

variable {σ ι : Type*} (step : Step σ ι)

/-- Take the steps of a label list in order. -/
def run : σ → List ι → Option σ
  | state, [] => some state
  | state, label :: labels => (step state label).bind fun next => run next labels

/-- Every step that the run takes meets `condition` in the state it is taken in. -/
def AllSteps (condition : σ → ι → Prop) : σ → List ι → Prop
  | _, [] => True
  | state, label :: labels =>
      ∀ next, step state label = some next → condition state label ∧ AllSteps condition next labels

/-- Every state of the run, the first and the last included, has the property. -/
def AllStates (property : σ → Prop) : σ → List ι → Prop
  | state, [] => property state
  | state, label :: labels =>
      property state ∧ ∀ next, step state label = some next → AllStates property next labels

/-- Conditions on the steps of a run can be checked by taking the steps. -/
instance decidableAllSteps {condition : σ → ι → Prop}
    [∀ state label, Decidable (condition state label)] :
    ∀ (state : σ) (labels : List ι), Decidable (AllSteps step condition state labels)
  | _, [] => .isTrue trivial
  | state, label :: labels =>
      match taken : step state label with
      | none => .isTrue fun next other => by cases taken.symm.trans other
      | some next =>
          have : Decidable (AllSteps step condition next labels) := decidableAllSteps next labels
          decidable_of_iff
            (condition state label ∧ AllSteps step condition next labels)
            ⟨fun met other same => by cases taken.symm.trans same; exact met,
              fun met => met next taken⟩

@[simp] theorem run_nil (state : σ) : run step state [] = some state := rfl

theorem run_cons (state : σ) (label : ι) (labels : List ι) :
    run step state (label :: labels) = (step state label).bind fun next => run step next labels :=
  rfl

/-- The first step of a nonempty run. -/
theorem run_cons_eq_some {state final : σ} {label : ι} {labels : List ι} :
    run step state (label :: labels) = some final ↔
      ∃ next, step state label = some next ∧ run step next labels = some final := by
  rw [run_cons, Option.bind_eq_some_iff]

theorem run_append (state : σ) (first second : List ι) :
    run step state (first ++ second) =
      (run step state first).bind fun next => run step next second := by
  induction first generalizing state with
  | nil => rfl
  | cons label first inductionHypothesis =>
      rw [List.cons_append, run_cons, run_cons, Option.bind_assoc]
      congr
      funext next
      exact inductionHypothesis next

variable {step}

/-- A property of all states holds at the end of the run. -/
theorem AllStates.final {property : σ → Prop} : ∀ {state final : σ} {labels : List ι},
    AllStates step property state labels → run step state labels = some final → property final
  | _, _, [], holds, ran => Option.some.inj ran ▸ holds
  | _, _, _ :: _, holds, ran => by
      obtain ⟨next, taken, rest⟩ := (run_cons_eq_some step).mp ran
      exact AllStates.final (holds.2 next taken) rest

/-- **Invariant rule.** An invariant that every conditioned step preserves holds
at the end of every run whose steps all meet the condition. -/
theorem invariant_of_run {invariant : σ → Prop} {condition : σ → ι → Prop}
    (preserved : ∀ state label next, invariant state → condition state label →
      step state label = some next → invariant next)
    {state final : σ} {labels : List ι} (start : invariant state)
    (met : AllSteps step condition state labels) (ran : run step state labels = some final) :
    invariant final := by
  induction labels generalizing state with
  | nil =>
      cases ran
      exact start
  | cons label labels inductionHypothesis =>
      obtain ⟨next, taken, rest⟩ := (run_cons_eq_some step).mp ran
      obtain ⟨here, later⟩ := met next taken
      exact inductionHypothesis (preserved state label next start here taken) later rest

/-- The invariant rule without a condition on the steps. -/
theorem invariant_of_any_run {invariant : σ → Prop}
    (preserved : ∀ state label next, invariant state → step state label = some next →
      invariant next)
    {state final : σ} {labels : List ι} (start : invariant state)
    (ran : run step state labels = some final) : invariant final := by
  induction labels generalizing state with
  | nil =>
      cases ran
      exact start
  | cons label labels inductionHypothesis =>
      obtain ⟨next, taken, rest⟩ := (run_cons_eq_some step).mp ran
      exact inductionHypothesis (preserved state label next start taken) rest

/-- The invariant rule for a property of all states. -/
theorem allStates_of_allSteps {invariant property : σ → Prop} {condition : σ → ι → Prop}
    (preserved : ∀ state label next, invariant state → condition state label →
      step state label = some next → invariant next)
    (implies : ∀ state, invariant state → property state)
    {state : σ} {labels : List ι} (start : invariant state)
    (met : AllSteps step condition state labels) : AllStates step property state labels := by
  induction labels generalizing state with
  | nil => exact implies state start
  | cons label labels inductionHypothesis =>
      refine ⟨implies state start, fun next taken => ?_⟩
      obtain ⟨here, later⟩ := met next taken
      exact inductionHypothesis (preserved state label next start here taken) later

/-- The invariant rule for a property of all steps. -/
theorem allSteps_of_allSteps {invariant : σ → Prop} {condition property : σ → ι → Prop}
    (preserved : ∀ state label next, invariant state → condition state label →
      step state label = some next → invariant next)
    (implies : ∀ state label next, invariant state → condition state label →
      step state label = some next → property state label)
    {state : σ} {labels : List ι} (start : invariant state)
    (met : AllSteps step condition state labels) : AllSteps step property state labels := by
  induction labels generalizing state with
  | nil => trivial
  | cons label labels inductionHypothesis =>
      intro next taken
      obtain ⟨here, later⟩ := met next taken
      exact ⟨implies state label next start here taken,
        inductionHypothesis (preserved state label next start here taken) later⟩

/-- Two conditions that agree in every state of an invariant agree on every run. -/
theorem allSteps_congr {invariant : σ → Prop} {property condition : σ → ι → Prop}
    (preserved : ∀ state label next, invariant state → step state label = some next →
      invariant next)
    (agree : ∀ state label next, invariant state → step state label = some next →
      (property state label ↔ condition state label))
    {state : σ} {labels : List ι} (start : invariant state) :
    AllSteps step property state labels ↔ AllSteps step condition state labels := by
  induction labels generalizing state with
  | nil => exact Iff.rfl
  | cons label labels inductionHypothesis =>
      simp only [AllSteps]
      apply forall_congr'
      intro next
      apply forall_congr'
      intro taken
      rw [agree state label next start taken,
        inductionHypothesis (preserved state label next start taken)]

/-- **Exactness rule.** Suppose that in every state of the invariant a step keeps
the property exactly when it meets the condition, and that a step which does
keep it keeps the invariant too. Then a run has the property in all its states
exactly when all its steps meet the condition. -/
theorem allStates_iff_allSteps {invariant property : σ → Prop} {condition : σ → ι → Prop}
    (exactly : ∀ state label next, invariant state → step state label = some next →
      (property next ↔ condition state label))
    (kept : ∀ state label next, invariant state → step state label = some next →
      condition state label → invariant next)
    {state : σ} {labels : List ι} (start : invariant state) (holds : property state) :
    AllStates step property state labels ↔ AllSteps step condition state labels := by
  induction labels generalizing state with
  | nil => exact ⟨fun _ => trivial, fun _ => holds⟩
  | cons label labels inductionHypothesis =>
      have first : ∀ next, AllStates step property next labels → property next := by
        intro next states
        cases labels with
        | nil => exact states
        | cons _ _ => exact states.1
      constructor
      · rintro ⟨-, later⟩ next taken
        have after := later next taken
        have met := (exactly state label next start taken).mp (first next after)
        exact ⟨met, (inductionHypothesis (kept state label next start taken met)
          (first next after)).mp after⟩
      · intro met
        refine ⟨holds, fun next taken => ?_⟩
        obtain ⟨here, later⟩ := met next taken
        exact (inductionHypothesis (kept state label next start taken here)
          ((exactly state label next start taken).mpr here)).mpr later

end Step

end MonolithicKernel.Foundation
