import MonolithicKernel.Foundation.Runs

/-!
Owns how the runs of one labelled step are carried over to another: every step of
the first is matched by a list of steps of the second that ends in a related
state, and then so is every run, by the lists one after the other.

Does not own what relates the states.
-/

namespace MonolithicKernel.Foundation.Step

variable {σ ι τ κ : Type*} {step : Step σ ι} {below : Step τ κ}

/-- The steps below that match the steps of a run, in their order. -/
def traces (step : Step σ ι) (trace : σ → ι → σ → List κ) : σ → List ι → List κ
  | _, [] => []
  | state, label :: labels =>
      match step state label with
      | none => []
      | some next => trace state label next ++ traces step trace next labels

/-- Steps that are matched by their labels alone. -/
theorem traces_eq_flatMap {trace : ι → List κ} {state final : σ} {labels : List ι}
    (ran : run step state labels = some final) :
    traces step (fun _ label _ => trace label) state labels = labels.flatMap trace := by
  induction labels generalizing state with
  | nil => rfl
  | cons label labels inductionHypothesis =>
      obtain ⟨next, taken, rest⟩ := (run_cons_eq_some step).mp ran
      rw [traces, taken, List.flatMap_cons]
      exact congrArg _ (inductionHypothesis rest)

/-- **Simulation rule**, for runs whose steps all meet a condition. -/
theorem exists_run_of_allSteps {related : σ → τ → Prop} {condition : σ → ι → Prop}
    {trace : σ → ι → σ → List κ}
    (matched : ∀ state label next low, related state low → condition state label →
      step state label = some next →
      ∃ low', run below low (trace state label next) = some low' ∧ related next low')
    {state final : σ} {labels : List ι} {low : τ} (start : related state low)
    (met : AllSteps step condition state labels) (ran : run step state labels = some final) :
    ∃ low', run below low (traces step trace state labels) = some low' ∧ related final low' := by
  induction labels generalizing state low with
  | nil =>
      cases ran
      exact ⟨low, rfl, start⟩
  | cons label labels inductionHypothesis =>
      obtain ⟨next, taken, rest⟩ := (run_cons_eq_some step).mp ran
      obtain ⟨here, later⟩ := met next taken
      obtain ⟨middle, first, relatedNext⟩ := matched state label next low start here taken
      obtain ⟨low', second, relatedFinal⟩ := inductionHypothesis relatedNext later rest
      refine ⟨low', ?_, relatedFinal⟩
      rw [traces, taken]
      dsimp only
      rw [run_append, first, Option.bind_some, second]

/-- The simulation rule without a condition on the steps. -/
theorem exists_run_of_matched {related : σ → τ → Prop} {trace : σ → ι → σ → List κ}
    (matched : ∀ state label next low, related state low → step state label = some next →
      ∃ low', run below low (trace state label next) = some low' ∧ related next low')
    {state final : σ} {labels : List ι} {low : τ} (start : related state low)
    (ran : run step state labels = some final) :
    ∃ low', run below low (traces step trace state labels) = some low' ∧ related final low' := by
  have met : AllSteps step (fun _ _ => True) state labels := by
    clear start ran
    induction labels generalizing state with
    | nil => trivial
    | cons label labels inductionHypothesis => exact fun next _ => ⟨trivial, inductionHypothesis⟩
  exact exists_run_of_allSteps
    (fun state label next low related _ => matched state label next low related) start met ran

end MonolithicKernel.Foundation.Step
