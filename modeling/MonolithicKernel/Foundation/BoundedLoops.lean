import Mathlib

/-!
Owns loops that are given a bound on their rounds: a computation maps a bound
to a result, and to no result when the bound is used up. It ends with a result
when every bound from some bound on gives that result.

Does not own any particular loop.
-/

namespace MonolithicKernel.Foundation

variable {α β : Type*}

/-- Every sufficiently large bound gives `result`. -/
def EndsWith (run : Nat → Option α) (result : α) : Prop :=
  ∃ bound, ∀ rounds, bound ≤ rounds → run rounds = some result

namespace EndsWith

variable {run : Nat → Option α} {result : α}

theorem of_le (bound : Nat) (ends : ∀ rounds, bound ≤ rounds → run rounds = some result) :
    EndsWith run result := ⟨bound, ends⟩

theorem pure (result : α) : EndsWith (fun _ => some result) result := ⟨0, fun _ _ => rfl⟩

/-- A computation has one result. -/
theorem unique {other : α} (ends : EndsWith run result) (endsOther : EndsWith run other) :
    result = other := by
  obtain ⟨bound, atBound⟩ := ends
  obtain ⟨otherBound, atOtherBound⟩ := endsOther
  have first := atBound (max bound otherBound) (Nat.le_max_left _ _)
  have second := atOtherBound (max bound otherBound) (Nat.le_max_right _ _)
  exact Option.some.inj (first.symm.trans second)

/-- Two computations in sequence. -/
theorem bind {next : α → Nat → Option β} {final : β} (ends : EndsWith run result)
    (endsNext : EndsWith (next result) final) :
    EndsWith (fun rounds => (run rounds).bind fun value => next value rounds) final := by
  obtain ⟨bound, atBound⟩ := ends
  obtain ⟨nextBound, atNextBound⟩ := endsNext
  refine ⟨max bound nextBound, fun rounds enough => ?_⟩
  simp only [atBound rounds (by omega), Option.bind_some]
  exact atNextBound rounds (by omega)

theorem map (change : α → β) (ends : EndsWith run result) :
    EndsWith (fun rounds => (run rounds).map change) (change result) := by
  obtain ⟨bound, atBound⟩ := ends
  exact ⟨bound, fun rounds enough => by simp only [atBound rounds enough, Option.map_some]⟩

/-- One round of a loop and the rounds that follow. -/
theorem round {loop : Nat → Option α} (unfold : ∀ rounds, loop (rounds + 1) = run rounds)
    (ends : EndsWith run result) : EndsWith loop result := by
  obtain ⟨bound, atBound⟩ := ends
  refine ⟨bound + 1, fun rounds enough => ?_⟩
  obtain ⟨before, rfl⟩ : ∃ before, rounds = before + 1 := ⟨rounds - 1, by omega⟩
  rw [unfold, atBound before (by omega)]

/-- Some bound gives the result. -/
theorem exists_eq_some (ends : EndsWith run result) : ∃ rounds, run rounds = some result := by
  obtain ⟨bound, atBound⟩ := ends
  exact ⟨bound, atBound bound (Nat.le_refl _)⟩

end EndsWith

end MonolithicKernel.Foundation
