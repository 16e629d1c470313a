import Mathlib

/-!
Owns the lists that a parent pointer spells out: every vertex is followed by its
parent, and the last one has none. Such a list is determined by its head, never
repeats a vertex, and depends only on the pointers of its own members; so a new
head extends it and dropping the head leaves it linked.

Does not own any particular process table.
-/

namespace MonolithicKernel.Foundation

variable {α : Type*}

/-- Following `parent` from the head visits exactly this list and then ends. -/
def Linked (parent : α → Option α) : List α → Prop
  | [] => True
  | vertex :: rest => parent vertex = rest.head? ∧ Linked parent rest

namespace Linked

variable {parent : α → Option α} {chain : List α}

/-- A linked list is determined by its head. -/
theorem unique (linked : Linked parent chain) :
    ∀ {other : List α}, Linked parent other → chain.head? = other.head? → chain = other := by
  induction chain with
  | nil =>
      intro other _ sameHead
      cases other with
      | nil => rfl
      | cons vertex rest => simp at sameHead
  | cons vertex rest inductionHypothesis =>
      intro other otherLinked sameHead
      cases other with
      | nil => simp at sameHead
      | cons vertex' rest' =>
          obtain rfl : vertex = vertex' := by simpa using sameHead
          rw [inductionHypothesis linked.2 otherLinked.2 (linked.1.symm.trans otherLinked.1)]

theorem of_append {front : List α} (linked : Linked parent (front ++ chain)) :
    Linked parent chain := by
  induction front with
  | nil => exact linked
  | cons vertex front inductionHypothesis => exact inductionHypothesis linked.2

/-- A linked list never repeats a vertex: the part from the repetition on would
be the whole list again. -/
theorem nodup (linked : Linked parent chain) : chain.Nodup := by
  induction chain with
  | nil => exact List.nodup_nil
  | cons vertex rest inductionHypothesis =>
      refine List.nodup_cons.mpr ⟨fun repeated => ?_, inductionHypothesis linked.2⟩
      obtain ⟨front, back, split⟩ := List.append_of_mem repeated
      have tail : Linked parent (vertex :: back) := by
        have whole : Linked parent (front ++ vertex :: back) := by
          rw [← split]
          exact linked.2
        exact of_append whole
      have same := congrArg List.length (linked.unique tail rfl)
      rw [split] at same
      simp at same
      omega

/-- A linked list depends only on the pointers of its members. -/
theorem congr {parent' : α → Option α} (linked : Linked parent chain)
    (same : ∀ member ∈ chain, parent' member = parent member) : Linked parent' chain := by
  induction chain with
  | nil => trivial
  | cons vertex rest inductionHypothesis =>
      refine ⟨(same vertex List.mem_cons_self).trans linked.1, inductionHypothesis linked.2 ?_⟩
      exact fun member inRest => same member (List.mem_cons_of_mem _ inRest)

end Linked

end MonolithicKernel.Foundation
