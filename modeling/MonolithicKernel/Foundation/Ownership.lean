import Mathlib

/-!
Owns tokens that holders carry through an interleaving: every held token is
valid, and no token is held twice. A token that is not valid is held by nobody
and may be acquired by making it valid; a holder may give tokens up and thereby
lose their validity.

Does not own what a token stands for.
-/

namespace MonolithicKernel.Foundation

/-- Every held token is valid, and no token is held twice. -/
structure Owned {ι τ : Type*} (valid : τ → Prop) (held : ι → List τ) : Prop where
  valid : ∀ holder, ∀ token ∈ held holder, valid token
  nodup : ∀ holder, (held holder).Nodup
  disjoint : ∀ holder other, holder ≠ other → ∀ token ∈ held holder, token ∉ held other

namespace Owned

variable {ι τ : Type*} [DecidableEq ι] {valid valid' : τ → Prop} {held : ι → List τ}

/-- A holder keeps some of its tokens. The others may lose their validity. -/
theorem release (owned : Owned valid held) (holder : ι) {kept : List τ}
    (sublist : kept.Sublist (held holder))
    (still : ∀ token, valid token → valid' token ∨ token ∈ held holder ∧ token ∉ kept) :
    Owned valid' (Function.update held holder kept) where
  valid other token isHeld := by
    by_cases here : other = holder
    · subst here
      rw [Function.update_self] at isHeld
      rcases still token (owned.valid other token (sublist.subset isHeld)) with stays | dropped
      · exact stays
      · exact absurd isHeld dropped.2
    · rw [Function.update_of_ne here] at isHeld
      rcases still token (owned.valid other token isHeld) with stays | dropped
      · exact stays
      · exact absurd dropped.1 (owned.disjoint other holder here token isHeld)
  nodup other := by
    by_cases here : other = holder
    · subst here
      rw [Function.update_self]
      exact (owned.nodup other).sublist sublist
    · rw [Function.update_of_ne here]
      exact owned.nodup other
  disjoint first second different token isHeld := by
    have before : ∀ third, token ∈ Function.update held holder kept third → token ∈ held third := by
      intro third inThird
      by_cases here : third = holder
      · subst here
        rw [Function.update_self] at inThird
        exact sublist.subset inThird
      · rwa [Function.update_of_ne here] at inThird
    exact fun also => owned.disjoint first second different token (before first isHeld)
      (before second also)

/-- A token that was not valid becomes valid and is taken. -/
theorem acquire (owned : Owned valid held) (holder : ι) {token : τ} (wasFree : ¬ valid token)
    (nowValid : valid' token) (others : ∀ other, valid other → valid' other) :
    Owned valid' (Function.update held holder (token :: held holder)) where
  valid other held' isHeld := by
    by_cases here : other = holder
    · subst here
      rw [Function.update_self] at isHeld
      rcases List.mem_cons.mp isHeld with rfl | older
      · exact nowValid
      · exact others held' (owned.valid other held' older)
    · rw [Function.update_of_ne here] at isHeld
      exact others held' (owned.valid other held' isHeld)
  nodup other := by
    by_cases here : other = holder
    · subst here
      rw [Function.update_self]
      exact List.nodup_cons.mpr ⟨fun older => wasFree (owned.valid other token older),
        owned.nodup other⟩
    · rw [Function.update_of_ne here]
      exact owned.nodup other
  disjoint first second different held' isHeld := by
    have before : ∀ third, held' ∈ Function.update held holder (token :: held holder) third →
        held' ∈ held third ∨ held' = token ∧ third = holder := by
      intro third inThird
      by_cases here : third = holder
      · subst here
        rw [Function.update_self] at inThird
        rcases List.mem_cons.mp inThird with new | older
        · exact .inr ⟨new, rfl⟩
        · exact .inl older
      · rw [Function.update_of_ne here] at inThird
        exact .inl inThird
    intro also
    rcases before first isHeld with older | ⟨rfl, atFirst⟩
    · rcases before second also with also | ⟨rfl, -⟩
      · exact owned.disjoint first second different held' older also
      · exact wasFree (owned.valid first held' older)
    · rcases before second also with also | ⟨-, atSecond⟩
      · exact wasFree (owned.valid second held' also)
      · exact different (atFirst.trans atSecond.symm)

end Owned

end MonolithicKernel.Foundation
