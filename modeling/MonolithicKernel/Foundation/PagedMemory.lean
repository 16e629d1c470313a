import Mathlib

/-!
Owns memory behind a page map: loads, stores and ascending copies through virtual
addresses, the window of a physical page, and `Redrawn`, the statement that one
page has changed in a given way and no other page has. A store or a copy that
stays inside a virtual page redraws the physical page it is mapped to.

Does not own what is kept in the pages.
-/

namespace MonolithicKernel.Foundation

abbrev Page (size : Nat) (β : Type*) := Fin size → β

/-- The physical page of each virtual page. -/
abbrev PageMap := Nat → Nat

section PagedMemory

variable {size : Nat} {β : Type*} {map : PageMap} {memory memory' memory'' : Nat → β}

def translate (size : Nat) (map : PageMap) (address : Nat) : Nat :=
  map (address / size) * size + address % size

def load (size : Nat) (map : PageMap) (memory : Nat → β) (address : Nat) : β :=
  memory (translate size map address)

def store (size : Nat) (map : PageMap) (memory : Nat → β) (address : Nat) (value : β) : Nat → β :=
  Function.update memory (translate size map address) value

/-- Copy `count` cells, the lowest first. -/
@[irreducible] def copyUp (size : Nat) (map : PageMap) (dest src : Nat) (memory : Nat → β)
    (count : Nat) : Nat → β :=
  (List.range count).foldl
    (fun memory i => store size map memory (dest + i) (load size map memory (src + i))) memory

/-- The contents of a physical page. -/
def window (size : Nat) (memory : Nat → β) (page : Nat) : Page size β :=
  fun offset => memory (page * size + offset.val)

/-- One page has changed as `draw` says, and no other page has. -/
structure Redrawn (page : Nat) (draw : Page size β → Page size β) (memory memory' : Nat → β) :
    Prop where
  same : window size memory' page = draw (window size memory page)
  others : ∀ other, other ≠ page → window size memory' other = window size memory other

/-! ### Translation -/

theorem translate_of_lt {virtual offset : Nat} (inside : offset < size) :
    translate size map (virtual * size + offset) = map virtual * size + offset := by
  have page : (virtual * size + offset) / size = virtual := by
    rw [Nat.mul_comm, Nat.mul_add_div (by omega), Nat.div_eq_of_lt inside, Nat.add_zero]
  have rest : (virtual * size + offset) % size = offset := by
    rw [Nat.mul_comm, Nat.mul_add_mod, Nat.mod_eq_of_lt inside]
  rw [translate, page, rest]

theorem load_of_lt {virtual offset : Nat} (inside : offset < size) :
    load size map memory (virtual * size + offset) =
      window size memory (map virtual) ⟨offset, inside⟩ := by
  rw [load, translate_of_lt inside]
  rfl

/-- Cells of two pages differ. -/
theorem cell_injective {page other offset offset' : Nat} (inside : offset < size)
    (inside' : offset' < size) (same : page * size + offset = other * size + offset') :
    page = other ∧ offset = offset' := by
  have pages := congrArg (· / size) same
  have offsets := congrArg (· % size) same
  rw [Nat.mul_comm page, Nat.mul_comm other, Nat.mul_add_div (by omega), Nat.mul_add_div (by omega),
    Nat.div_eq_of_lt inside, Nat.div_eq_of_lt inside'] at pages
  rw [Nat.mul_comm page, Nat.mul_comm other, Nat.mul_add_mod, Nat.mul_add_mod,
    Nat.mod_eq_of_lt inside, Nat.mod_eq_of_lt inside'] at offsets
  exact ⟨pages, offsets⟩

/-! ### Redrawing -/

namespace Redrawn

variable {page : Nat} {draw draw' : Page size β → Page size β}

theorem refl (page : Nat) (memory : Nat → β) :
    Redrawn page (id : Page size β → Page size β) memory memory :=
  ⟨rfl, fun _ _ => rfl⟩

theorem trans (first : Redrawn page draw memory memory')
    (second : Redrawn page draw' memory' memory'') :
    Redrawn page (fun before => draw' (draw before)) memory memory'' where
  same := by rw [second.same, first.same]
  others other elsewhere := (second.others other elsewhere).trans (first.others other elsewhere)

theorem congr (redrawn : Redrawn page draw memory memory')
    (agree : draw' (window size memory page) = draw (window size memory page)) :
    Redrawn page draw' memory memory' :=
  ⟨redrawn.same.trans agree.symm, redrawn.others⟩

/-- A loop over `list` redraws one page in every round. -/
theorem foldl {ι : Type*} {round : (Nat → β) → ι → Nat → β}
    {drawRound : Page size β → ι → Page size β} {list : List ι}
    (each : ∀ memory, ∀ i ∈ list,
      Redrawn page (fun before => drawRound before i) memory (round memory i)) :
    ∀ memory, Redrawn page (fun before => list.foldl drawRound before) memory
      (list.foldl round memory) := by
  induction list with
  | nil => exact refl page
  | cons i list inductionHypothesis =>
      intro memory
      have rest := inductionHypothesis fun memory j member =>
        each memory j (List.mem_cons_of_mem i member)
      exact (each memory i List.mem_cons_self).trans (rest (round memory i))

/-- A store inside a virtual page. -/
theorem store (map : PageMap) (virtual : Nat) {offset : Nat} (inside : offset < size)
    (memory : Nat → β) (value : β) :
    Redrawn (map virtual) (fun before => Function.update before ⟨offset, inside⟩ value) memory
      (store size map memory (virtual * size + offset) value) where
  same := by
    funext cell
    unfold window Foundation.store
    rw [translate_of_lt inside]
    by_cases here : cell = ⟨offset, inside⟩
    · rw [here, Function.update_self, Function.update_self]
    · rw [Function.update_of_ne here, Function.update_of_ne]
      intro same
      exact here (Fin.ext (cell_injective cell.isLt inside same).2)
  others other elsewhere := by
    funext cell
    unfold window Foundation.store
    rw [translate_of_lt inside, Function.update_of_ne]
    intro same
    exact elsewhere (cell_injective cell.isLt inside same).1

/-- An ascending copy between virtual pages takes the old cells when no cell is
overwritten before it is read: the pages differ, or the copy goes down. -/
theorem copyUp (map : PageMap) (virtual source : Nat) {dest src : Nat} :
    ∀ {count : Nat} (_ : dest + count ≤ size) (fits : src + count ≤ size)
      (_ : map virtual ≠ map source ∨ dest ≤ src) (memory : Nat → β),
      Redrawn (map virtual)
        (fun (before : Page size β) cell =>
          if copied : dest ≤ cell.val ∧ cell.val < dest + count then
            window size memory (map source) ⟨cell.val - dest + src, by omega⟩
          else before cell) memory
        (copyUp size map (virtual * size + dest) (source * size + src) memory count) := by
  intro count
  induction count with
  | zero =>
      intro _ _ _ memory
      rw [Foundation.copyUp, List.range_zero, List.foldl_nil]
      apply (refl (map virtual) memory).congr
      funext cell
      rw [dif_neg (by omega), id]
  | succ count inductionHypothesis =>
      intro inDest inSrc safe memory
      have before := inductionHypothesis (by omega) (by omega) safe memory
      have loaded : load size map
          (Foundation.copyUp size map (virtual * size + dest) (source * size + src) memory count)
          (source * size + src + count) =
            window size memory (map source) ⟨src + count, by omega⟩ := by
        rw [Nat.add_assoc, load_of_lt (by omega)]
        by_cases same : map source = map virtual
        · rw [same, before.same]
          apply dif_neg
          intro copied
          dsimp only at copied
          rcases safe with differ | down
          · exact differ same.symm
          · omega
        · rw [before.others _ same]
      have step := before.trans (Redrawn.store map virtual (show dest + count < size by omega) _
        (window size memory (map source) ⟨src + count, by omega⟩))
      rw [Foundation.copyUp, List.range_succ, List.foldl_append]
      show Redrawn _ _ memory (Foundation.store size map _ (virtual * size + dest + count) (load ..))
      rw [← Foundation.copyUp, loaded, Nat.add_assoc]
      apply step.congr
      funext cell
      by_cases here : cell = ⟨dest + count, by omega⟩
      · subst here
        rw [Function.update_self, dif_pos ⟨by dsimp only; omega, by dsimp only; omega⟩]
        congr 2
        dsimp only
        omega
      · have different : cell.val ≠ dest + count := fun same => here (Fin.ext same)
        rw [Function.update_of_ne here]
        by_cases copied : dest ≤ cell.val ∧ cell.val < dest + count
        · rw [dif_pos copied, dif_pos ⟨copied.1, by omega⟩]
        · rw [dif_neg copied, dif_neg (by omega)]

/-- A whole page, copied to another one. -/
theorem copyPage (size : Nat) (map : PageMap) {virtual source : Nat}
    (differ : map virtual ≠ map source) (memory : Nat → β) :
    Redrawn (map virtual) (fun _ => window size memory (map source)) memory
      (Foundation.copyUp size map (virtual * size + 0) (source * size + 0) memory size) := by
  have copied := Redrawn.copyUp map virtual source (show 0 + size ≤ size by omega)
    (show 0 + size ≤ size by omega) (.inl differ) memory
  apply copied.congr
  funext cell
  have inPage := cell.isLt
  rw [dif_pos (by omega)]
  rfl

end Redrawn

end PagedMemory

end MonolithicKernel.Foundation
