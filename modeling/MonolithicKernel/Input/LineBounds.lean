import MonolithicKernel.Foundation.Runs
import MonolithicKernel.Input.Keyboard

/-!
Owns the bounds of the line buffers: the printable keys leave the last cell of a
region to the Enter key, but Enter itself asks for no room, so the handler stays
inside the displayed terminal's region exactly as long as Enter finds some.

Does not own whose bytes a read returns.
-/

namespace MonolithicKernel.Input

open MonolithicKernel.Foundation
open MonolithicKernel.Process (Terminal)

/-- The handler has stored inside the displayed terminal's region only, and no
buffer index is past the end of a region. -/
structure Lines.InBounds (lines : Lines) : Prop where
  stores : ∀ stored ∈ lines.stores,
    stored.1.val * 128 ≤ stored.2 ∧ stored.2 < stored.1.val * 128 + 128
  bufferIndex : lines.bufferIndex.toNat ≤ 128
  bufferIndices : ∀ terminal, (lines.bufferIndices terminal).toNat ≤ 128

/-- `terminal_buffer` points at the displayed terminal's region. -/
def Lines.PointsAtDisplayed (lines : Lines) : Prop :=
  lines.terminalBuffer = lines.currentTerminal.val * 128

/-- Enter is pressed only while the line has room for it. -/
def EnterFits (machine : Machine) : Label → Prop
  | .key scanCode _ => scanCode = 0x1C → machine.keyboard.lines.bufferIndex.toNat < 128
  | _ => True

section LineBounds

variable {lines : Lines}

/-! ### The buffer index -/

theorem toNat_succ {index : UInt8} (room : index.toNat < 128) :
    (index + 1).toNat = index.toNat + 1 := by
  rw [UInt8.toNat_add, UInt8.toNat_one]
  omega

theorem toNat_pred {index : UInt8} (nonzero : index ≠ 0) :
    (index - 1).toNat = index.toNat - 1 := by
  have positive : 1 ≤ index := by
    rw [UInt8.le_iff_toNat_le, UInt8.toNat_one]
    exact Nat.one_le_iff_ne_zero.mpr fun zero => nonzero (UInt8.toNat_inj.mp zero)
  exact UInt8.toNat_sub_of_le _ _ positive

/-! ### What each move does to the bounds -/

theorem Lines.InBounds.typeByte (inBounds : lines.InBounds) (points : lines.PointsAtDisplayed)
    (room : lines.bufferIndex.toNat < 128) (byte : UInt8) : (lines.typeByte byte).InBounds := by
  constructor
  case stores =>
    intro stored member
    rcases List.mem_append.mp member with older | new
    · exact inBounds.stores stored older
    · rw [List.mem_singleton.mp new, points]
      dsimp only
      omega
  case bufferIndex =>
    show (lines.bufferIndex + 1).toNat ≤ 128
    rw [toNat_succ room]
    omega
  case bufferIndices => exact inBounds.bufferIndices

/-- Enter stores in the last place that the printable keys leave free, or
behind the region. -/
theorem Lines.InBounds.enter_iff (inBounds : lines.InBounds) (points : lines.PointsAtDisplayed) :
    lines.enter.InBounds ↔ lines.bufferIndex.toNat < 128 := by
  constructor
  · intro after
    have new := (after.stores (lines.currentTerminal,
      lines.terminalBuffer + lines.bufferIndex.toNat)
      (List.mem_append_right _ List.mem_cons_self)).2
    rw [points] at new
    dsimp only at new
    omega
  · intro room
    have typed := inBounds.typeByte points room 0x0A
    exact ⟨typed.stores, typed.bufferIndex, typed.bufferIndices⟩

theorem Lines.InBounds.keyboardBackspace (inBounds : lines.InBounds)
    (points : lines.PointsAtDisplayed) : lines.keyboardBackspace.InBounds := by
  have bound := inBounds.bufferIndex
  unfold Lines.keyboardBackspace
  split
  · exact inBounds
  · rename_i nonzero
    have before := toNat_pred nonzero
    constructor
    case stores =>
      intro stored member
      rcases List.mem_append.mp member with older | new
      · exact inBounds.stores stored older
      · rw [List.mem_singleton.mp new, points]
        dsimp only
        omega
    case bufferIndex =>
      show (lines.bufferIndex - 1).toNat ≤ 128
      omega
    case bufferIndices => exact inBounds.bufferIndices

theorem Lines.InBounds.switchTerminal (inBounds : lines.InBounds) (termId : Terminal)
    (freePid : Bool) : (lines.switchTerminal termId freePid).InBounds := by
  have saved : ∀ terminal, (Function.update lines.bufferIndices lines.currentTerminal
      lines.bufferIndex terminal).toNat ≤ 128 := by
    intro terminal
    by_cases here : terminal = lines.currentTerminal
    · rw [here, Function.update_self]
      exact inBounds.bufferIndex
    · rw [Function.update_of_ne here]
      exact inBounds.bufferIndices terminal
  unfold Lines.switchTerminal
  split
  · exact inBounds
  · split
    · exact inBounds
    · exact ⟨inBounds.stores, saved termId, saved⟩

theorem Lines.PointsAtDisplayed.move {scanCode : UInt8} {lines' : Lines}
    (points : lines.PointsAtDisplayed) (move : LineMove scanCode lines lines') :
    lines'.PointsAtDisplayed := by
  cases move with
  | keep => exact points
  | typed byte _ => exact points
  | entered _ => exact points
  | erased =>
      unfold Lines.keyboardBackspace
      split
      · exact points
      · exact points
  | switched termId freePid =>
      unfold Lines.switchTerminal
      split
      · exact points
      · split
        · exact points
        · rfl

/-- Every key but Enter keeps the bounds. -/
theorem Lines.InBounds.move {scanCode : UInt8} {lines' : Lines} (inBounds : lines.InBounds)
    (points : lines.PointsAtDisplayed) (notEnter : scanCode ≠ 0x1C)
    (move : LineMove scanCode lines lines') : lines'.InBounds := by
  cases move with
  | keep => exact inBounds
  | typed byte room =>
      have room := UInt8.lt_iff_toNat_lt.mp room
      have limit : (127 : UInt8).toNat = 127 := rfl
      exact inBounds.typeByte points (by omega) byte
  | entered enter => exact absurd enter notEnter
  | erased => exact inBounds.keyboardBackspace points
  | switched termId freePid => exact inBounds.switchTerminal termId freePid

end LineBounds

section Machine

variable {behind : KeyMap → UInt8 → UInt8} {machine machine' : Machine}

/-! ### Reads -/

/-- A call changes no line. -/
theorem lines_call {terminal : Terminal} {fd : Int} {isNull : Bool} {nbytes : Int}
    (taken : machine.call terminal fd isNull nbytes = some machine') :
    machine'.keyboard = machine.keyboard := by
  unfold Machine.call at taken
  split at taken
  · split_ifs at taken <;> cases taken <;> rfl
  · cases taken

/-- A read stores nothing by the keyboard handler, and it can only reset
`buffer_index`. -/
theorem lines_proceed {terminal : Terminal} (taken : machine.proceed terminal = some machine') :
    machine'.keyboard.lines.stores = machine.keyboard.lines.stores ∧
      machine'.keyboard.lines.bufferIndices = machine.keyboard.lines.bufferIndices ∧
      machine'.keyboard.lines.terminalBuffer = machine.keyboard.lines.terminalBuffer ∧
      machine'.keyboard.lines.currentTerminal = machine.keyboard.lines.currentTerminal ∧
      (machine'.keyboard.lines.bufferIndex = machine.keyboard.lines.bufferIndex ∨
        machine'.keyboard.lines.bufferIndex = 0) := by
  unfold Machine.proceed at taken
  dsimp only at taken
  split at taken
  · cases taken
  · split at taken
    · cases taken
      exact ⟨rfl, rfl, rfl, rfl, .inl rfl⟩
    · cases taken
      exact ⟨rfl, rfl, rfl, rfl, .inl rfl⟩
  · cases taken
    exact ⟨rfl, rfl, rfl, rfl, .inl rfl⟩
  · split at taken
    · cases taken
      exact ⟨rfl, rfl, rfl, rfl, .inl rfl⟩
    · cases taken
      exact ⟨rfl, rfl, rfl, rfl, .inr rfl⟩

/-! ### Runs -/

/-- The displayed region is known, and everything is in bounds. -/
structure BoundsOk (machine : Machine) : Prop where
  inBounds : machine.keyboard.lines.InBounds
  points : machine.keyboard.lines.PointsAtDisplayed

theorem pointsAtDisplayed_step {label : Label}
    (points : machine.keyboard.lines.PointsAtDisplayed)
    (taken : machine.step behind label = some machine') :
    machine'.keyboard.lines.PointsAtDisplayed := by
  cases label with
  | key scanCode freePid =>
      cases taken
      exact points.move (lineMove_keyboardHandler behind freePid scanCode machine.keyboard)
  | call terminal fd isNull nbytes => rwa [lines_call taken]
  | proceed terminal =>
      rcases lines_proceed taken with ⟨-, -, pointer, displayed, -⟩
      rwa [Lines.PointsAtDisplayed, pointer, displayed]

/-- A step keeps the bounds exactly when it presses no Enter without room. -/
theorem inBounds_step_iff {label : Label} (ok : BoundsOk machine)
    (taken : machine.step behind label = some machine') :
    machine'.keyboard.lines.InBounds ↔ EnterFits machine label := by
  cases label with
  | key scanCode freePid =>
      cases taken
      show (keyboardHandler behind freePid scanCode machine.keyboard).lines.InBounds ↔ _
      by_cases enter : scanCode = 0x1C
      · subst enter
        rw [keyboardHandler_enter, ok.inBounds.enter_iff ok.points]
        exact ⟨fun room _ => room, fun fits => fits rfl⟩
      · have moved := ok.inBounds.move ok.points enter
          (lineMove_keyboardHandler behind freePid scanCode machine.keyboard)
        exact iff_of_true moved fun isEnter => absurd isEnter enter
  | call terminal fd isNull nbytes =>
      rw [lines_call taken]
      exact iff_of_true ok.inBounds trivial
  | proceed terminal =>
      rcases lines_proceed taken with ⟨stores, indices, -, -, index⟩
      refine iff_of_true ⟨stores ▸ ok.inBounds.stores, ?_, indices ▸ ok.inBounds.bufferIndices⟩
        trivial
      rcases index with same | reset
      · rw [same]
        exact ok.inBounds.bufferIndex
      · rw [reset]
        exact Nat.zero_le _

theorem boundsOk_start : BoundsOk Machine.start :=
  ⟨⟨by simp [Machine.start], Nat.zero_le _, fun _ => Nat.zero_le _⟩, rfl⟩

/-- **Line bounds, exactly.** In a run from the initial statics, every store of
the keyboard handler is inside the displayed terminal's region and no index
exceeds 128, if and only if every Enter is pressed with `buffer_index` below 128. -/
theorem inBounds_iff_enterFits (behind : KeyMap → UInt8 → UInt8) (labels : List Label) :
    Step.AllStates (Machine.step behind) (fun machine => machine.keyboard.lines.InBounds)
        Machine.start labels ↔
      Step.AllSteps (Machine.step behind) EnterFits Machine.start labels := by
  have exactly : ∀ machine label machine', BoundsOk machine →
      machine.step behind label = some machine' →
      (machine'.keyboard.lines.InBounds ↔ EnterFits machine label) :=
    fun _ _ _ ok taken => inBounds_step_iff ok taken
  have kept : ∀ machine label machine', BoundsOk machine →
      machine.step behind label = some machine' → EnterFits machine label → BoundsOk machine' :=
    fun _ _ _ ok taken fits =>
      ⟨(inBounds_step_iff ok taken).mpr fits, pointsAtDisplayed_step ok.points taken⟩
  exact Step.allStates_iff_allSteps exactly kept boundsOk_start boundsOk_start.inBounds

/-- Enter, pressed again and again while no program reads. -/
theorem not_forall_inBounds :
    ¬ ∀ behind labels, Step.AllStates (Machine.step behind)
      (fun machine => machine.keyboard.lines.InBounds) Machine.start labels := by
  intro all
  have ran : (Step.run (Machine.step fun _ _ => 0) Machine.start
      (List.replicate 129 (.key 0x1C true))).map
        (fun machine => machine.keyboard.lines.stores.getLast?) = some (some (0, 128)) := by
    decide +kernel
  rcases Option.map_eq_some_iff.mp ran with ⟨final, finalEq, last⟩
  have inBounds := (all _ (List.replicate 129 (.key 0x1C true))).final finalEq
  have behindRegion := (inBounds.stores _ (List.mem_of_getLast? last)).2
  simp at behindRegion

end Machine

end MonolithicKernel.Input
