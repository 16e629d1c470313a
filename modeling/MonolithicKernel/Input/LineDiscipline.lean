import MonolithicKernel.Input.Isolation
import MonolithicKernel.Input.LineEditor

/-!
Owns the line discipline: what the reads of one terminal deliver, against an
editor that follows the same keys. The buffer is the line in the making, then the
finished line with its newline, and then it is cleared; it is never two of these
at once, so that the reads deliver the lines of the editor as long as no key edits
the buffer between an Enter and the end of the read that takes the line.

Does not own reads of several terminals.
-/

namespace MonolithicKernel.Input

open MonolithicKernel.Foundation
open MonolithicKernel.Lib
open MonolithicKernel.Process (Terminal)

/-- The driver, an editor that follows its keys, and what the reads have returned. -/
structure Session where
  machine : Machine
  editor : Editor
  delivered : List Bytes

/-- What a step of a read returns: its bytes when they are all cleared. -/
def completed : ReadStage → ReadStage → List Bytes
  | .clearing _ _, .returned bytes => [bytes.map Prod.fst]
  | _, _ => []

def Session.step (behind : KeyMap → UInt8 → UInt8) : Step Session Label := fun session label =>
  (session.machine.step behind label).map fun machine =>
    match label with
    | .key scanCode _ =>
        match session.machine.keyboard.edit behind scanCode with
        | none => { session with machine := machine }
        | some edit => { session with machine := machine, editor := session.editor.edit edit }
    | .call _ _ _ _ => { session with machine := machine }
    | .proceed terminal =>
        { session with
          machine := machine
          delivered := session.delivered ++
            completed (session.machine.readers terminal) (machine.readers terminal) }

/-- Each read so far has returned its line, with a newline behind it. -/
def LineDiscipline (session : Session) : Prop :=
  session.delivered <+: session.editor.finished.map (· ++ [0x0A])

/-- The terminal is displayed, and nothing is typed on it or reads from it. -/
structure Fresh (machine : Machine) (terminal : Terminal) : Prop where
  displayed : machine.keyboard.lines.currentTerminal = terminal
  points : machine.keyboard.lines.PointsAtDisplayed
  empty : machine.keyboard.lines.bufferIndex = 0
  noEnter : machine.keyboard.lines.enterState terminal = false
  noRead : ∃ bytes, machine.readers terminal = .returned bytes

def Session.begin (machine : Machine) : Session := ⟨machine, ⟨[], []⟩, []⟩

/-- The terminal stays displayed, its lines have at most 127 characters, and its
process reads whole lines. -/
def OneTerminal (behind : KeyMap → UInt8 → UInt8) (terminal : Terminal) (session : Session) :
    Label → Prop
  | .key scanCode freePid =>
      (keyboardHandler behind freePid scanCode
        session.machine.keyboard).lines.currentTerminal = terminal ∧
      (session.machine.keyboard.edit behind scanCode = some .enter →
        session.editor.current.length ≤ 127)
  | .call caller fd isNull nbytes => caller = terminal ∧ fd = 0 ∧ isNull = false ∧ 128 ≤ nbytes
  | .proceed reader => reader = terminal

/-- No character and no Enter comes while a read clears the buffer, and no line
grows beyond 127 characters. -/
def Harmless (terminal : Terminal) (session : Session) : Edit → Prop
  | .char _ => (session.machine.readers terminal).isClearing = false ∧
      session.editor.current.length < 127
  | .enter => (session.machine.readers terminal).isClearing = false
  | .erase => True

/-- No key edits a finished line that is not read yet, and other edits are harmless. -/
def Undisturbed (behind : KeyMap → UInt8 → UInt8) (terminal : Terminal) (session : Session) :
    Label → Prop
  | .key scanCode _ => ∀ edit ∈ session.machine.keyboard.edit behind scanCode,
      session.machine.keyboard.lines.enterState terminal = false ∧ Harmless terminal session edit
  | _ => True

instance (behind : KeyMap → UInt8 → UInt8) (terminal : Terminal) (session : Session) :
    (label : Label) → Decidable (OneTerminal behind terminal session label)
  | .key _ _ => inferInstanceAs (Decidable (_ ∧ _))
  | .call _ _ _ _ => inferInstanceAs (Decidable (_ ∧ _))
  | .proceed _ => inferInstanceAs (Decidable (_ = _))

instance (terminal : Terminal) (session : Session) :
    (edit : Edit) → Decidable (Harmless terminal session edit)
  | .char _ => inferInstanceAs (Decidable (_ ∧ _))
  | .enter => inferInstanceAs (Decidable (_ = _))
  | .erase => instDecidableTrue

instance (behind : KeyMap → UInt8 → UInt8) (terminal : Terminal) (session : Session) :
    (label : Label) → Decidable (Undisturbed behind terminal session label)
  | .key _ _ => inferInstanceAs (Decidable (∀ edit ∈ _, _ ∧ Harmless _ _ edit))
  | .call _ _ _ _ => instDecidableTrue
  | .proceed _ => instDecidableTrue

/-! ### The three uses of the buffer -/

/-- No read is going on, or it waits for a whole line. -/
inductive Idle : ReadStage → Prop where
  | returned (bytes : List (UInt8 × Option Terminal)) : Idle (.returned bytes)
  | waiting {nbytes : Nat} : 128 ≤ nbytes → Idle (.waiting nbytes)

inductive Phase (terminal : Terminal) (lines : Lines) (stage : ReadStage) (editor : Editor)
    (delivered : List Bytes) : Prop where
  /-- The buffer is the line that is being typed. -/
  | editing : Idle stage → lines.enterState terminal = false → lines.Holds editor.current →
      editor.current.length ≤ 127 → editor.finished.map (· ++ [0x0A]) = delivered →
      Phase terminal lines stage editor delivered
  /-- The buffer is a finished line. -/
  | pending {line : Bytes} : Idle stage ∨ stage = .counted (line.length + 1) →
      lines.enterState terminal = true → lines.Holds (line ++ [0x0A]) → line.length ≤ 127 →
      editor.current = [] →
      editor.finished.map (· ++ [0x0A]) = delivered ++ [line ++ [0x0A]] →
      Phase terminal lines stage editor delivered
  /-- The finished line is copied. -/
  | clearing {bytes : List (UInt8 × Option Terminal)} {i : Nat} : stage = .clearing bytes i →
      lines.enterState terminal = false → editor.current = [] →
      editor.finished.map (· ++ [0x0A]) = delivered ++ [bytes.map Prod.fst] →
      Phase terminal lines stage editor delivered

structure SessionOk (terminal : Terminal) (session : Session) : Prop where
  displayed : session.machine.keyboard.lines.currentTerminal = terminal
  points : session.machine.keyboard.lines.PointsAtDisplayed
  phase : Phase terminal session.machine.keyboard.lines (session.machine.readers terminal)
    session.editor session.delivered

theorem Phase.lineDiscipline {terminal : Terminal} {lines : Lines} {stage : ReadStage}
    {editor : Editor} {delivered : List Bytes}
    (phase : Phase terminal lines stage editor delivered) :
    delivered <+: editor.finished.map (· ++ [0x0A]) := by
  cases phase with
  | editing _ _ _ _ all => exact all ▸ List.prefix_rfl
  | pending _ _ _ _ _ one => exact one ▸ List.prefix_append ..
  | clearing _ _ _ one => exact one ▸ List.prefix_append ..

section Steps

variable {behind : KeyMap → UInt8 → UInt8} {terminal : Terminal} {lines : Lines}
  {stage : ReadStage} {editor : Editor} {delivered : List Bytes}

/-! ### Keys -/

@[simp] theorem enterState_keyboardBackspace (lines : Lines) :
    lines.keyboardBackspace.enterState = lines.enterState := by
  unfold Lines.keyboardBackspace
  split_ifs
  · rfl
  · rfl

/-- An edit of the line that is being typed. -/
theorem Phase.edit_editing (idle : Idle stage) (noEnter : lines.enterState terminal = false)
    (holds : lines.Holds editor.current) (short : editor.current.length ≤ 127)
    (all : editor.finished.map (· ++ [0x0A]) = delivered)
    (displayed : lines.currentTerminal = terminal) (edit : Edit)
    (room : ∀ byte, edit = .char byte → editor.current.length < 127) :
    Phase terminal (lines.apply edit) stage (editor.edit edit) delivered := by
  cases edit with
  | char byte =>
      have small := room byte rfl
      have accepted : lines.bufferIndex < 127 := by
        rw [UInt8.lt_iff_toNat_lt, holds.length]
        exact small
      rw [Lines.apply, if_pos accepted]
      refine .editing idle noEnter (holds.typeByte (by omega) byte) ?_ all
      show (editor.current ++ [byte]).length ≤ 127
      rw [List.length_append, List.length_singleton]
      omega
  | enter =>
      have typed := holds.typeByte (by omega) 0x0A
      have finished : (lines.apply .enter).Holds (editor.current ++ [0x0A]) :=
        ⟨typed.length, typed.contents⟩
      refine .pending (.inl idle) ?_ finished short rfl ?_
      · show Function.update lines.enterState lines.currentTerminal true terminal = true
        rw [displayed, Function.update_self]
      · show (editor.finished ++ [editor.current]).map (· ++ [0x0A]) = _
        rw [List.map_append, all]
        rfl
  | erase =>
      refine .editing idle ?_ holds.keyboardBackspace ?_ all
      · show lines.keyboardBackspace.enterState terminal = false
        rw [enterState_keyboardBackspace, noEnter]
      · show editor.current.dropLast.length ≤ 127
        rw [List.length_dropLast]
        omega

theorem SessionOk.key {session session' : Session} {scanCode : UInt8} {freePid : Bool}
    (ok : SessionOk terminal session)
    (inDomain : OneTerminal behind terminal session (.key scanCode freePid))
    (undisturbed : Undisturbed behind terminal session (.key scanCode freePid))
    (taken : session.step behind (.key scanCode freePid) = some session') :
    SessionOk terminal session' := by
  have points := ok.points.move
    (lineMove_keyboardHandler behind freePid scanCode session.machine.keyboard)
  have phase := ok.phase
  cases isEdit : session.machine.keyboard.edit behind scanCode with
  | none =>
      have same := lines_of_displayed freePid isEdit
        (inDomain.1.trans ok.displayed.symm)
      simp only [Session.step, Machine.step, Option.map_some, isEdit, Option.some.injEq] at taken
      subst taken
      refine ⟨inDomain.1, points, ?_⟩
      dsimp only
      rw [same]
      exact phase
  | some edit =>
      have edited := lines_of_edit freePid isEdit
      simp only [Session.step, Machine.step, Option.map_some, isEdit, Option.some.injEq] at taken
      rcases undisturbed edit isEdit with ⟨unread, harmless⟩
      subst taken
      refine ⟨inDomain.1, points, ?_⟩
      dsimp only
      rw [edited]
      cases phase with
      | editing idle noEnter holds short all =>
          refine .edit_editing idle noEnter holds short all ok.displayed edit ?_
          rintro byte rfl
          exact harmless.2
      | pending _ entered _ _ _ _ =>
          cases entered.symm.trans unread
      | clearing stageEq noEnter nothing one =>
          cases edit with
          | char byte =>
              have notClearing := harmless.1
              rw [stageEq] at notClearing
              cases notClearing
          | enter =>
              have notClearing : (session.machine.readers terminal).isClearing = false := harmless
              rw [stageEq] at notClearing
              cases notClearing
          | erase =>
              refine .clearing stageEq ?_ ?_ one
              · show session.machine.keyboard.lines.keyboardBackspace.enterState terminal = false
                rw [enterState_keyboardBackspace, noEnter]
              · show session.editor.current.dropLast = []
                rw [nothing, List.dropLast_nil]

/-! ### Reads -/

theorem SessionOk.call {session session' : Session} {caller : Terminal} {fd : Int} {isNull : Bool}
    {nbytes : Int} (ok : SessionOk terminal session)
    (inDomain : OneTerminal behind terminal session (.call caller fd isNull nbytes))
    (taken : session.step behind (.call caller fd isNull nbytes) = some session') :
    SessionOk terminal session' := by
  rcases inDomain with ⟨rfl, rfl, rfl, whole⟩
  rcases Option.map_eq_some_iff.mp taken with ⟨machine', called, rfl⟩
  have phase := ok.phase
  have called : session.machine.call caller 0 false nbytes = some machine' := called
  unfold Machine.call at called
  split at called
  · rename_i bytes stageEq
    simp only [ne_eq, not_true_eq_false, if_false, Bool.false_eq_true, and_false,
      if_neg (show ¬ nbytes < 0 by omega), Option.some.injEq] at called
    subst called
    have waits : Idle (.waiting nbytes.toNat) := .waiting (by omega)
    refine ⟨ok.displayed, ok.points, ?_⟩
    show Phase caller session.machine.keyboard.lines
      (Function.update session.machine.readers caller (.waiting nbytes.toNat) caller)
      session.editor session.delivered
    rw [Function.update_self]
    cases phase with
    | editing idle noEnter holds short all => exact .editing waits noEnter holds short all
    | pending stage entered holds short nothing one =>
        exact .pending (.inl waits) entered holds short nothing one
    | clearing other _ _ _ => cases stageEq.symm.trans other
  · cases called

/-- A step of the read moves it to `stage` and leaves `lines`. -/
theorem sessionOk_setReader (session : Session) (reader : Terminal)
    (displayed : lines.currentTerminal = reader) (points : lines.PointsAtDisplayed)
    (phase : Phase reader lines stage session.editor
      (session.delivered ++ completed (session.machine.readers reader) stage)) :
    let machine := (session.machine.setLines lines).setReader reader stage
    SessionOk reader { session with
      machine := machine
      delivered := session.delivered ++
        completed (session.machine.readers reader) (machine.readers reader) } := by
  have moved : ((session.machine.setLines lines).setReader reader stage).readers reader = stage :=
    Function.update_self ..
  refine ⟨displayed, points, ?_⟩
  dsimp only
  rw [moved]
  exact phase

/-- A read that waits goes on when its line is finished, and takes all of it. -/
theorem SessionOk.proceed {session session' : Session} {reader : Terminal}
    (ok : SessionOk terminal session)
    (inDomain : OneTerminal behind terminal session (.proceed reader))
    (taken : session.step behind (.proceed reader) = some session') :
    SessionOk terminal session' := by
  have sameReader : reader = terminal := inDomain
  subst sameReader
  rcases Option.map_eq_some_iff.mp taken with ⟨machine', went, rfl⟩
  have went : session.machine.proceed reader = some machine' := went
  have phase := ok.phase
  unfold Machine.proceed at went
  dsimp only at went
  cases stageEq : session.machine.readers reader with
  | returned bytes =>
      rw [stageEq] at went
      cases went
  | waiting nbytes =>
      rw [stageEq] at went phase
      dsimp only at went
      cases phase with
      | editing idle noEnter holds short all =>
          rw [if_pos noEnter] at went
          cases went
          refine ⟨ok.displayed, ok.points, ?_⟩
          dsimp only
          rw [stageEq]
          exact .editing idle noEnter holds short (all.trans (List.append_nil _).symm)
      | @pending line stage entered holds short nothing one =>
          rw [if_neg (by simp [entered])] at went
          cases went
          rcases stage with idle | other
          · cases idle with
            | waiting whole =>
                have length := holds.length
                rw [List.length_append, List.length_singleton] at length
                refine sessionOk_setReader session reader ok.displayed ok.points ?_
                rw [stageEq, length, if_neg (by omega)]
                exact .pending (.inr rfl) entered holds short nothing
                  (one.trans (congrArg (· ++ _) (List.append_nil _).symm))
          · cases other
      | clearing other _ _ _ => cases other
  | counted nbytes =>
      rw [stageEq] at went phase
      cases went
      cases phase with
      | editing idle _ _ _ _ => cases idle
      | @pending line stage entered holds short nothing one =>
          rcases stage with idle | same
          · cases idle
          · cases same
            have copied := holds.contents
            rw [List.length_append, List.length_singleton] at copied
            refine sessionOk_setReader session reader ?_ ?_ ?_
            · exact ok.displayed
            · exact ok.points
            · rw [stageEq]
              refine .clearing rfl (Function.update_self ..) nothing (one.trans ?_)
              show session.delivered ++ [line ++ [0x0A]] = (session.delivered ++ []) ++ [_]
              rw [List.append_nil, List.map_map]
              exact congrArg (fun bytes => session.delivered ++ [bytes]) copied.symm
      | clearing other _ _ _ => cases other
  | clearing bytes i =>
      rw [stageEq] at went phase
      dsimp only at went
      cases phase with
      | editing idle _ _ _ _ => cases idle
      | pending stage _ _ _ _ _ =>
          rcases stage with idle | other
          · cases idle
          · cases other
      | clearing same noEnter nothing one =>
          cases same
          split_ifs at went
          · cases went
            refine sessionOk_setReader session reader ?_ ?_ ?_
            · exact ok.displayed
            · exact ok.points
            · rw [stageEq]
              exact .clearing rfl noEnter nothing
                (one.trans (congrArg (· ++ _) (List.append_nil _).symm))
          · cases went
            refine sessionOk_setReader session reader ok.displayed ok.points ?_
            rw [stageEq]
            refine .editing (.returned bytes) noEnter ?_ ?_ one
            · rw [nothing]
              exact ⟨rfl, rfl⟩
            · rw [nothing]
              exact Nat.zero_le _

end Steps

theorem sessionOk_begin {machine : Machine} {terminal : Terminal} (fresh : Fresh machine terminal) :
    SessionOk terminal (.begin machine) := by
  rcases fresh.noRead with ⟨bytes, stageEq⟩
  refine ⟨fresh.displayed, fresh.points, ?_⟩
  refine .editing ?_ fresh.noEnter ⟨?_, rfl⟩ (Nat.zero_le _) rfl
  · show Idle (machine.readers terminal)
    rw [stageEq]
    exact .returned bytes
  · show machine.keyboard.lines.bufferIndex.toNat = 0
    rw [fresh.empty]
    rfl

/-- **The line discipline.** On a displayed terminal that starts without a line,
as long as no key edits a finished line before its read has taken it, and no
character or Enter comes while the read clears the buffer, the reads deliver
exactly the finished lines in order, each with one newline at its end. -/
theorem lineDiscipline_of_undisturbed (behind : KeyMap → UInt8 → UInt8) {machine : Machine}
    {terminal : Terminal} (fresh : Fresh machine terminal) (labels : List Label)
    (met : Step.AllSteps (Session.step behind) (fun session label =>
      OneTerminal behind terminal session label ∧ Undisturbed behind terminal session label)
      (.begin machine) labels) :
    Step.AllStates (Session.step behind) LineDiscipline (.begin machine) labels := by
  have preserved : ∀ session label session', SessionOk terminal session →
      (OneTerminal behind terminal session label ∧ Undisturbed behind terminal session label) →
      session.step behind label = some session' → SessionOk terminal session' := by
    intro session label session' ok met taken
    cases label with
    | key scanCode freePid => exact ok.key met.1 met.2 taken
    | call caller fd isNull nbytes => exact ok.call met.1 taken
    | proceed reader => exact ok.proceed met.1 taken
  exact Step.allStates_of_allSteps preserved (fun _ ok => ok.phase.lineDiscipline)
    (sessionOk_begin fresh) met

theorem fresh_start : Fresh Machine.start 0 := ⟨rfl, rfl, rfl, rfl, [], rfl⟩

open Label in
/-- "a", Backspace, "b" and Enter, while a read waits; then "c". -/
def editedLine : List Label :=
  [call 0 0 false 128, key 0x1E true, key 0x0E true, key 0x30 true, key 0x1C true] ++
    .replicate 131 (proceed 0) ++ [key 0x2E true]

theorem lineDiscipline_editedLine :
    Step.AllStates (Session.step fun _ _ => 0) LineDiscipline (.begin Machine.start) editedLine :=
  lineDiscipline_of_undisturbed _ fresh_start editedLine (by decide +kernel)

open Label in
/-- "a", Enter and "b", and a read after that. -/
def typedAhead : List Label :=
  [key 0x1E true, key 0x1C true, key 0x30 true, call 0 0 false 128] ++
    .replicate 131 (proceed 0)

/-- The read returns "b" with the line before it. -/
theorem not_forall_lineDiscipline :
    ¬ ∀ behind machine terminal labels, Fresh machine terminal →
      Step.AllSteps (Session.step behind) (OneTerminal behind terminal) (.begin machine) labels →
      Step.AllStates (Session.step behind) LineDiscipline (.begin machine) labels := by
  intro all
  have inDomain : Step.AllSteps (Session.step fun _ _ => 0) (OneTerminal (fun _ _ => 0) 0)
      (.begin Machine.start) typedAhead := by
    decide +kernel
  have ran : (Step.run (Session.step fun _ _ => 0) (.begin Machine.start) typedAhead).map
      (fun session => (session.delivered, session.editor.finished)) =
        some ([[0x61, 0x0A, 0x62]], [[0x61]]) := by
    decide +kernel
  rcases Option.map_eq_some_iff.mp ran with ⟨final, finalEq, values⟩
  simp only [Prod.mk.injEq] at values
  have disciplined := (all _ _ 0 typedAhead fresh_start inDomain).final finalEq
  rw [LineDiscipline, values.1, values.2] at disciplined
  exact absurd disciplined (by decide)

end MonolithicKernel.Input
