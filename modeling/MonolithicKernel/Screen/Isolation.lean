import MonolithicKernel.Screen.Drawing

/-!
Owns the isolation of the three screens over runs. A switch moves pages and
cursors about and changes no screen; every other operation goes to one terminal.
So each screen is what the operations addressed to it make of a private screen.

Does not own the single operations.
-/

namespace MonolithicKernel.Screen

open MonolithicKernel.Foundation
open MonolithicKernel.Process (Terminal)

section Switch

variable {video : Video} {termId : Terminal}

/-! ### The switch -/

theorem terminalPage_ne_savedPage (terminal : Terminal) : terminalPage terminal ≠ savedPage := by
  unfold terminalPage savedPage
  omega

/-- The cursor on display is saved at all times. -/
theorem Displays.savePos_eq (displays : Displays video) : video.savePos = video := by
  unfold Video.savePos
  rw [displays.screenX, displays.screenY, Function.update_eq_self, Function.update_eq_self,
    ← displays.screenX, ← displays.screenY]

/-- The new page table, entry by entry. -/
theorem pageTable_remap (video : Video) (termId : Terminal) :
    (video.remap termId).pageTable savedPage = terminalPage termId ∧
      (video.remap termId).pageTable videoMemIndex = video.pageTable videoMemIndex ∧
      ∀ terminal, (video.remap termId).pageTable (terminalPage terminal) =
        if terminal = termId then videoMemIndex
        else if terminal = video.currentTerminal then terminalPage terminal
        else video.pageTable (terminalPage terminal) := by
  unfold Video.remap
  dsimp only
  refine ⟨Function.update_self .., ?_, ?_⟩
  · rw [Function.update_of_ne (by decide),
      Function.update_of_ne (terminalPage_ne_videoMemIndex termId).symm,
      Function.update_of_ne (terminalPage_ne_videoMemIndex _).symm]
  · intro terminal
    rw [Function.update_of_ne (terminalPage_ne_savedPage terminal)]
    split_ifs with new old
    · rw [new, Function.update_self]
    · rw [Function.update_of_ne fun same => new (terminalPage_injective same), old,
        Function.update_self]
    · rw [Function.update_of_ne fun same => new (terminalPage_injective same),
        Function.update_of_ne fun same => old (terminalPage_injective same)]

/-- The two copies: the old screen goes to its own page, the new one to 0xB8. -/
theorem window_remap (displays : Displays video) (differ : termId ≠ video.currentTerminal) :
    window 4096 (video.remap termId).memory videoMemIndex =
        window 4096 video.memory (terminalPage termId) ∧
      ∀ terminal, terminal ≠ termId → window 4096 (video.remap termId).memory (terminalPage terminal) =
        if terminal = video.currentTerminal then window 4096 video.memory videoMemIndex
        else window 4096 video.memory (terminalPage terminal) := by
  rcases pageTable_remap video termId with ⟨saved, kernel, terminals⟩
  have current := terminals video.currentTerminal
  rw [if_neg differ.symm, if_pos rfl] at current
  rw [displays.kernelPage] at kernel
  have unsaved : (video.remap termId).pageTable (terminalPage video.currentTerminal) ≠
      (video.remap termId).pageTable videoMemIndex := by
    rw [current, kernel]
    exact terminalPage_ne_videoMemIndex _
  have undisplayed : (video.remap termId).pageTable videoMemIndex ≠
      (video.remap termId).pageTable savedPage := by
    rw [saved, kernel]
    exact (terminalPage_ne_videoMemIndex _).symm
  have first := Redrawn.copyPage 4096 (video.remap termId).pageTable unsaved video.memory
  have second := Redrawn.copyPage 4096 (video.remap termId).pageTable undisplayed
    (copyUp 4096 (video.remap termId).pageTable (terminalPage video.currentTerminal * 4096 + 0)
      (videoMemIndex * 4096 + 0) video.memory 4096)
  rw [current, kernel] at first
  rw [saved, kernel] at second
  have memory : (video.remap termId).memory =
      copyUp 4096 (video.remap termId).pageTable (videoMemIndex * 4096 + 0) (savedPage * 4096 + 0)
        (copyUp 4096 (video.remap termId).pageTable
          (terminalPage video.currentTerminal * 4096 + 0) (videoMemIndex * 4096 + 0)
          video.memory 4096) 4096 := rfl
  rw [← memory] at second
  have otherPage : ∀ {terminal other : Terminal}, terminal ≠ other →
      terminalPage terminal ≠ terminalPage other :=
    fun differ same => differ (terminalPage_injective same)
  constructor
  · exact second.same.trans (first.others _ (otherPage differ))
  · intro terminal notNew
    have kept := second.others (terminalPage terminal) (terminalPage_ne_videoMemIndex terminal)
    refine kept.trans ?_
    split_ifs with old
    · rw [old]
      exact first.same
    · exact first.others _ (otherPage old)

/-- Exchanging the displayed terminal changes no screen. -/
theorem screen_remap (displays : Displays video) (differ : termId ≠ video.currentTerminal)
    (terminal : Terminal) : (video.remap termId).screen terminal = video.screen terminal := by
  rcases window_remap displays differ with ⟨new, others⟩
  have page : window 4096 (video.remap termId).memory
      ((video.remap termId).pageTable (terminalPage terminal)) =
        window 4096 video.memory (video.pageTable (terminalPage terminal)) := by
    rw [(pageTable_remap video termId).2.2 terminal, displays.terminalPages]
    by_cases isNew : terminal = termId
    · subst isNew
      rw [if_pos rfl, new, if_neg differ]
    · rw [if_neg isNew]
      have moved := others terminal isNew
      split_ifs at moved ⊢
      · exact moved
      · exact moved
  unfold Video.screen
  rw [page]
  rfl

/-- `switch_terminal` up to the check of `terminal_active`. -/
def Video.shown (termId : Terminal) (video : Video) : Video :=
  { (video.savePos.remap termId) with currentTerminal := termId }.restorePos

theorem displays_shown (displays : Displays video) (differ : termId ≠ video.currentTerminal) :
    Displays (video.shown termId) ∧
      ∀ terminal, (video.shown termId).screen terminal = video.screen terminal := by
  have screens := screen_remap displays differ
  rcases pageTable_remap video termId with ⟨saved, kernel, terminals⟩
  unfold Video.shown
  rw [displays.savePos_eq]
  refine ⟨?_, screens⟩
  constructor
  case kernelPage => exact kernel.trans displays.kernelPage
  case savedPage => exact saved
  case screenX => rfl
  case screenY => rfl
  case inBounds =>
    intro terminal
    have inBounds := displays.inBounds terminal
    rw [← screens terminal] at inBounds
    exact inBounds
  case terminalPages =>
    intro terminal
    refine (terminals terminal).trans ?_
    show _ = if terminal = termId then videoMemIndex else terminalPage terminal
    by_cases new : terminal = termId
    · rw [if_pos new, if_pos new]
    · rw [if_neg new, if_neg new, displays.terminalPages]
      split_ifs
      · rfl
      · rfl

end Switch

/-! ### Operations -/

/-- The terminal that an operation is addressed to, and what it draws there. A
switch is addressed to none, unless it starts a terminal and clears its screen. -/
def Op.target (video : Video) : Op → Option (Terminal × PrivateOp)
  | .tputc char terminal => some (terminal, .tputc char)
  | .userStore terminal offset byte => some (terminal, .store offset byte)
  | .putc char => some (video.currentTerminal, .putc char)
  | .clear => some (video.currentTerminal, .clear)
  | .terminalBackspace => some (video.currentTerminal, .backspace)
  | .switchTerminal termId freePid =>
      if termId ≠ video.currentTerminal ∧ freePid = true ∧ video.terminalActive termId = false then
        some (termId, .clear)
      else none

/-- The private operations of one terminal. -/
def Op.addressed (video : Video) (op : Op) (terminal : Terminal) : List PrivateOp :=
  match op.target video with
  | none => []
  | some (target, privateOp) => if terminal = target then [privateOp] else []

section Step

variable {video video' : Video} {terminal : Terminal} {op : Op}

/-- The step has the effect of its private operations. -/
structure StepOk (video video' : Video) (op : Op) : Prop where
  displays : Displays video'
  screens : ∀ terminal,
    video'.screen terminal =
      (op.addressed video terminal).foldl PrivateScreen.apply (video.screen terminal)

theorem Draws.stepOk {privateOp : PrivateOp}
    (draws : Draws video video' terminal ((video.screen terminal).apply privateOp))
    (displays : Displays video) (target : op.target video = some (terminal, privateOp)) :
    StepOk video video' op := by
  refine ⟨draws.displays displays ((displays.inBounds terminal).apply privateOp), ?_⟩
  intro other
  unfold Op.addressed
  rw [target]
  dsimp only
  split_ifs with here
  · rw [here]
    exact draws.screen_self
  · exact draws.screen_other displays here

/-- A switch is addressed to the terminal that it starts. -/
theorem addressed_switchTerminal (video : Video) (termId : Terminal) (freePid : Bool)
    (terminal : Terminal) :
    (Op.switchTerminal termId freePid).addressed video terminal =
      if termId ≠ video.currentTerminal ∧ freePid = true ∧ video.terminalActive termId = false ∧
        terminal = termId then [.clear]
      else [] := by
  unfold Op.addressed
  by_cases starts : termId ≠ video.currentTerminal ∧ freePid = true ∧
      video.terminalActive termId = false
  · have target : (Op.switchTerminal termId freePid).target video = some (termId, .clear) :=
      if_pos starts
    rw [target]
    dsimp only
    by_cases here : terminal = termId
    · rw [if_pos here, if_pos ⟨starts.1, starts.2.1, starts.2.2, here⟩]
    · rw [if_neg here, if_neg fun all => here all.2.2.2]
  · have target : (Op.switchTerminal termId freePid).target video = none := if_neg starts
    rw [target, if_neg fun all => starts ⟨all.1, all.2.1, all.2.2.1⟩]

theorem stepOk_of_no_target (displays : Displays video')
    (screens : ∀ terminal, video'.screen terminal = video.screen terminal)
    (target : op.target video = none) : StepOk video video' op := by
  refine ⟨displays, fun terminal => ?_⟩
  unfold Op.addressed
  rw [target]
  exact screens terminal

/-- Starting a terminal changes no page table entry and no cursor. -/
theorem displays_setActive (displays : Displays video) (active : Terminal → Bool) :
    Displays { video with terminalActive := active } :=
  ⟨displays.kernelPage, displays.terminalPages, displays.savedPage, displays.screenX,
    displays.screenY, displays.inBounds⟩

/-- A switch draws nothing, but the first switch to a terminal clears it. -/
theorem stepOk_switchTerminal (displays : Displays video) (termId : Terminal) (freePid : Bool) :
    StepOk video (video.switchTerminal termId freePid) (.switchTerminal termId freePid) := by
  by_cases shown : termId = video.currentTerminal
  · rw [Video.switchTerminal, if_pos shown]
    exact stepOk_of_no_target displays (fun _ => rfl) (if_neg fun starts => starts.1 shown)
  · by_cases full : freePid = false ∧ video.terminalActive termId = false
    · rw [Video.switchTerminal, if_neg shown, if_pos full]
      apply stepOk_of_no_target displays fun _ => rfl
      exact if_neg fun starts => by rw [full.1] at starts; cases starts.2.1
    · rcases displays_shown displays shown with ⟨displays', screens⟩
      have switched : video.switchTerminal termId freePid =
          if video.terminalActive termId = false then
            { video.shown termId with
              terminalActive := Function.update video.terminalActive termId true }.clear
          else video.shown termId := by
        rw [Video.switchTerminal, if_neg shown, if_neg full]
        rfl
      rw [switched]
      by_cases inactive : video.terminalActive termId = false
      · rw [if_pos inactive]
        have free : freePid = true := by
          cases freePid with
          | true => rfl
          | false => exact absurd ⟨rfl, inactive⟩ full
        have cleared := draws_clear (displays_setActive displays'
          (Function.update video.terminalActive termId true))
        refine ⟨cleared.displays (displays_setActive displays' _)
          ((displays'.inBounds termId).apply .clear), ?_⟩
        intro terminal
        rw [addressed_switchTerminal]
        by_cases here : terminal = termId
        · rw [if_pos ⟨shown, free, inactive, here⟩, here, ← screens termId]
          exact cleared.screen_self
        · rw [if_neg fun all => here all.2.2.2, ← screens terminal]
          exact cleared.screen_other (displays_setActive displays' _) here
      · rw [if_neg inactive]
        exact stepOk_of_no_target displays' screens (if_neg fun starts => inactive starts.2.2)

theorem stepOk (displays : Displays video) (op : Op) : StepOk video (video.step op) op := by
  cases op with
  | tputc char terminal => exact (draws_tputc (displays.inBounds terminal) char).stepOk displays rfl
  | userStore terminal offset byte =>
      exact (draws_userStore displays terminal offset byte).stepOk displays rfl
  | putc char => exact (draws_putc displays char).stepOk displays rfl
  | clear => exact (draws_clear displays).stepOk displays rfl
  | terminalBackspace => exact (draws_terminalBackspace displays).stepOk displays rfl
  | switchTerminal termId freePid => exact stepOk_switchTerminal displays termId freePid

end Step

/-! ### Runs -/

/-- The private operations that a run addresses to one terminal. -/
def history (video : Video) (terminal : Terminal) : List Op → List PrivateOp
  | [] => []
  | op :: ops => op.addressed video terminal ++ history (video.step op) terminal ops

theorem displays_start (memory : Nat → UInt8) : Displays (Video.start memory) := by
  constructor
  case terminalPages =>
    intro terminal
    revert terminal
    show ∀ terminal : Terminal, pagingInit (terminalPage terminal) =
      if terminal = 0 then videoMemIndex else terminalPage terminal
    decide
  case inBounds => exact fun _ => ⟨Nat.zero_lt_succ _, Nat.zero_le _, fun _ => rfl⟩
  all_goals rfl

theorem displays_run {video : Video} (displays : Displays video) (ops : List Op) :
    Displays (ops.foldl Video.step video) ∧
      ∀ terminal, (ops.foldl Video.step video).screen terminal =
        (history video terminal ops).foldl PrivateScreen.apply (video.screen terminal) := by
  induction ops generalizing video with
  | nil => exact ⟨displays, fun _ => rfl⟩
  | cons op ops inductionHypothesis =>
      have step := stepOk displays op
      rcases inductionHypothesis step.displays with ⟨final, screens⟩
      refine ⟨final, fun terminal => ?_⟩
      rw [List.foldl_cons, screens terminal, step.screens terminal, history, List.foldl_append]

/-- **Isolated screens.** After every sequence of operations from `paging_init`
on, each terminal's screen and cursor are what the operations addressed to it
make of a private screen; a switch changes none, except that it clears a
terminal it starts; page 0xB8 is the screen of the displayed terminal, and its
cursor is the one on display. -/
theorem screens_isolated (memory : Nat → UInt8) (ops : List Op) :
    let video := ops.foldl Video.step (Video.start memory)
    (∀ terminal, video.screen terminal =
      (history (Video.start memory) terminal ops).foldl PrivateScreen.apply
        ((Video.start memory).screen terminal)) ∧
    (∀ termId freePid terminal, (video.switchTerminal termId freePid).screen terminal =
      if termId ≠ video.currentTerminal ∧ freePid = true ∧ video.terminalActive termId = false ∧
        terminal = termId then (video.screen terminal).clear
      else video.screen terminal) ∧
    window 4096 video.memory videoMemIndex = (video.screen video.currentTerminal).page ∧
    video.screenX = (video.screen video.currentTerminal).x ∧
    video.screenY = (video.screen video.currentTerminal).y := by
  rcases displays_run (displays_start memory) ops with ⟨displays, screens⟩
  refine ⟨screens, ?_, ?_, displays.screenX, displays.screenY⟩
  · intro termId freePid terminal
    rw [(stepOk_switchTerminal displays termId freePid).screens terminal,
      addressed_switchTerminal]
    split_ifs
    · rfl
    · rfl
  · rw [displays.screen_current]
    show _ = window 4096 _ (Video.pageTable _ videoMemIndex)
    rw [displays.kernelPage]

end MonolithicKernel.Screen
