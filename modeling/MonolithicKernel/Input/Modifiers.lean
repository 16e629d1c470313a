import MonolithicKernel.Input.ScanCodes

/-!
Owns the modifier flags of the driver over the keys that are really held. A key
is held from its press code to its release code, 128 above it; repeats of the
press code change nothing. An extended key sends 0xE0 before either code. With the
four maps in a row every modifier code is recognised, but the driver takes each
byte for a code of its own: the flags follow the keys as long as no Shift key goes
up while the other one is down and no extended key looks like another modifier than
is held.

Does not own what the flags do to a printable key.
-/

namespace MonolithicKernel.Input

open MonolithicKernel.Foundation

/-! ### The flags -/

/-- The flags of the driver. -/
structure Flags where
  ctrlState : Bool
  shiftState : Bool
  altState : Bool
  capsState : Bool
  capsDirty : Bool
deriving DecidableEq, Repr

def Keyboard.flags (keyboard : Keyboard) : Flags :=
  ⟨keyboard.ctrlState, keyboard.shiftState, keyboard.altState, keyboard.capsState,
    keyboard.capsDirty⟩

/-- What a scan code does to the flags, one flag at a time. -/
def Flags.event (flags : Flags) (scanCode : UInt8) : Flags where
  ctrlState :=
    if scanCode = 0x1D then true else if scanCode = 0x9D then false else flags.ctrlState
  shiftState :=
    if scanCode = 0x2A ∨ scanCode = 0x36 then true
    else if scanCode = 0xAA ∨ scanCode = 0xB6 then false
    else flags.shiftState
  altState :=
    if scanCode = 0x38 then true else if scanCode = 0xB8 then false else flags.altState
  capsState :=
    if scanCode = 0x3A ∧ flags.capsDirty = false then !flags.capsState else flags.capsState
  capsDirty :=
    if scanCode = 0x3A then true else if scanCode = 0xBA then false else flags.capsDirty

/-- The codes of the modifier keys. -/
def modifierCodes : List UInt8 := [0x1D, 0x9D, 0x2A, 0x36, 0xAA, 0xB6, 0x38, 0xB8, 0x3A, 0xBA]

section Flags

variable (after : Nat → UInt8) (freePid : Bool) {scanCode : UInt8} {keyboard : Keyboard}

theorem flags_typeKey {behind : KeyMap → UInt8 → UInt8} (keyMap : KeyMap) (shift caps : Bool) :
    (typeKey behind scanCode keyMap shift caps keyboard).flags = keyboard.flags := by
  unfold typeKey
  split
  · rfl
  · rfl

/-- No scan code is looked up behind the last map. -/
theorem lookup_consecutive (scanCode : UInt8) :
    KeyMap.plain.lookup (consecutive after) scanCode =
      KeyMap.plain.lookup (consecutive fun _ => 0) scanCode := by
  have inMaps : KeyMap.plain.offset + scanCode.toNat < 256 := by
    have small := scanCode.toNat_lt
    rw [KeyMap.offset]
    omega
  unfold KeyMap.lookup consecutive keyMapMemory
  rw [if_pos inMaps, if_pos inMaps]

/-- No modifier code is printable when the maps follow each other. -/
theorem lookup_modifier (isModifier : scanCode ∈ modifierCodes) :
    KeyMap.plain.lookup (consecutive after) scanCode = 0 := by
  have silent : ∀ code ∈ modifierCodes, KeyMap.plain.lookup (consecutive fun _ => 0) code = 0 := by
    decide +kernel
  rw [lookup_consecutive, silent scanCode isModifier]

theorem event_of_other (other : scanCode ∉ modifierCodes) (flags : Flags) :
    flags.event scanCode = flags := by
  simp only [modifierCodes, List.mem_cons, List.not_mem_nil, or_false, not_or] at other
  rcases other with ⟨n1, n2, n3, n4, n5, n6, n7, n8, n9, n10⟩
  simp [Flags.event, n1, n2, n3, n4, n5, n6, n7, n8, n9, n10]

/-- A branch of the handler whose sides leave the same flags. -/
theorem flags_ite {condition : Prop} [Decidable condition] {first second : Keyboard} {flags : Flags}
    (holds : condition → first.flags = flags) (fails : ¬ condition → second.flags = flags) :
    (if condition then first else second).flags = flags := by
  split
  · exact holds ‹_›
  · exact fails ‹_›

/-- The handler recognises every modifier code and touches no flag otherwise. -/
theorem flags_keyboardHandler :
    (keyboardHandler (consecutive after) freePid scanCode keyboard).flags =
      keyboard.flags.event scanCode := by
  unfold keyboardHandler
  apply flags_ite
  · intro _
    refine flags_ite (fun isEnter => by rw [isEnter]; rfl) fun _ => ?_
    refine flags_ite (fun isErase => ?_) fun _ => ?_
    · rw [isErase, Lines.keyboardBackspace]
      rfl
    refine flags_ite (fun ctrl => by rw [ctrl]; rfl) fun notCtrl => ?_
    refine flags_ite (fun ctrl => by rw [ctrl]; rfl) fun notCtrlUp => ?_
    refine flags_ite (fun shift => ?_) fun notShift => ?_
    · cases shift with
      | inl left => rw [left]; rfl
      | inr right => rw [right]; rfl
    refine flags_ite (fun shift => ?_) fun notShiftUp => ?_
    · cases shift with
      | inl left => rw [left]; rfl
      | inr right => rw [right]; rfl
    refine flags_ite (fun caps => by simp [Flags.event, Keyboard.flags, caps]) fun notCaps => ?_
    refine flags_ite (fun caps => by rw [caps]; rfl) fun notCapsUp => ?_
    refine flags_ite (fun isTab => by rw [isTab]; rfl) fun _ => ?_
    refine flags_ite (fun alt => by rw [alt]; rfl) fun notAlt => ?_
    refine flags_ite (fun alt => by rw [alt]; rfl) fun notAltUp => ?_
    -- What is left is a repeat of Caps Lock, or no modifier.
    have unchanged : keyboard.flags = keyboard.flags.event scanCode := by
      by_cases isCaps : scanCode = 0x3A
      · rw [isCaps]
        have dirty : keyboard.capsDirty = true := by simpa [isCaps] using notCaps
        simp [Flags.event, Keyboard.flags, dirty]
      · refine (event_of_other ?_ _).symm
        simp only [not_or] at notShift notShiftUp
        simp [modifierCodes, notCtrl, notCtrlUp, notShift, notShiftUp, isCaps, notCapsUp, notAlt,
          notAltUp]
    exact flags_ite (fun _ => unchanged) fun _ => unchanged
  · intro printable
    rw [event_of_other fun isModifier => printable (lookup_modifier after isModifier)]
    refine flags_ite (fun _ => ?_) fun _ => rfl
    rw [flags_typeKey, flags_typeKey, flags_typeKey, flags_typeKey]

end Flags

/-! ### The keys -/

/-- A key with codes of its own, or one whose codes follow 0xE0. -/
inductive Key where
  | plain (code : UInt8)
  | extended (code : UInt8)
deriving DecidableEq, Repr

/-- The keys that there can be. The release of a plain key 0x60 or 0x61 would read as the
start of longer codes, and 0xE0 comes before no Caps Lock and no Shift key. -/
def Key.Exists : Key → Prop
  | .plain code => code < 128 ∧ code ≠ 0x60 ∧ code ≠ 0x61
  | .extended code => code < 128 ∧ code ≠ 0x2A ∧ code ≠ 0x36 ∧ code ≠ 0x3A

instance (key : Key) : Decidable key.Exists := by
  cases key <;> unfold Key.Exists <;> infer_instance

inductive KeyEvent where
  /-- A key goes down, or repeats itself. -/
  | press (key : Key)
  | release (key : Key)
  /-- The codes that a keyboard puts around those of some extended keys, so that these
  keys are read with the other state of Shift. -/
  | fakeShift (code : UInt8)
  /-- The Pause key, which says at once that it is up again. -/
  | pause
deriving DecidableEq, Repr

def Key.codes (up : UInt8) : Key → List UInt8
  | .plain code => [code + up]
  | .extended code => [0xE0, code + up]

/-- What the keyboard sends. -/
def KeyEvent.codes : KeyEvent → List UInt8
  | .press key => key.codes 0
  | .release key => key.codes 128
  | .fakeShift code => [0xE0, code]
  | .pause => [0xE1, 0x1D, 0x45, 0xE1, 0x9D, 0xC5]

def heldAfter (held : Key → Bool) : KeyEvent → Key → Bool
  | .press key => Function.update held key true
  | .release key => Function.update held key false
  | _ => held

/-- The driver and the keys: which of them are held, and how often Caps Lock has gone
down. -/
structure Desk where
  keyboard : Keyboard
  held : Key → Bool
  capsPresses : Nat

/-- A key goes up after it was down; nothing else is asked of the order. -/
def Desk.Possible (desk : Desk) : KeyEvent → Prop
  | .press key => key.Exists
  | .release key => key.Exists ∧ desk.held key = true
  | .fakeShift code => code = 0x2A ∨ code = 0xAA ∨ code = 0x36 ∨ code = 0xB6
  | .pause => True

instance (desk : Desk) (event : KeyEvent) : Decidable (desk.Possible event) := by
  cases event <;> unfold Desk.Possible <;> infer_instance

/-- What an event says about the keys. -/
def Desk.move (desk : Desk) (event : KeyEvent) : Desk :=
  { desk with
    held := heldAfter desk.held event
    capsPresses :=
      if event = .press (.plain 0x3A) ∧ desk.held (.plain 0x3A) = false then desk.capsPresses + 1
      else desk.capsPresses }

/-- The handler takes the codes of an event one by one. -/
def Desk.step (behind : KeyMap → UInt8 → UInt8) : Step Desk (KeyEvent × Bool) :=
  fun desk event =>
    if desk.Possible event.1 then some
      { desk.move event.1 with
        keyboard := event.1.codes.foldl
          (fun keyboard code => keyboardHandler behind event.2 code keyboard) desk.keyboard }
    else none

/-- No key is held and no flag is set. -/
def Desk.released (lines : Lines) : Desk where
  keyboard := ⟨false, false, false, false, false, lines⟩
  held := fun _ => false
  capsPresses := 0

/-- The flags say what is held, and Caps Lock is the parity of its presses. -/
structure Desk.Tracks (desk : Desk) : Prop where
  shiftState : desk.keyboard.shiftState = (desk.held (.plain 0x2A) || desk.held (.plain 0x36))
  ctrlState : desk.keyboard.ctrlState = desk.held (.plain 0x1D)
  altState : desk.keyboard.altState = desk.held (.plain 0x38)
  capsState : desk.keyboard.capsState = decide (desk.capsPresses % 2 = 1)

/-- Besides, the driver knows whether a Caps Lock code is a repeat. -/
structure Desk.Ok (desk : Desk) : Prop extends desk.Tracks where
  capsDirty : desk.keyboard.capsDirty = desk.held (.plain 0x3A)

/-- The driver takes the event for one that it is not: one Shift key goes up while the
other one is down, a right Ctrl or Alt differs from the left one, a fake Shift code
contradicts the Shift keys, or Pause releases Ctrl. -/
def Misleads (desk : Desk) : KeyEvent → Prop
  | .press (.plain _) => False
  | .release (.plain code) =>
      (code = 0x2A ∧ desk.held (.plain 0x36) = true) ∨
        (code = 0x36 ∧ desk.held (.plain 0x2A) = true)
  | .press (.extended code) =>
      (code = 0x1D ∨ code = 0x38) ∧ desk.held (.plain code) = false
  | .release (.extended code) =>
      (code = 0x1D ∨ code = 0x38) ∧ desk.held (.plain code) = true
  | .fakeShift code =>
      (desk.held (.plain 0x2A) || desk.held (.plain 0x36)) = decide (128 ≤ code)
  | .pause => desk.held (.plain 0x1D) = true

instance (desk : Desk) (event : KeyEvent) : Decidable (Misleads desk event) := by
  unfold Misleads
  split <;> infer_instance

/-- The press codes of the modifiers. -/
def pressCodes : List UInt8 := [0x1D, 0x2A, 0x36, 0x38, 0x3A]

section Keys

variable {after : Nat → UInt8} {desk next : Desk} {event : KeyEvent × Bool} {code : UInt8}

/-- Press codes are below 128, so only those of modifiers matter. -/
theorem event_press (isPress : code < 128) (other : code ∉ pressCodes)
    (flags : Flags) : flags.event code = flags := by
  apply event_of_other
  simp only [pressCodes, List.mem_cons, List.not_mem_nil, or_false, not_or] at other
  simp only [modifierCodes, List.mem_cons, List.not_mem_nil, or_false, not_or]
  refine ⟨other.1, ?_, other.2.1, other.2.2.1, ?_, ?_, other.2.2.2.1, ?_, other.2.2.2.2, ?_⟩
  all_goals
    rintro rfl
    exact absurd isPress (by decide)

/-- The release code of a key is that of a modifier when its press code is. -/
theorem event_release (isPress : code < 128) (other : code ∉ pressCodes)
    (flags : Flags) : flags.event (code + 128) = flags := by
  apply event_of_other
  intro isModifier
  have back : code + 128 - 128 = code := UInt8.add_sub_cancel ..
  have high : 128 ≤ code + 128 := by
    rw [UInt8.lt_iff_toNat_lt] at isPress
    rw [UInt8.le_iff_toNat_le, UInt8.toNat_add]
    simp only [UInt8.reduceToNat] at isPress ⊢
    omega
  have releases : ∀ release ∈ modifierCodes, 128 ≤ release →
      release - 128 ∈ pressCodes := by
    decide +kernel
  exact other (back ▸ releases _ isModifier high)

theorem event_extend (flags : Flags) : flags.event 0xE0 = flags := event_of_other (by decide) flags

/-- The flags behind the codes of an event. -/
theorem flags_foldl (freePid : Bool) (codes : List UInt8) (keyboard : Keyboard) :
    (codes.foldl (fun keyboard code =>
      keyboardHandler (consecutive after) freePid code keyboard) keyboard).flags =
        codes.foldl Flags.event keyboard.flags := by
  induction codes generalizing keyboard with
  | nil => rfl
  | cons code codes inductionHypothesis =>
      rw [List.foldl_cons, List.foldl_cons, inductionHypothesis,
        flags_keyboardHandler after freePid]

/-- The flags that would say what is held. -/
def Desk.flags (desk : Desk) : Flags where
  ctrlState := desk.held (.plain 0x1D)
  shiftState := desk.held (.plain 0x2A) || desk.held (.plain 0x36)
  altState := desk.held (.plain 0x38)
  capsState := decide (desk.capsPresses % 2 = 1)
  capsDirty := desk.held (.plain 0x3A)

theorem Desk.ok_iff : desk.Ok ↔ desk.keyboard.flags = desk.flags := by
  simp only [Keyboard.flags, Desk.flags, Flags.mk.injEq]
  constructor
  · intro ok
    exact ⟨ok.ctrlState, ok.shiftState, ok.altState, ok.capsState, ok.capsDirty⟩
  · rintro ⟨ctrl, shift, alt, caps, dirty⟩
    exact ⟨⟨shift, ctrl, alt, caps⟩, dirty⟩

theorem Desk.step_eq_some (taken : Desk.step (consecutive after) desk event = some next) :
    desk.Possible event.1 ∧
      next.keyboard.flags = event.1.codes.foldl Flags.event desk.keyboard.flags ∧
      next.flags = (desk.move event.1).flags := by
  unfold Desk.step at taken
  split at taken
  · cases taken
    exact ⟨‹_›, flags_foldl event.2 .., rfl⟩
  · cases taken

/-- When the driver knows about Caps Lock, tracking is all that can go wrong. -/
theorem Desk.tracks_iff (capsDirty : desk.keyboard.flags.capsDirty = desk.flags.capsDirty) :
    desk.Tracks ↔ desk.keyboard.flags = desk.flags :=
  ⟨fun tracks => Desk.ok_iff.mp ⟨tracks, capsDirty⟩, fun same => (Desk.ok_iff.mpr same).toTracks⟩

/-- The driver knows about Caps Lock after an event, and its flags are right unless the
event misleads it. -/
def Desk.Follows (desk : Desk) (event : KeyEvent) : Prop :=
  (event.codes.foldl Flags.event desk.flags).capsDirty = (desk.move event).flags.capsDirty ∧
    (event.codes.foldl Flags.event desk.flags = (desk.move event).flags ↔ ¬ Misleads desk event)

theorem mem_pressCodes :
    code ∈ pressCodes ↔ code = 0x1D ∨ code = 0x2A ∨ code = 0x36 ∨ code = 0x38 ∨ code = 0x3A := by
  simp [pressCodes]

/-- Keys that are no modifiers show in no flag. -/
theorem Desk.flags_move {event : KeyEvent} (desk : Desk)
    (same : ∀ key ∈ pressCodes, heldAfter desk.held event (.plain key) = desk.held (.plain key))
    (notCaps : event ≠ .press (.plain 0x3A)) : (desk.move event).flags = desk.flags := by
  have ctrl := same 0x1D (by decide)
  have left := same 0x2A (by decide)
  have right := same 0x36 (by decide)
  have alt := same 0x38 (by decide)
  have caps := same 0x3A (by decide)
  simp only [Desk.flags, Desk.move, ctrl, left, right, alt, caps, notCaps, false_and, if_false]

theorem Desk.follows_press_plain (desk : Desk) (isPress : code < 128) :
    desk.Follows (.press (.plain code)) := by
  have parity : (!decide (desk.capsPresses % 2 = 1)) = decide ((desk.capsPresses + 1) % 2 = 1) := by
    rw [← decide_not]
    congr 1
    apply propext
    omega
  have right : [code].foldl Flags.event desk.flags = (desk.move (.press (.plain code))).flags := by
    by_cases modifier : code ∈ pressCodes
    · rw [mem_pressCodes] at modifier
      rcases modifier with rfl | rfl | rfl | rfl | rfl <;>
        cases repeated : desk.held (.plain 0x3A) <;>
        simp [Flags.event, Desk.flags, Desk.move, heldAfter, repeated, parity]
    · rw [List.foldl_cons, List.foldl_nil, event_press isPress modifier, Desk.flags_move]
      · intro key isModifier
        apply Function.update_of_ne
        intro same
        cases same
        exact modifier isModifier
      · intro same
        cases same
        exact modifier (by decide)
  have codes : (KeyEvent.press (.plain code)).codes = [code] := by
    rw [KeyEvent.codes, Key.codes, UInt8.add_zero]
  rw [Desk.Follows, codes, right]
  exact ⟨rfl, iff_of_true rfl id⟩

theorem Desk.follows_release_plain (desk : Desk) (isPress : code < 128) :
    desk.Follows (.release (.plain code)) := by
  by_cases modifier : code ∈ pressCodes
  · rw [mem_pressCodes] at modifier
    rcases modifier with rfl | rfl | rfl | rfl | rfl <;>
      simp [Desk.Follows, KeyEvent.codes, Key.codes, Flags.event, Desk.flags, Desk.move, heldAfter,
        Misleads]
  · have right : [code + 128].foldl Flags.event desk.flags =
        (desk.move (.release (.plain code))).flags := by
      rw [List.foldl_cons, List.foldl_nil, event_release isPress modifier, Desk.flags_move]
      · intro key isModifier
        apply Function.update_of_ne
        intro same
        cases same
        exact modifier isModifier
      · nofun
    have follows : ¬ Misleads desk (.release (.plain code)) := by
      rintro (⟨rfl, -⟩ | ⟨rfl, -⟩)
      · exact modifier (by decide)
      · exact modifier (by decide)
    rw [Desk.Follows, KeyEvent.codes, Key.codes, right]
    exact ⟨rfl, iff_of_true rfl follows⟩

/-- Moving an extended key moves no plain one. -/
theorem Desk.flags_move_extended (desk : Desk) (code : UInt8) :
    (desk.move (.press (.extended code))).flags = desk.flags ∧
      (desk.move (.release (.extended code))).flags = desk.flags := by
  constructor
  · apply Desk.flags_move
    · intro key _
      rw [heldAfter, Function.update_of_ne]
      nofun
    · nofun
  · apply Desk.flags_move
    · intro key _
      rw [heldAfter, Function.update_of_ne]
      nofun
    · nofun

/-- The second code of an extended key counts as the code of a plain one. -/
theorem Desk.follows_extended (desk : Desk) (exist : Key.Exists (.extended code)) :
    desk.Follows (.press (.extended code)) ∧ desk.Follows (.release (.extended code)) := by
  have press : (KeyEvent.press (.extended code)).codes = [0xE0, code] := by
    rw [KeyEvent.codes, Key.codes, UInt8.add_zero]
  have release : (KeyEvent.release (.extended code)).codes = [0xE0, code + 128] := rfl
  unfold Desk.Follows
  rw [press, release, (desk.flags_move_extended code).1, (desk.flags_move_extended code).2]
  simp only [List.foldl_cons, List.foldl_nil, event_extend]
  by_cases modifier : code ∈ pressCodes
  · rw [mem_pressCodes] at modifier
    rcases modifier with rfl | rfl | rfl | rfl | rfl
    · simp [Flags.event, Desk.flags, Misleads]
    · exact absurd rfl exist.2.1
    · exact absurd rfl exist.2.2.1
    · simp [Flags.event, Desk.flags, Misleads]
    · exact absurd rfl exist.2.2.2
  · have notCtrl : ¬ (code = 0x1D ∨ code = 0x38) := by
      rintro (rfl | rfl)
      · exact modifier (by decide)
      · exact modifier (by decide)
    rw [event_press exist.1 modifier, event_release exist.1 modifier]
    exact ⟨⟨rfl, iff_of_true rfl fun misleads => notCtrl misleads.1⟩,
      ⟨rfl, iff_of_true rfl fun misleads => notCtrl misleads.1⟩⟩

theorem Desk.follows_fakeShift (desk : Desk) (possible : desk.Possible (.fakeShift code)) :
    desk.Follows (.fakeShift code) := by
  rcases possible with rfl | rfl | rfl | rfl <;>
    cases left : desk.held (.plain 0x2A) <;> cases right : desk.held (.plain 0x36) <;>
    simp [Desk.Follows, KeyEvent.codes, Flags.event, Desk.flags, Desk.move, heldAfter, Misleads,
      left, right]

theorem Desk.follows_pause (desk : Desk) : desk.Follows .pause := by
  simp [Desk.Follows, KeyEvent.codes, Flags.event, Desk.flags, Desk.move, heldAfter, Misleads]

/-- One lemma for each kind of event. -/
theorem Desk.follows {event : KeyEvent} (possible : desk.Possible event) : desk.Follows event := by
  cases event with
  | press key =>
      cases key with
      | plain code => exact desk.follows_press_plain possible.1
      | extended code => exact (desk.follows_extended possible).1
  | release key =>
      cases key with
      | plain code => exact desk.follows_release_plain possible.1.1
      | extended code => exact (desk.follows_extended possible.1).2
  | fakeShift code => exact desk.follows_fakeShift possible
  | pause => exact desk.follows_pause

/-- The flags are right after an event exactly when it does not mislead the driver. -/
theorem Desk.Ok.right_iff (ok : desk.Ok) (taken : Desk.step (consecutive after) desk event = some next) :
    (next.Tracks ↔ next.Ok) ∧ (next.Ok ↔ ¬ Misleads desk event.1) := by
  rcases Desk.step_eq_some taken with ⟨possible, flags, moved⟩
  rcases Desk.follows possible with ⟨capsDirty, right⟩
  rw [Desk.ok_iff.mp ok] at flags
  rw [← flags, ← moved] at capsDirty right
  rw [Desk.tracks_iff capsDirty, Desk.ok_iff]
  exact ⟨Iff.rfl, right⟩

end Keys

/-- **Modifier tracking, exactly.** With the maps in a row, whatever follows them, and
from the state in which nothing is held, the flags follow the keys after every
event of a physically consistent sequence if and only if no event misleads the
driver. -/
theorem modifiers_iff (after : Nat → UInt8) (lines : Lines) (events : List (KeyEvent × Bool)) :
    Step.AllStates (Desk.step (consecutive after)) Desk.Tracks (.released lines) events ↔
      Step.AllSteps (Desk.step (consecutive after))
        (fun desk event => ¬ Misleads desk event.1) (.released lines) events := by
  have start : (Desk.released lines).Ok := ⟨⟨rfl, rfl, rfl, rfl⟩, rfl⟩
  apply Step.allStates_iff_allSteps ?_ ?_ start start.toTracks
  · intro desk event next ok taken
    rcases ok.right_iff taken with ⟨tracks, met⟩
    exact tracks.trans met
  · intro desk event next ok taken met
    exact (ok.right_iff taken).2.mpr met

/-- Both Shift keys go down, and the left one goes up. -/
theorem not_forall_tracks :
    ¬ ∀ (lines : Lines) (events : List (KeyEvent × Bool)),
      Step.AllStates (Desk.step (consecutive fun _ => 0)) Desk.Tracks (.released lines) events := by
  intro all
  have states := all Machine.start.keyboard.lines
    [(.press (.plain 0x2A), true), (.press (.plain 0x36), true), (.release (.plain 0x2A), true)]
  have tracks := ((states.2 _ rfl).2 _ rfl).2 _ rfl
  have shift := Desk.Tracks.shiftState tracks
  revert shift
  decide

/-- The right Ctrl key counts as the left one. -/
example : ¬ Step.AllStates (Desk.step (consecutive fun _ => 0)) Desk.Tracks
    (.released Machine.start.keyboard.lines) [(.press (.extended 0x1D), true)] := by
  intro states
  have ctrl := Desk.Tracks.ctrlState (states.2 _ rfl)
  revert ctrl
  decide

end MonolithicKernel.Input
