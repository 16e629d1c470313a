import MonolithicKernel.Foundation.Runs
import MonolithicKernel.Interrupts.Pic

/-!
Owns when interrupts are delivered. A kernel path is the list of interrupt handlers
that it is in, innermost first, each with the writes of its `send_eoi` that are
still to come; the other paths are those of the saved kernel stacks. The timer's
gate leaves interrupts enabled, so a key can come in before the timer's line is
ended, and its handler may start a shell.

Owns which interrupt the controllers give when. Does not own what else the handlers
do.
-/

namespace MonolithicKernel.Interrupts

open MonolithicKernel.Foundation
open Descriptors InterruptController WordRanges

/-- A handler that an interrupt has entered. -/
structure Activation where
  handler : Handler
  /-- What is left of `send_eoi`. -/
  eoiLeft : List (Word × BitVec 16)
  /-- The interrupt flag that it returns with. -/
  interruptFlag : Bool
deriving DecidableEq, Repr

/-- A kernel path, innermost handler first. -/
abbrev Path := List Activation

structure Machine where
  pic : Pic
  interruptFlag : Bool
  running : Path
  /-- The paths of the saved kernel stacks. -/
  saved : List Path

inductive Label
  /-- A device asks for service. -/
  | request (irq : Fin 16)
  /-- The processor takes an interrupt. -/
  | deliver
  /-- The innermost handler does the next write of its `send_eoi`. -/
  | sendEoi
  /-- `cli` or `sti`, by code behind the ends of its interrupts. -/
  | setInterruptFlag (flag : Bool)
  /-- The innermost handler returns. -/
  | iret
  /-- `process_start` from a system call or from `switch_terminal`. -/
  | processStart
  /-- `process_switch` from the scheduler in `rtc_handler`. -/
  | processSwitch (path : Nat)
  /-- `halt_handler` returns into the `execute` of the parent. -/
  | halt (path : Nat)

/-- The line that `rtc_handler` and `keyboard_handler` end; no other handler is
entered by a device. -/
def irqOf : Handler → Option Word
  | .rtcWrapper => some 8
  | .keyboardWrapper => some 1
  | _ => none

namespace Machine

/-- The innermost handler, if there is one, has ended its interrupt. -/
def Ended (machine : Machine) : Prop := ∀ top ∈ machine.running.head?, top.eoiLeft = []

instance decidableEnded (machine : Machine) : Decidable machine.Ended :=
  inferInstanceAs (Decidable (∀ top ∈ machine.running.head?, _))

/-- The handler is entered through its gate. -/
def enter (machine : Machine) (controller : Controller) (handler : Handler) (kind : GateKind)
    (irqNum : Word) : Machine :=
  { machine with
    pic := { machine.pic with controller := controller }
    interruptFlag := machine.interruptFlag && kind = .trap
    running := ⟨handler, Pic.eoiWrites irqNum, machine.interruptFlag⟩ :: machine.running }

def deliver (machine : Machine) : Option Machine :=
  if machine.interruptFlag = true then
    machine.pic.controller.acknowledge.bind fun (vector, controller) =>
      (registered vector).bind fun (handler, kind, _) =>
        (irqOf handler).map fun irqNum => machine.enter controller handler kind irqNum
  else none

def sendEoi (machine : Machine) : Option Machine :=
  match machine.running with
  | ⟨handler, write :: left, flag⟩ :: rest =>
      some { machine with
        pic := machine.pic.outb write.1 write.2
        running := ⟨handler, left, flag⟩ :: rest }
  | _ => none

def iret (machine : Machine) : Option Machine :=
  match machine.running with
  | ⟨_, [], flag⟩ :: rest => some { machine with interruptFlag := flag, running := rest }
  | _ => none

/-- The new program runs with interrupts enabled, on a stack of its own. -/
def startProgram (machine : Machine) : Machine :=
  { machine with
    interruptFlag := true
    running := []
    saved := machine.running :: machine.saved }

def processStart (machine : Machine) : Option Machine :=
  match machine.running with
  | [] => some machine.startProgram
  | ⟨.keyboardWrapper, [], _⟩ :: _ => some machine.startProgram
  | _ => none

def processSwitch (path : Nat) (machine : Machine) : Option Machine :=
  match machine.running with
  | ⟨.rtcWrapper, [], _⟩ :: _ =>
      machine.saved[path]?.map fun next =>
        { machine with
          interruptFlag := true
          running := next
          saved := machine.saved.set path machine.running }
  | _ => none

/-- Nothing is below a system call on a kernel stack, neither of the program that
halts nor of its parent. -/
def halt (path : Nat) (machine : Machine) : Option Machine :=
  if machine.running = [] ∧ machine.saved[path]? = some [] then
    some { machine with interruptFlag := false, saved := machine.saved.eraseIdx path }
  else none

def step : Step Machine Label
  | machine, .request irq =>
      some { machine with
        pic := { machine.pic with controller := machine.pic.controller.request irq } }
  | machine, .deliver => machine.deliver
  | machine, .sendEoi => machine.sendEoi
  | machine, .setInterruptFlag flag =>
      if machine.Ended then some { machine with interruptFlag := flag } else none
  | machine, .iret => machine.iret
  | machine, .processStart => machine.processStart
  | machine, .processSwitch path => machine.processSwitch path
  | machine, .halt path => machine.halt path

/-- The end of `entry`: `i8259_init`, `rtc_init` and `keyboard_init` as far as they
go to the controllers, with interrupts disabled. -/
def start (pic : Pic) : Machine where
  pic := (pic.i8259Init.enableIrq 8).enableIrq 1
  interruptFlag := false
  running := []
  saved := []

end Machine

/-- The controllers as `entry` leaves them: only the lines of the keyboard, the
cascade and the timer are open. -/
structure Opened (pic : Pic) : Prop where
  configured : Pic.Configured pic
  masterMask : pic.masterMask = 0xF9
  slaveMask : pic.slaveMask = 0xFE

/-- No line that stops a line of the master is in service. -/
def Free (chip : Chip) (line : Line) : Prop := ∀ other ≤ line, chip.inService other = false

instance decidableFree (chip : Chip) (line : Line) : Decidable (Free chip line) :=
  inferInstanceAs (Decidable (∀ other ≤ line, _))

theorem asks_eq {chip : Chip} {mask : BitVec 8} (masked : chip.mask = mask)
    (requested : Line → Bool) (line : Line) :
    chip.asks requested line = (requested line && !mask.getLsbD line && decide (Free chip line)) := by
  rw [Chip.asks, masked]
  rfl

theorem slave_pending {pic : Pic} (opened : Opened pic) :
    pic.controller.slave.pending =
      if pic.controller.slave.requests 0 = true ∧ Free pic.controller.slave 0 then some 0
      else none := by
  have mask := opened.configured.slave.mask.trans opened.slaveMask
  have closed : ∀ line : Fin 7, pic.controller.slave.asks pic.controller.slave.requests line.succ =
      false := by
    intro line
    rw [asks_eq mask, show (0xFE : BitVec 8).getLsbD line.succ = true by revert line; decide]
    simp
  rw [Chip.pending, Fin.find?_succ, Fin.find?_eq_none_iff.mpr closed, asks_eq mask]
  simp

theorem pending_eq {pic : Pic} (opened : Opened pic) :
    pic.controller.pending =
      if pic.controller.master.requests 1 = true ∧ Free pic.controller.master 1 then some 1
      else if pic.controller.slave.pending.isSome = true ∧ Free pic.controller.master 2 then some 2
      else none := by
  have mask := opened.configured.master.mask.trans opened.masterMask
  have closed : ∀ line : Fin 5,
      pic.controller.master.asks pic.controller.requested line.succ.succ.succ = false := by
    intro line
    rw [asks_eq mask, show (0xF9 : BitVec 8).getLsbD line.succ.succ.succ = true by
      revert line; decide]
    simp
  rw [Controller.pending, Fin.find?_succ, Fin.find?_succ, Fin.find?_succ,
    Fin.find?_eq_none_iff.mpr closed, asks_eq mask, asks_eq mask, asks_eq mask]
  have first : pic.controller.requested 1 = pic.controller.master.requests 1 :=
    Function.update_of_ne (by decide) _ _
  have second : pic.controller.requested 2 = pic.controller.slave.pending.isSome :=
    Function.update_self ..
  simp [first, second]
  split_ifs <;> rfl

/-- The key's interrupt can be taken: its line is requested, and nothing up to it is in
service. -/
def KeyDue (pic : Pic) : Prop :=
  pic.controller.master.requests (Line.ofNat 1) = true ∧ Free pic.controller.master (Line.ofNat 1)

/-- The timer's interrupt can be taken, unless a key's can. -/
def TickDue (pic : Pic) : Prop :=
  (pic.controller.slave.requests (Line.ofNat 0) = true ∧ Free pic.controller.slave (Line.ofNat 0)) ∧
    Free pic.controller.master cascade

instance decidableKeyDue (pic : Pic) : Decidable (KeyDue pic) :=
  inferInstanceAs (Decidable (_ ∧ _))

instance decidableTickDue (pic : Pic) : Decidable (TickDue pic) :=
  inferInstanceAs (Decidable ((_ ∧ _) ∧ _))

/-- **Acknowledgement.** A key goes first, and the timer is given when nothing up to
the cascade is in service. -/
theorem acknowledge_eq {pic : Pic} (opened : Opened pic) :
    pic.controller.acknowledge =
      if KeyDue pic then
        some (0x21, { pic.controller with master := pic.controller.master.accept 1 })
      else if TickDue pic then
        some (0x28, { master := pic.controller.master.accept 2,
                      slave := pic.controller.slave.accept 0 })
      else none := by
  have master := opened.configured.master
  have slave := opened.configured.slave
  have dueIff : KeyDue pic ↔
      pic.controller.master.requests 1 = true ∧ Free pic.controller.master 1 := Iff.rfl
  unfold Controller.acknowledge
  by_cases key : KeyDue pic
  · rw [if_pos key, pending_eq opened, if_pos (dueIff.mp key), Option.bind_some,
      if_neg (by decide), Chip.vector, master.icw2]
    rfl
  rw [if_neg key, pending_eq opened, if_neg (key ∘ dueIff.mpr)]
  by_cases tick : pic.controller.slave.requests 0 = true ∧ Free pic.controller.slave 0
  · have behind : pic.controller.slave.pending = some 0 := by
      rw [slave_pending opened, if_pos tick]
    by_cases free : Free pic.controller.master 2
    · have due : TickDue pic := ⟨tick, free⟩
      rw [if_pos due, behind, if_pos ⟨Option.isSome_some, free⟩, Option.bind_some,
        if_pos (show (2 : Line) = cascade from rfl), if_pos ⟨master.icw3, slave.icw3⟩,
        Option.map_some, Chip.vector, slave.icw2]
      rfl
    · have notDue : ¬ TickDue pic := fun due => free due.2
      rw [behind, if_neg (by simp [free]), Option.bind_none, if_neg notDue]
  · have behind : pic.controller.slave.pending = none := by
      rw [slave_pending opened, if_neg tick]
    have notDue : ¬ TickDue pic := fun due => tick due.1
    rw [behind, if_neg (by simp), Option.bind_none, if_neg notDue]

end MonolithicKernel.Interrupts
