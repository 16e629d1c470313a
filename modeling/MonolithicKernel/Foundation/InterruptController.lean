import Mathlib

/-!
Owns a pair of 8259 interrupt controllers, the second behind line 2 of the first:
the initialization words, masks, requests, lines in service, fixed priorities,
acknowledging an interrupt, and ending one by number or by priority. Lines are
edge-triggered. Rotating priorities, special masks and reading the chips are left
out: the commands for them change nothing here.

Does not own a driver.
-/

namespace MonolithicKernel.Foundation.InterruptController

/-- What the next byte at the data port means. -/
inductive Phase
  | icw2 | icw3 | icw4 | ready
deriving DecidableEq, Repr

abbrev Line := Fin 8

/-- A line by its number. -/
def Line.ofNat (number : Nat) : Line := Fin.ofNat 8 number

@[simp] theorem Line.ofNat_val (line : Line) : Line.ofNat line.val = line :=
  Fin.ofNat_val_eq_self line

structure Chip where
  phase : Phase
  icw1 : BitVec 8
  icw2 : BitVec 8
  icw3 : BitVec 8
  icw4 : BitVec 8
  mask : BitVec 8
  requests : Line → Bool
  inService : Line → Bool

namespace Chip

/-- The line goes out of service. -/
def finish (chip : Chip) (line : Line) : Chip :=
  { chip with inService := Function.update chip.inService line false }

/-- A byte at the command port: the first initialization word, or the end of an
interrupt. -/
def command (value : BitVec 8) (chip : Chip) : Chip :=
  if value.getLsbD 4 = true then
    { chip with
      phase := .icw2
      icw1 := value
      icw4 := 0
      mask := 0
      requests := fun _ => false }
  else if value &&& 0xF8 = 0x60 then chip.finish (Line.ofNat (value &&& 7).toNat)
  else if value = 0x20 then
    match Fin.find? chip.inService with
    | some line => chip.finish line
    | none => chip
  else chip

/-- What follows the third initialization word, if there is one. -/
def lastPhase (chip : Chip) : Phase := if chip.icw1.getLsbD 0 = true then .icw4 else .ready

/-- A byte at the data port. -/
def data (value : BitVec 8) (chip : Chip) : Chip :=
  match chip.phase with
  | .icw2 =>
      { chip with
        icw2 := value
        phase := if chip.icw1.getLsbD 1 = true then chip.lastPhase else .icw3 }
  | .icw3 => { chip with icw3 := value, phase := chip.lastPhase }
  | .icw4 => { chip with icw4 := value, phase := .ready }
  | .ready => { chip with mask := value }

/-- A line asks for service when it is requested and not masked, and neither it nor
a line before it is in service. -/
def asks (chip : Chip) (requested : Line → Bool) (line : Line) : Bool :=
  requested line && !chip.mask.getLsbD line && decide (∀ other ≤ line, chip.inService other = false)

/-- The first line that asks for service. -/
def pending (chip : Chip) : Option Line := Fin.find? (chip.asks chip.requests)

/-- The line goes into service; with automatic ends it is done at once. -/
def accept (chip : Chip) (line : Line) : Chip :=
  { chip with
    requests := Function.update chip.requests line false
    inService := Function.update chip.inService line !chip.icw4.getLsbD 1 }

def vector (chip : Chip) (line : Line) : BitVec 8 :=
  chip.icw2 &&& 0xF8 ||| BitVec.ofNat 8 line

end Chip

structure Controller where
  master : Chip
  slave : Chip

/-- The line of the master that the slave is wired to. -/
def cascade : Line := Line.ofNat 2

namespace Controller

/-- A device asks for service. -/
def request (irq : Fin 16) (controller : Controller) : Controller :=
  if irq.val < 8 then
    { controller with master := { controller.master with
      requests := Function.update controller.master.requests (Line.ofNat irq) true } }
  else
    { controller with slave := { controller.slave with
      requests := Function.update controller.slave.requests (Line.ofNat (irq - 8)) true } }

/-- The requests that the master sees. -/
def requested (controller : Controller) : Line → Bool :=
  Function.update controller.master.requests cascade controller.slave.pending.isSome

def pending (controller : Controller) : Option Line :=
  Fin.find? (controller.master.asks controller.requested)

/-- The lines in service of one of the controllers. -/
def serving (controller : Controller) (onSlave : Bool) : Line → Bool :=
  if onSlave then controller.slave.inService else controller.master.inService

/-- The processor takes an interrupt: its vector, and the controllers behind it. -/
def acknowledge (controller : Controller) : Option (BitVec 8 × Controller) :=
  controller.pending.bind fun line =>
    if line = cascade then
      if controller.master.icw3 = 0x04 ∧ controller.slave.icw3 = 0x02 then
        controller.slave.pending.map fun behind =>
          (controller.slave.vector behind,
            { master := controller.master.accept cascade, slave := controller.slave.accept behind })
      else none
    else
      some (controller.master.vector line,
        { controller with master := controller.master.accept line })

end Controller

end MonolithicKernel.Foundation.InterruptController
