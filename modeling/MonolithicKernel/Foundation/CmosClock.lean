import Mathlib

/-!
Owns the real-time clock of a PC as far as periodic interrupts go: the index and data
ports, registers A to D, the rate and the divider in register A, and the interrupt line,
which stays up until register C is read.

Does not own the time of day, alarms or any driver.
-/

namespace MonolithicKernel.Foundation.CmosClock

structure Chip where
  index : BitVec 7
  registers : BitVec 7 → BitVec 8

abbrev registerA : BitVec 7 := 0x0A
abbrev registerB : BitVec 7 := 0x0B
abbrev registerC : BitVec 7 := 0x0C
abbrev registerD : BitVec 7 := 0x0D

namespace Chip

/-- A byte to the index port. Its top bit, which masks NMI, is not followed. -/
def select (byte : BitVec 8) (chip : Chip) : Chip := { chip with index := byte.setWidth 7 }

/-- A byte from the data port. Register C is cleared by the read, and the index goes back
to register D. -/
def read (chip : Chip) : BitVec 8 × Chip :=
  (chip.registers chip.index,
    { chip with
      index := registerD
      registers :=
        if chip.index = registerC then Function.update chip.registers registerC 0
        else chip.registers })

/-- A byte to the data port. Registers C and D cannot be written. -/
def write (byte : BitVec 8) (chip : Chip) : Chip :=
  { chip with
    index := registerD
    registers :=
      if chip.index = registerC ∨ chip.index = registerD then chip.registers
      else Function.update chip.registers chip.index byte }

def rate (chip : Chip) : BitVec 4 := (chip.registers registerA).setWidth 4

/-- The bits of register A that choose the time base. -/
def divider (chip : Chip) : BitVec 3 := (chip.registers registerA).extractLsb' 4 3

/-- Periodic interrupts a second for a rate, on the time base of 32.768 kHz. -/
def frequencyOf (rate : BitVec 4) : Nat :=
  if rate = 0 then 0
  else if rate.toNat ≤ 2 then 32768 / 2 ^ (rate.toNat + 6)
  else 32768 / 2 ^ (rate.toNat - 1)

/-- Periodic interrupts a second. Dividers of other time bases are not followed. -/
def frequency (chip : Chip) : Option Nat :=
  if chip.divider = 0b010 then some (frequencyOf chip.rate) else none

def periodicEnabled (chip : Chip) : Bool := (chip.registers registerB).getLsbD 6

/-- The line is up. -/
def requesting (chip : Chip) : Bool := (chip.registers registerC).getLsbD 7

/-- A period is over: register C says so, and that it is an interrupt if these are
enabled. -/
def tick (chip : Chip) : Chip :=
  { chip with
    registers := Function.update chip.registers registerC
      (chip.registers registerC ||| if chip.periodicEnabled then 0xC0 else 0x40) }

/-- The end of a period raises the line. -/
def raises (chip : Chip) : Bool := !chip.requesting && chip.tick.requesting

theorem requesting_tick (chip : Chip) :
    chip.tick.requesting = (chip.requesting || chip.periodicEnabled) := by
  have flags : chip.tick.registers registerC =
      (chip.registers registerC ||| if chip.periodicEnabled then 0xC0 else 0x40) :=
    Function.update_self registerC _ chip.registers
  rw [requesting, flags, BitVec.getLsbD_or, requesting]
  cases chip.periodicEnabled <;> rfl

theorem raises_eq (chip : Chip) :
    chip.raises = (!chip.requesting && chip.periodicEnabled) := by
  rw [raises, requesting_tick]
  cases chip.requesting <;> rfl

theorem registers_tick_of_ne (chip : Chip) {register : BitVec 7} (ne : register ≠ registerC) :
    chip.tick.registers register = chip.registers register :=
  Function.update_of_ne ne _ chip.registers

end Chip

end MonolithicKernel.Foundation.CmosClock
