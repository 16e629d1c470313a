import MonolithicKernel.Foundation.CmosClock
import MonolithicKernel.Process.RtcSlots

/-!
Owns the part of `rtc.c` that talks to the clock: `rtc_init`, `rtc_set_freq` with
`log2_for_frequency`, and the read of register C in `rtc_handler`, over the clock itself.

Does not own the counters of descriptors or the interrupt controllers.
-/

namespace MonolithicKernel.Interrupts

open MonolithicKernel.Foundation
open CmosClock
open MonolithicKernel.Process (Accepted accepted_iff)

/-! ### `rtc.c` -/

def rtcAReg : BitVec 8 := 0x0A
def rtcBReg : BitVec 8 := 0x0B
def rtcCReg : BitVec 8 := 0x0C
def rtcIntMask : BitVec 8 := 0x80

/-- What `rtc_init` and `rtc_set_freq` do to register A. -/
def setRate (rate : BitVec 8) (chip : Chip) : Chip :=
  let (prev, chip) := (chip.select (rtcAReg ||| rtcIntMask)).read
  (chip.select (rtcAReg ||| rtcIntMask)).write (prev &&& 0xF0 ||| rate)

/-- The read of register C in `rtc_init` and `rtc_handler`. -/
def discardC (chip : Chip) : Chip := (chip.select rtcCReg).read.2

/-- `rtc_init`, as far as it goes to the clock. -/
def rtcInit (chip : Chip) : Chip :=
  let (prev, chip) := (chip.select (rtcBReg ||| rtcIntMask)).read
  let chip := (chip.select (rtcBReg ||| rtcIntMask)).write (prev ||| 0x40)
  discardC (setRate 0x06 chip)

/-- The loop of `log2_for_frequency`. -/
def log2Loop (number result : Nat) : Nat :=
  if number > 1 then log2Loop (number / 2) (result + 1) else result
termination_by number

def log2ForFrequency (number : Nat) : Int :=
  if number ≤ 0 ∨ number % 2 ≠ 0 then -1 else log2Loop number 0

def rtcSetFreq (f : Nat) (chip : Chip) : Chip :=
  if f &&& (f - 1) ≠ 0 ∨ f < 2 ∨ f > 1024 then chip
  else setRate (BitVec.ofInt 8 (16 - log2ForFrequency f)) chip

/-! ### Registers -/

theorem registers_setRate (rate : BitVec 8) (chip : Chip) :
    (setRate rate chip).registers =
      Function.update chip.registers registerA (chip.registers registerA &&& 0xF0 ||| rate) :=
  rfl

theorem registers_discardC (chip : Chip) :
    (discardC chip).registers = Function.update chip.registers registerC 0 :=
  rfl

theorem registers_rtcInit (chip : Chip) :
    (rtcInit chip).registers =
      Function.update
        (Function.update
          (Function.update chip.registers registerB (chip.registers registerB ||| 0x40))
          registerA (chip.registers registerA &&& 0xF0 ||| 0x06))
        registerC 0 := by
  rw [rtcInit, registers_discardC, registers_setRate]
  rfl

/-- Only the low half of register A is the rate. -/
theorem setWidth_rate (old rate : BitVec 8) :
    (old &&& 0xF0 ||| rate).setWidth 4 = rate.setWidth 4 := by
  rw [BitVec.setWidth_or, BitVec.setWidth_and]
  simp

/-- A rate that fits its half leaves the divider alone. -/
theorem divider_rate (old : BitVec 8) {rate : BitVec 8} (fits : rate.toNat < 16) :
    (old &&& 0xF0 ||| rate).extractLsb' 4 3 = old.extractLsb' 4 3 := by
  have empty : rate.extractLsb' 4 3 = 0 := by
    apply BitVec.eq_of_toNat_eq
    rw [BitVec.extractLsb'_toNat, Nat.shiftRight_eq_div_pow, Nat.div_eq_of_lt fits]
    rfl
  have whole : (0xF0 : BitVec 8).extractLsb' 4 3 = BitVec.allOnes 3 := by decide
  rw [BitVec.extractLsb'_or, BitVec.extractLsb'_and, empty, whole, BitVec.and_allOnes]
  exact BitVec.or_zero

theorem rate_setRate (rate : BitVec 8) (chip : Chip) :
    (setRate rate chip).rate = rate.setWidth 4 := by
  rw [Chip.rate, registers_setRate, Function.update_self, setWidth_rate]

theorem divider_setRate {rate : BitVec 8} (fits : rate.toNat < 16) (chip : Chip) :
    (setRate rate chip).divider = chip.divider := by
  rw [Chip.divider, registers_setRate, Function.update_self, divider_rate _ fits]
  rfl

theorem log2Loop_eq (number result : Nat) : log2Loop number result = result + number.log2 := by
  induction number, result using log2Loop.induct with
  | case1 number result more inductionHypothesis =>
      rw [log2Loop, if_pos more, inductionHypothesis, Nat.log2_def number,
        if_pos (show 2 ≤ number from more)]
      omega
  | case2 number result done =>
      rw [log2Loop, if_neg done, Nat.log2_def, if_neg (by omega), Nat.add_zero]

theorem log2ForFrequency_two_pow (exponent : Nat) :
    log2ForFrequency (2 ^ (exponent + 1)) = exponent + 1 := by
  have even : 2 ^ (exponent + 1) % 2 = 0 := by omega
  have positive := Nat.two_pow_pos (exponent + 1)
  rw [log2ForFrequency, if_neg (by omega), log2Loop_eq, Nat.log2_two_pow]
  omega

/-- The rate of an accepted frequency fits its half of register A and stands for it. -/
theorem rate_of_accepted {f : Nat} (accepted : Accepted f) :
    (BitVec.ofInt 8 (16 - log2ForFrequency f)).toNat < 16 ∧
      Chip.frequencyOf ((BitVec.ofInt 8 (16 - log2ForFrequency f)).setWidth 4) = f := by
  obtain ⟨⟨exponent, rfl⟩, low, high⟩ := accepted
  have bounds : 1 ≤ exponent ∧ exponent ≤ 10 := by
    constructor
    · exact Nat.one_le_iff_ne_zero.mpr fun zero => by simp [zero] at low
    · exact (Nat.pow_le_pow_iff_right (by decide)).mp (high.trans_eq (by decide : 1024 = 2 ^ 10))
  obtain ⟨previous, rfl⟩ := Nat.exists_eq_add_of_le' bounds.1
  rw [log2ForFrequency_two_pow]
  have small : previous < 10 := by omega
  clear low high bounds
  interval_cases previous <;> exact ⟨by decide, rfl⟩

/-! ### Runs -/

inductive ClockEvent
  /-- A period of the clock is over. -/
  | tick
  /-- `rtc_handler` reads register C. -/
  | handled
  | setFreq (f : Nat)
deriving DecidableEq, Repr

def ClockEvent.apply (chip : Chip) : ClockEvent → Chip
  | .tick => chip.tick
  | .handled => discardC chip
  | .setFreq f => rtcSetFreq f chip

instance decidableAccepted (f : Nat) : Decidable (Accepted f) :=
  decidable_of_iff _ accepted_iff.symm

/-- The last frequency that was accepted. -/
def ClockEvent.lastFrequency (last : Nat) : ClockEvent → Nat
  | .setFreq f => if Accepted f then f else last
  | _ => last

/-- An interrupt waits to be handled. -/
def ClockEvent.waiting (waits : Bool) : ClockEvent → Bool
  | .tick => true
  | .handled => false
  | .setFreq _ => waits

/-- Interrupts are enabled, the divider and the frequency are the given ones, and the line is up
when an interrupt waits. -/
structure Programmed (chip : Chip) (divider : BitVec 3) (frequency : Nat) (waits : Bool) :
    Prop where
  enabled : chip.periodicEnabled = true
  divider : chip.divider = divider
  frequency : Chip.frequencyOf chip.rate = frequency
  requesting : chip.requesting = waits

theorem programmed_rtcInit (chip : Chip) : Programmed (rtcInit chip) chip.divider 1024 false where
  enabled := by
    rw [Chip.periodicEnabled, registers_rtcInit, Function.update_of_ne (by decide),
      Function.update_of_ne (by decide), Function.update_self, BitVec.getLsbD_or]
    exact Bool.or_true _
  divider := by
    rw [Chip.divider, registers_rtcInit, Function.update_of_ne (by decide), Function.update_self,
      divider_rate _ (by decide)]
    rfl
  frequency := by
    rw [Chip.rate, registers_rtcInit, Function.update_of_ne (by decide), Function.update_self,
      setWidth_rate]
    rfl
  requesting := by
    rw [Chip.requesting, registers_rtcInit, Function.update_self]
    rfl

section Programmed

variable {chip : Chip} {divider : BitVec 3} {frequency : Nat} {waits : Bool}

theorem Programmed.setRate (programmed : Programmed chip divider frequency waits)
    {rate : BitVec 8} (fits : rate.toNat < 16) :
    Programmed (setRate rate chip) divider (Chip.frequencyOf (rate.setWidth 4)) waits where
  enabled := by
    rw [Chip.periodicEnabled, registers_setRate, Function.update_of_ne (by decide)]
    exact programmed.enabled
  divider := (divider_setRate fits chip).trans programmed.divider
  frequency := by rw [rate_setRate]
  requesting := by
    rw [Chip.requesting, registers_setRate, Function.update_of_ne (by decide)]
    exact programmed.requesting

/-- The step lemma. -/
theorem Programmed.apply (programmed : Programmed chip divider frequency waits)
    (event : ClockEvent) :
    Programmed (event.apply chip) divider (event.lastFrequency frequency)
      (event.waiting waits) := by
  cases event with
  | tick =>
      constructor
      · rw [ClockEvent.apply, Chip.periodicEnabled, Chip.registers_tick_of_ne chip (by decide)]
        exact programmed.enabled
      · rw [ClockEvent.apply, Chip.divider, Chip.registers_tick_of_ne chip (by decide)]
        exact programmed.divider
      · rw [ClockEvent.apply, Chip.rate, Chip.registers_tick_of_ne chip (by decide)]
        exact programmed.frequency
      · rw [ClockEvent.apply, Chip.requesting_tick, programmed.enabled]
        exact Bool.or_true _
  | handled =>
      constructor
      · rw [ClockEvent.apply, Chip.periodicEnabled, registers_discardC,
          Function.update_of_ne (by decide)]
        exact programmed.enabled
      · rw [ClockEvent.apply, Chip.divider, registers_discardC, Function.update_of_ne (by decide)]
        exact programmed.divider
      · rw [ClockEvent.apply, Chip.rate, registers_discardC, Function.update_of_ne (by decide)]
        exact programmed.frequency
      · rw [ClockEvent.apply, Chip.requesting, registers_discardC, Function.update_self]
        rfl
  | setFreq f =>
      rw [ClockEvent.apply, ClockEvent.lastFrequency, ClockEvent.waiting]
      by_cases accepted : Accepted f
      · obtain ⟨fits, stands⟩ := rate_of_accepted accepted
        have kept := programmed.setRate fits
        rw [stands] at kept
        rw [rtcSetFreq, if_neg (accepted_iff.mp accepted), if_pos accepted]
        exact kept
      · have unset : rtcSetFreq f chip = chip := if_pos (not_not.mp (mt accepted_iff.mpr accepted))
        rw [unset, if_neg accepted]
        exact programmed

theorem Programmed.foldl (programmed : Programmed chip divider frequency waits)
    (events : List ClockEvent) :
    Programmed (events.foldl ClockEvent.apply chip) divider
      (events.foldl ClockEvent.lastFrequency frequency) (events.foldl ClockEvent.waiting waits) := by
  induction events generalizing chip frequency waits with
  | nil => exact programmed
  | cons event events inductionHypothesis => exact inductionHypothesis (programmed.apply event)

end Programmed

/-- **The clock.** After `rtc_init`, whatever the clock held before and whatever follows, its
divider is what it was. On the time base of 32.768 kHz it interrupts as often as the last
accepted frequency says, 1024 times a second if there is none, and the end of a period
raises the line exactly when no interrupt waits for `rtc_handler` to read register C. -/
theorem programmed_of_events (chip : Chip) (events : List ClockEvent) :
    let clock := events.foldl ClockEvent.apply (rtcInit chip)
    clock.divider = chip.divider ∧
      clock.frequency =
        (if chip.divider = 0b010 then some (events.foldl ClockEvent.lastFrequency 1024) else none) ∧
      clock.raises = !events.foldl ClockEvent.waiting false := by
  have programmed := (programmed_rtcInit chip).foldl events
  refine ⟨programmed.divider, ?_, ?_⟩
  · rw [Chip.frequency, programmed.divider, programmed.frequency]
  · rw [Chip.raises_eq, programmed.enabled, programmed.requesting, Bool.and_true]

end MonolithicKernel.Interrupts
