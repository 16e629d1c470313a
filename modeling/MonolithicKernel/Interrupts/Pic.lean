import MonolithicKernel.Foundation.InterruptController
import MonolithicKernel.Interrupts.DescriptorTables

/-!
Owns `i8259.c`: initialization of the two interrupt controllers, masking of lines
and ends of interrupts, over the controllers themselves, and what a caller sees of
any sequence of these.

Does not own who calls them.
-/

namespace MonolithicKernel.Interrupts

open MonolithicKernel.Foundation
open InterruptController WordRanges

def master8259Port : BitVec 16 := 0x20
def master8259Dport : BitVec 16 := 0x21
def slave8259Port : BitVec 16 := 0xA0
def slave8259Dport : BitVec 16 := 0xA1
def slaveCascadeIrq : Word := 2
def icw1 : Word := 0x11
def icw2Master : Word := 0x20
def icw2Slave : Word := 0x28
def icw3Master : Word := 0x04
def icw3Slave : Word := 0x02
def icw4 : Word := 0x01
def eoi : Word := 0x60

/-- The controllers and the two masks that the driver keeps. -/
structure Pic where
  controller : Controller
  masterMask : BitVec 8
  slaveMask : BitVec 8

namespace Pic

/-- `outb`, to the ports of the controllers. -/
def outb (data : Word) (port : BitVec 16) (pic : Pic) : Pic :=
  let byte := data.setWidth 8
  let controller := pic.controller
  if port = master8259Port then
    { pic with controller := { controller with master := controller.master.command byte } }
  else if port = master8259Dport then
    { pic with controller := { controller with master := controller.master.data byte } }
  else if port = slave8259Port then
    { pic with controller := { controller with slave := controller.slave.command byte } }
  else if port = slave8259Dport then
    { pic with controller := { controller with slave := controller.slave.data byte } }
  else pic

def i8259Init (pic : Pic) : Pic :=
  let pic := pic.outb icw1 master8259Port
  let pic := pic.outb icw2Master master8259Dport
  let pic := pic.outb icw3Master master8259Dport
  let pic := pic.outb icw4 master8259Dport
  let pic := pic.outb icw1 slave8259Port
  let pic := pic.outb icw2Slave slave8259Dport
  let pic := pic.outb icw3Slave slave8259Dport
  let pic := pic.outb icw4 slave8259Dport
  let pic := { pic with masterMask := 0xFB, slaveMask := 0xFF }
  let pic := pic.outb (pic.masterMask.setWidth 32) master8259Dport
  pic.outb (pic.slaveMask.setWidth 32) slave8259Dport

/-- What `enable_irq` and `disable_irq` share: one mask is updated at the bit of the
line and sent to its controller. -/
def writeMask (update : BitVec 8 → Nat → BitVec 8) (irqNum : Word) (pic : Pic) : Pic :=
  if irqNum < 8 then
    let pic := { pic with masterMask := update pic.masterMask irqNum.toNat }
    pic.outb (pic.masterMask.setWidth 32) master8259Dport
  else if irqNum < 16 then
    let pic := { pic with slaveMask := update pic.slaveMask (irqNum - 8).toNat }
    pic.outb (pic.slaveMask.setWidth 32) slave8259Dport
  else pic

def enableIrq (irqNum : Word) (pic : Pic) : Pic :=
  pic.writeMask (fun mask number => mask &&& ~~~((1 : BitVec 8) <<< number)) irqNum

def disableIrq (irqNum : Word) (pic : Pic) : Pic :=
  pic.writeMask (fun mask number => mask ||| (1 : BitVec 8) <<< number) irqNum

/-- The writes of `send_eoi`, in their order. -/
def eoiWrites (irqNum : Word) : List (Word × BitVec 16) :=
  if irqNum < 8 then [(eoi ||| irqNum, master8259Port)]
  else if irqNum < 16 then
    [(eoi ||| (irqNum - 8), slave8259Port), (eoi ||| slaveCascadeIrq, master8259Port)]
  else []

def sendEoi (irqNum : Word) (pic : Pic) : Pic :=
  (eoiWrites irqNum).foldl (fun pic write => pic.outb write.1 write.2) pic

/-- A byte survives being an argument. -/
theorem setWidth_setWidth (byte : BitVec 8) : (byte.setWidth 32).setWidth 8 = byte := by
  simp

section

variable (data : Word) (pic : Pic)

@[simp] theorem outb_masterPort : pic.outb data master8259Port =
    { pic with controller := { pic.controller with
      master := pic.controller.master.command (data.setWidth 8) } } := rfl

@[simp] theorem outb_masterDport : pic.outb data master8259Dport =
    { pic with controller := { pic.controller with
      master := pic.controller.master.data (data.setWidth 8) } } := rfl

@[simp] theorem outb_slavePort : pic.outb data slave8259Port =
    { pic with controller := { pic.controller with
      slave := pic.controller.slave.command (data.setWidth 8) } } := rfl

@[simp] theorem outb_slaveDport : pic.outb data slave8259Dport =
    { pic with controller := { pic.controller with
      slave := pic.controller.slave.data (data.setWidth 8) } } := rfl

end

/-! ### Calls -/

/-- What happens to the controllers: calls of the driver, and what devices and the
processor do. -/
inductive Call
  | enableIrq (irqNum : Word)
  | disableIrq (irqNum : Word)
  | sendEoi (irqNum : Word)
  | request (irq : Fin 16)
  | acknowledge

def apply (pic : Pic) : Call → Pic
  | .enableIrq irqNum => pic.enableIrq irqNum
  | .disableIrq irqNum => pic.disableIrq irqNum
  | .sendEoi irqNum => pic.sendEoi irqNum
  | .request irq => { pic with controller := pic.controller.request irq }
  | .acknowledge =>
      match pic.controller.acknowledge with
      | some (_, controller) => { pic with controller := controller }
      | none => pic

/-- A chip is initialized: its vectors, its cascade and fully nested mode with
ends by command, and the mask is the driver's. -/
structure ChipReady (chip : Chip) (icw2 icw3 : Word) (mask : BitVec 8) : Prop where
  phase : chip.phase = .ready
  icw2 : chip.icw2 = icw2.setWidth 8
  icw3 : chip.icw3 = icw3.setWidth 8
  icw4 : chip.icw4 = 1
  mask : chip.mask = mask

structure Configured (pic : Pic) : Prop where
  master : ChipReady pic.controller.master icw2Master icw3Master pic.masterMask
  slave : ChipReady pic.controller.slave icw2Slave icw3Slave pic.slaveMask

theorem ChipReady.data {chip : Chip} {icw2 icw3 : Word} {mask : BitVec 8}
    (ready : ChipReady chip icw2 icw3 mask) (value : BitVec 8) :
    ChipReady (chip.data value) icw2 icw3 value := by
  rw [Chip.data, ready.phase]
  exact ⟨rfl, ready.icw2, ready.icw3, ready.icw4, rfl⟩

/-- The initialization words and the mask, whatever the chip was doing. -/
theorem chipReady_of_words (chip : Chip) (icw2 icw3 : Word) (mask : BitVec 8) :
    ChipReady (((((chip.command (icw1.setWidth 8)).data (icw2.setWidth 8)).data
      (icw3.setWidth 8)).data (icw4.setWidth 8)).data mask) icw2 icw3 mask := by
  constructor <;> simp [Chip.command, Chip.data, Chip.lastPhase, icw1, icw4]

theorem configured_i8259Init (pic : Pic) : Configured pic.i8259Init := by
  simp only [i8259Init, outb_masterPort, outb_masterDport, outb_slavePort, outb_slaveDport,
    setWidth_setWidth]
  exact ⟨chipReady_of_words .., chipReady_of_words ..⟩

/-! ### Masks -/

/-- The driver keeps the bit of a line clear. -/
def unmasked (pic : Pic) (irq : Fin 16) : Bool :=
  if irq.val < 8 then !pic.masterMask.getLsbD irq else !pic.slaveMask.getLsbD (irq - 8)

theorem getLsbD_clear (mask : BitVec 8) (number bit : Nat) (inside : bit < 8) :
    (mask &&& ~~~((1 : BitVec 8) <<< number)).getLsbD bit =
      if bit = number then false else mask.getLsbD bit := by
  by_cases same : bit = number
  · simp [same]
  · by_cases before : bit < number
    · simp [before, inside, same]
    · have ne : bit - number ≠ 0 := by omega
      simp [before, inside, same, ne]

theorem getLsbD_put (mask : BitVec 8) (number bit : Nat) (inside : bit < 8) :
    (mask ||| (1 : BitVec 8) <<< number).getLsbD bit =
      if bit = number then true else mask.getLsbD bit := by
  by_cases same : bit = number
  · simp [← same, inside]
  · by_cases before : bit < number
    · simp [before, same]
    · have ne : bit - number ≠ 0 := by omega
      simp [before, inside, same, ne]

theorem unmasked_writeMask {update : BitVec 8 → Nat → BitVec 8} {value : Bool}
    (updates : ∀ mask number bit, bit < 8 → (update mask number).getLsbD bit =
      if bit = number then value else mask.getLsbD bit) (irqNum : Word) (pic : Pic)
    (irq : Fin 16) :
    (pic.writeMask update irqNum).unmasked irq =
      if irqNum.toNat = irq then !value else pic.unmasked irq := by
  have below := irq.isLt
  unfold writeMask
  by_cases first : irqNum < 8
  · have number : irqNum.toNat < 8 := first
    rw [if_pos first, outb_masterDport]
    by_cases low : irq.val < 8
    · rw [unmasked, if_pos low, updates _ _ _ low, unmasked, if_pos low]
      by_cases here : irqNum.toNat = irq
      · rw [if_pos here, if_pos here.symm]
      · rw [if_neg here, if_neg (Ne.symm here)]
    · rw [unmasked, if_neg low, unmasked, if_neg low, if_neg (by omega)]
  · have number : 8 ≤ irqNum.toNat := Nat.not_lt.mp first
    rw [if_neg first]
    by_cases second : irqNum < 16
    · have number' : irqNum.toNat < 16 := second
      have line : (irqNum - 8).toNat = irqNum.toNat - 8 :=
        BitVec.toNat_sub_of_le (show (8 : Word) ≤ irqNum from number)
      rw [if_pos second, outb_slaveDport]
      by_cases low : irq.val < 8
      · rw [unmasked, if_pos low, unmasked, if_pos low, if_neg (by omega)]
      · rw [unmasked, if_neg low, line, updates _ _ _ (by omega), unmasked, if_neg low]
        by_cases here : irqNum.toNat = irq
        · rw [if_pos here, if_pos (by omega)]
        · rw [if_neg here, if_neg (by omega)]
    · have number' : 16 ≤ irqNum.toNat := Nat.not_lt.mp second
      rw [if_neg second, if_neg (by omega)]

theorem Configured.writeMask {pic : Pic} (configured : Configured pic)
    (update : BitVec 8 → Nat → BitVec 8) (irqNum : Word) :
    Configured (pic.writeMask update irqNum) := by
  unfold Pic.writeMask
  split
  · simp only [outb_masterDport, setWidth_setWidth]
    exact ⟨configured.master.data _, configured.slave⟩
  · split
    · simp only [outb_slaveDport, setWidth_setWidth]
      exact ⟨configured.master, configured.slave.data _⟩
    · exact configured

/-! ### Ends of interrupts -/

/-- The commands of `send_eoi` have the form of a specific end of interrupt. -/
theorem eoi_bits : ∀ line : Fin 8,
    ((eoi ||| BitVec.ofNat 32 line).setWidth 8).getLsbD 4 = false ∧
      ((eoi ||| BitVec.ofNat 32 line).setWidth 8) &&& 0xF8 = 0x60 ∧
      (((eoi ||| BitVec.ofNat 32 line).setWidth 8) &&& 7).toNat = line := by
  decide

/-- The end of an interrupt, as the driver asks for it. -/
theorem command_eoi (chip : Chip) (line : Fin 8) :
    chip.command ((eoi ||| BitVec.ofNat 32 line).setWidth 8) = chip.finish line := by
  obtain ⟨later, specific, number⟩ := eoi_bits line
  rw [Chip.command, if_neg (by rw [later]; decide), if_pos specific, number, Line.ofNat_val]

/-- An end by command changes nothing but what is in service. -/
theorem ChipReady.finish {chip : Chip} {icw2 icw3 : Word} {mask : BitVec 8}
    (ready : ChipReady chip icw2 icw3 mask) (line : Fin 8) :
    ChipReady (chip.finish line) icw2 icw3 mask :=
  ⟨ready.phase, ready.icw2, ready.icw3, ready.icw4, ready.mask⟩

theorem ChipReady.accept {chip : Chip} {icw2 icw3 : Word} {mask : BitVec 8}
    (ready : ChipReady chip icw2 icw3 mask) (line : Fin 8) :
    ChipReady (chip.accept line) icw2 icw3 mask :=
  ⟨ready.phase, ready.icw2, ready.icw3, ready.icw4, ready.mask⟩

/-- A number below 8 is the number of a line. -/
theorem exists_line {irqNum : Word} (low : irqNum < 8) :
    ∃ line : Fin 8, irqNum = BitVec.ofNat 32 line :=
  ⟨⟨irqNum.toNat, low⟩, (BitVec.ofNat_toNat 32 irqNum).symm ▸ (BitVec.setWidth_eq irqNum).symm⟩

theorem Configured.sendEoi {pic : Pic} (configured : Configured pic) (irqNum : Word) :
    Configured (pic.sendEoi irqNum) := by
  unfold Pic.sendEoi eoiWrites
  split_ifs with first second
  · obtain ⟨line, rfl⟩ := exists_line first
    rw [List.foldl_cons, List.foldl_nil, outb_masterPort, command_eoi]
    exact ⟨configured.master.finish line, configured.slave⟩
  · have behind : irqNum - 8 < 8 := by bv_omega
    obtain ⟨line, number⟩ := exists_line behind
    have cascaded : (eoi ||| slaveCascadeIrq).setWidth 8 =
        (eoi ||| BitVec.ofNat 32 ((2 : Fin 8) : Nat)).setWidth 8 := rfl
    rw [List.foldl_cons, List.foldl_cons, List.foldl_nil, number, outb_slavePort, outb_masterPort,
      command_eoi, cascaded, command_eoi]
    exact ⟨configured.master.finish 2, configured.slave.finish line⟩
  · exact configured

theorem Configured.request {pic : Pic} (configured : Configured pic) (irq : Fin 16) :
    Configured { pic with controller := pic.controller.request irq } := by
  unfold Controller.request
  have master := configured.master
  have slave := configured.slave
  split
  · exact ⟨⟨master.phase, master.icw2, master.icw3, master.icw4, master.mask⟩, slave⟩
  · exact ⟨master, ⟨slave.phase, slave.icw2, slave.icw3, slave.icw4, slave.mask⟩⟩

/-- An interrupt that is taken is one of a line of the master, or of one behind the
cascade. -/
theorem acknowledge_cases {controller controller' : Controller} {vector : BitVec 8}
    (taken : controller.acknowledge = some (vector, controller')) :
    (∃ line, line ≠ cascade ∧ controller.pending = some line ∧
      vector = controller.master.vector line ∧
      controller' = { controller with master := controller.master.accept line }) ∨
    ∃ behind, controller.pending = some cascade ∧ controller.slave.pending = some behind ∧
      vector = controller.slave.vector behind ∧
      controller' = { master := controller.master.accept cascade,
                      slave := controller.slave.accept behind } := by
  obtain ⟨line, pending, taken⟩ := Option.bind_eq_some_iff.mp taken
  by_cases cascaded : line = cascade
  · subst line
    rw [if_pos rfl] at taken
    split at taken
    · obtain ⟨behind, asked, same⟩ := Option.map_eq_some_iff.mp taken
      cases same
      exact .inr ⟨behind, pending, asked, rfl, rfl⟩
    · cases taken
  · rw [if_neg cascaded] at taken
    cases taken
    exact .inl ⟨line, cascaded, pending, rfl, rfl⟩

theorem Configured.acknowledge {pic : Pic} (configured : Configured pic) {vector : BitVec 8}
    {controller : Controller} (taken : pic.controller.acknowledge = some (vector, controller)) :
    Configured { pic with controller := controller } := by
  cases acknowledge_cases taken with
  | inl direct =>
      obtain ⟨line, -, -, -, rfl⟩ := direct
      exact ⟨configured.master.accept line, configured.slave⟩
  | inr behind =>
      obtain ⟨line, -, -, -, rfl⟩ := behind
      exact ⟨configured.master.accept cascade, configured.slave.accept line⟩

theorem Configured.apply {pic : Pic} (configured : Configured pic) (call : Call) :
    Configured (pic.apply call) := by
  cases call with
  | enableIrq irqNum =>
      rw [Pic.apply, enableIrq]
      exact configured.writeMask _ irqNum
  | disableIrq irqNum =>
      rw [Pic.apply, disableIrq]
      exact configured.writeMask _ irqNum
  | sendEoi irqNum => exact configured.sendEoi irqNum
  | request irq => exact configured.request irq
  | acknowledge =>
      dsimp only [Pic.apply]
      split
      · exact configured.acknowledge ‹_›
      · exact configured

/-- What the calls ask for a line: the last one about it decides, and the cascade is
open from the start. -/
def wanted (calls : List Call) (irq : Fin 16) : Bool :=
  calls.foldl (fun open' call => match call with
    | .enableIrq irqNum => if irqNum.toNat = irq then true else open'
    | .disableIrq irqNum => if irqNum.toNat = irq then false else open'
    | _ => open') (irq = 2)

theorem unmasked_i8259Init (pic : Pic) (irq : Fin 16) :
    pic.i8259Init.unmasked irq = decide (irq = 2) := by
  revert irq
  simp only [i8259Init, outb_masterPort, outb_masterDport, outb_slavePort, outb_slaveDport, unmasked]
  decide

theorem masks_sendEoi (irqNum : Word) (pic : Pic) :
    (pic.sendEoi irqNum).masterMask = pic.masterMask ∧
      (pic.sendEoi irqNum).slaveMask = pic.slaveMask := by
  unfold sendEoi eoiWrites
  split_ifs <;> exact ⟨rfl, rfl⟩

theorem unmasked_apply (pic : Pic) (call : Call) (irq : Fin 16) :
    (pic.apply call).unmasked irq = match call with
      | .enableIrq irqNum => if irqNum.toNat = irq then true else pic.unmasked irq
      | .disableIrq irqNum => if irqNum.toNat = irq then false else pic.unmasked irq
      | _ => pic.unmasked irq := by
  cases call with
  | enableIrq irqNum => exact unmasked_writeMask getLsbD_clear irqNum pic irq
  | disableIrq irqNum => exact unmasked_writeMask getLsbD_put irqNum pic irq
  | sendEoi irqNum =>
      obtain ⟨master, slave⟩ := masks_sendEoi irqNum pic
      simp only [apply, unmasked, master, slave]
  | request irq => rfl
  | acknowledge =>
      unfold apply
      dsimp only
      split <;> rfl

/-- **Masks.** From initialization on, through any calls and interrupts. -/
theorem unmasked_of_calls (pic : Pic) (calls : List Call) (irq : Fin 16) :
    (calls.foldl apply pic.i8259Init).unmasked irq = wanted calls irq := by
  unfold wanted
  rw [← unmasked_i8259Init pic irq]
  generalize pic.i8259Init = start
  induction calls generalizing start with
  | nil => rfl
  | cons call calls inductionHypothesis =>
      rw [List.foldl_cons, List.foldl_cons, inductionHypothesis, unmasked_apply]

theorem configured_of_calls (pic : Pic) (calls : List Call) :
    Configured (calls.foldl apply pic.i8259Init) := by
  have start := configured_i8259Init pic
  generalize pic.i8259Init = pic' at start
  induction calls generalizing pic' with
  | nil => exact start
  | cons call calls inductionHypothesis => exact inductionHypothesis _ (start.apply call)

/-- A device has asked on the line. -/
def requested (pic : Pic) (irq : Fin 16) : Bool :=
  if irq.val < 8 then pic.controller.master.requests (Line.ofNat irq)
  else pic.controller.slave.requests (Line.ofNat (irq - 8))

theorem asks_of_find {chip : Chip} {requested : Line → Bool} {line : Line}
    (found : Fin.find? (chip.asks requested) = some line) :
    requested line = true ∧ chip.mask.getLsbD line = false ∧
      ∀ other ≤ line, chip.inService other = false := by
  have asks := Fin.eq_true_of_find?_eq_some found
  simpa [Chip.asks, and_assoc] using asks

/-- The vectors of the two controllers follow each other. -/
theorem vectors : ∀ line : Fin 8,
    (icw2Master.setWidth 8 &&& 0xF8 ||| BitVec.ofNat 8 line) = picOffset + BitVec.ofNat 8 line ∧
      (icw2Slave.setWidth 8 &&& 0xF8 ||| BitVec.ofNat 8 line) =
        picOffset + BitVec.ofNat 8 (8 + line) := by
  decide

/-- **Vectors.** Whatever was called, an interrupt that the processor is given has
the vector of a line that a device has asked on, and that the last call about it
enabled. -/
theorem vector_of_calls (pic : Pic) (calls : List Call) {vector : BitVec 8}
    {controller : Controller}
    (taken : (calls.foldl apply pic.i8259Init).controller.acknowledge =
      some (vector, controller)) :
    ∃ irq : Fin 16, irq ≠ 2 ∧ vector = picOffset + BitVec.ofNat 8 irq ∧ wanted calls irq = true ∧
      (8 ≤ irq.val → wanted calls 2 = true) ∧
      (calls.foldl apply pic.i8259Init).requested irq = true := by
  have configured := configured_of_calls pic calls
  have masks := unmasked_of_calls pic calls
  generalize calls.foldl apply pic.i8259Init = final at taken configured masks
  cases acknowledge_cases taken with
  | inl direct =>
      obtain ⟨line, notCascade, pending, rfl, -⟩ := direct
      obtain ⟨asked, clear, -⟩ := asks_of_find pending
      rw [Controller.requested, Function.update_of_ne notCascade] at asked
      rw [configured.master.mask] at clear
      have inside : line.val < 8 := line.isLt
      have low : (Fin.castLE (by decide) line : Fin 16).val < 8 := inside
      refine ⟨Fin.castLE (by decide) line, ?_, ?_, ?_, fun high => absurd low (by omega), ?_⟩
      · intro same
        have number : line.val = 2 := congrArg Fin.val same
        exact notCascade (Fin.ext number)
      · rw [Chip.vector, configured.master.icw2]
        exact (vectors line).1
      · rw [← masks, unmasked, if_pos low]
        exact congrArg not clear
      · rw [requested, if_pos low]
        simpa using asked
  | inr cascaded =>
      obtain ⟨line, pending, behind, rfl, -⟩ := cascaded
      obtain ⟨asked, clear, -⟩ := asks_of_find behind
      obtain ⟨-, open', -⟩ := asks_of_find pending
      rw [configured.slave.mask] at clear
      rw [configured.master.mask] at open'
      have high : ¬ (Fin.natAdd 8 line : Fin 16).val < 8 := by simp
      have number : (Fin.natAdd 8 line : Fin 16).val - 8 = line.val := by simp
      refine ⟨Fin.natAdd 8 line, ?_, ?_, ?_, fun _ => ?_, ?_⟩
      · exact fun same => high (by rw [same]; decide)
      · rw [Chip.vector, configured.slave.icw2]
        exact (vectors line).2
      · rw [← masks, unmasked, if_neg high, number]
        exact congrArg not clear
      · rw [← masks]
        exact congrArg not open'
      · rw [requested, if_neg high, number]
        simpa using asked

/-- Controllers that nothing was ever sent to. -/
def untouched : Pic :=
  let chip : Chip := ⟨.ready, 0, 0, 0, 0, 0, fun _ => false, fun _ => false⟩
  ⟨⟨chip, chip⟩, 0, 0⟩

/-- A key is pressed while the keyboard's line is enabled. -/
theorem vector_of_calls_key :
    ∃ irq : Fin 16, irq ≠ 2 ∧ (0x21 : BitVec 8) = picOffset + BitVec.ofNat 8 irq ∧
      wanted [.enableIrq 8, .enableIrq 1, .request 1] irq = true ∧
      (8 ≤ irq.val → wanted [.enableIrq 8, .enableIrq 1, .request 1] 2 = true) ∧
      ([Call.enableIrq 8, .enableIrq 1, .request 1].foldl apply untouched.i8259Init).requested irq =
        true := by
  have given : ([Call.enableIrq 8, .enableIrq 1, .request 1].foldl apply
      untouched.i8259Init).controller.acknowledge.map Prod.fst = some 0x21 := by
    decide
  obtain ⟨⟨vector, controller⟩, taken, rfl⟩ := Option.map_eq_some_iff.mp given
  exact vector_of_calls untouched _ taken

end Pic
end MonolithicKernel.Interrupts
