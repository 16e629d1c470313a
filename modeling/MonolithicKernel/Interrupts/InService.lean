import MonolithicKernel.Interrupts.Delivery

/-!
Owns the account of lines in service: in every state of every run, each is in service
for exactly one handler that has entered and has yet to end it, on whatever kernel
stack that handler is. Owns what is delivered when, which follows from it.
-/

namespace MonolithicKernel.Interrupts

open MonolithicKernel.Foundation
open Descriptors InterruptController WordRanges

/-- The write that ends a line of one of the controllers. -/
def eoiWrite (onSlave : Bool) (line : Line) : Word × BitVec 16 :=
  (eoi ||| BitVec.ofNat 32 line, if onSlave then slave8259Port else master8259Port)

theorem eoiWrite_injective : ∀ {onSlave onSlave' : Bool} {line line' : Line},
    eoiWrite onSlave line = eoiWrite onSlave' line' → onSlave = onSlave' ∧ line = line' := by
  decide

theorem eoiWrites_keyboard : Pic.eoiWrites 1 = [eoiWrite false 1] := rfl

theorem eoiWrites_rtc : Pic.eoiWrites 8 = [eoiWrite true 0, eoiWrite false 2] := rfl

/-- A write of `send_eoi` takes its line out of service and does nothing else. -/
theorem outb_eoiWrite (pic : Pic) (onSlave : Bool) (line : Line) :
    pic.outb (eoiWrite onSlave line).1 (eoiWrite onSlave line).2 =
      { pic with controller :=
          if onSlave then { pic.controller with slave := pic.controller.slave.finish line }
          else { pic.controller with master := pic.controller.master.finish line } } := by
  cases onSlave with
  | false => exact (Pic.outb_masterPort _ _).trans (by rw [eoiWrite, Pic.command_eoi]; rfl)
  | true => exact (Pic.outb_slavePort _ _).trans (by rw [eoiWrite, Pic.command_eoi]; rfl)

namespace Machine

/-- All handlers that have been entered and have not returned. -/
def activations (machine : Machine) : List Activation := (machine.running :: machine.saved).flatten

/-- Each line is in service for exactly one handler that has yet to end it, or is not
in service. -/
structure Accounted (machine : Machine) : Prop where
  opened : Opened machine.pic
  lines : ∀ onSlave line,
    machine.activations.countP (fun activation => eoiWrite onSlave line ∈ activation.eoiLeft) =
      (machine.pic.controller.serving onSlave line).toNat
  shaped : ∀ activation ∈ machine.activations, ∃ irqNum,
    irqOf activation.handler = some irqNum ∧ activation.eoiLeft <:+ Pic.eoiWrites irqNum
  /-- Only keys come in while a handler has its line to end. -/
  ordered : ∀ path ∈ machine.running :: machine.saved, path.Pairwise fun above below =>
    below.eoiLeft ≠ [] → above.handler = .keyboardWrapper

variable {machine machine' : Machine}

/-- Paths may change places. -/
theorem Accounted.of_perm (accounted : Accounted machine) (pic : machine'.pic = machine.pic)
    (perm : machine'.activations.Perm machine.activations)
    (paths : ∀ path ∈ machine'.running :: machine'.saved,
      path = [] ∨ path ∈ machine.running :: machine.saved) : Accounted machine' where
  opened := pic ▸ accounted.opened
  lines := fun onSlave line => by
    rw [pic, ← accounted.lines onSlave line]
    exact perm.countP_eq _
  shaped := fun activation entered => accounted.shaped activation (perm.mem_iff.mp entered)
  ordered := fun path member => by
    cases paths path member with
    | inl empty =>
        rw [empty]
        exact List.Pairwise.nil
    | inr member => exact accounted.ordered path member

theorem activations_cons (machine : Machine) :
    machine.activations = machine.running ++ machine.saved.flatten := List.flatten_cons

theorem Accounted.processStart (accounted : Accounted machine)
    (taken : machine.processStart = some machine') : Accounted machine' := by
  have started : machine' = machine.startProgram := by
    unfold Machine.processStart at taken
    split at taken
    · exact (Option.some.inj taken).symm
    · exact (Option.some.inj taken).symm
    · cases taken
  subst started
  have same : machine.startProgram.pic = machine.pic := rfl
  apply accounted.of_perm same
  · rw [activations_cons, activations_cons]
    exact List.Perm.refl _
  · intro path member
    exact List.mem_cons.mp member

theorem Accounted.processSwitch (accounted : Accounted machine) {path : Nat}
    (taken : machine.processSwitch path = some machine') : Accounted machine' := by
  unfold Machine.processSwitch at taken
  split at taken
  case h_2 => cases taken
  obtain ⟨next, found, rfl⟩ := Option.map_eq_some_iff.mp taken
  obtain ⟨inside, here⟩ := List.getElem?_eq_some_iff.mp found
  -- Both lists of paths are the two that change places, and the rest.
  have others : (next :: machine.saved.set path machine.running).Perm
      (machine.running :: machine.saved) :=
    calc (next :: machine.saved.set path machine.running).Perm
          (next :: machine.running :: machine.saved.eraseIdx path) :=
          (List.set_perm_cons_eraseIdx inside _).cons next
      _ |>.Perm (machine.running :: next :: machine.saved.eraseIdx path) := List.Perm.swap ..
      _ |>.Perm (machine.running :: machine.saved) :=
          (here ▸ List.getElem_cons_eraseIdx_perm inside).cons _
  exact accounted.of_perm rfl others.flatten fun path member => .inr (others.mem_iff.mp member)

theorem Accounted.halt (accounted : Accounted machine) {path : Nat}
    (taken : machine.halt path = some machine') : Accounted machine' := by
  unfold Machine.halt at taken
  split_ifs at taken with returns
  have made := Option.some.inj taken
  have same : machine'.pic = machine.pic := by rw [← made]
  obtain ⟨inside, here⟩ := List.getElem?_eq_some_iff.mp returns.2
  have others : (machine.running :: [] :: machine.saved.eraseIdx path).Perm
      (machine.running :: machine.saved) :=
    (here ▸ List.getElem_cons_eraseIdx_perm inside).cons _
  apply accounted.of_perm same
  · have flat := others.flatten
    rw [List.flatten_cons, List.flatten_cons, List.nil_append] at flat
    rw [activations_cons, ← made]
    exact flat
  · intro path member
    rw [← made] at member
    apply Or.inr
    apply others.mem_iff.mp
    cases List.mem_cons.mp member with
    | inl running => exact List.mem_cons.mpr (.inl running)
    | inr member => exact List.mem_cons_of_mem _ (List.mem_cons_of_mem _ member)

/-- The writes of the two handlers are ends of lines, each done once. -/
theorem exists_eoiWrite {handler : Handler} {irqNum : Word} {write : Word × BitVec 16}
    {left : List (Word × BitVec 16)} (irq : irqOf handler = some irqNum)
    (suffix : write :: left <:+ Pic.eoiWrites irqNum) :
    ∃ onSlave line, write = eoiWrite onSlave line ∧ write ∉ left := by
  have either : irqNum = 8 ∨ irqNum = 1 := by
    cases handler <;> cases irq
    · exact .inl rfl
    · exact .inr rfl
  rcases either with rfl | rfl
  · rw [eoiWrites_rtc, List.suffix_cons_iff, List.suffix_cons_iff] at suffix
    rcases suffix with whole | last | none
    · obtain ⟨rfl, rfl⟩ := List.cons.inj whole
      exact ⟨true, 0, rfl, by decide⟩
    · obtain ⟨rfl, rfl⟩ := List.cons.inj last
      exact ⟨false, 2, rfl, List.not_mem_nil⟩
    · cases List.suffix_nil.mp none
  · rw [eoiWrites_keyboard, List.suffix_cons_iff] at suffix
    rcases suffix with whole | none
    · obtain ⟨rfl, rfl⟩ := List.cons.inj whole
      exact ⟨false, 1, rfl, List.not_mem_nil⟩
    · cases List.suffix_nil.mp none

theorem serving_outb (pic : Pic) (onSlave onSlave' : Bool) (line line' : Line) :
    (pic.outb (eoiWrite onSlave line).1 (eoiWrite onSlave line).2).controller.serving onSlave' line' =
      if eoiWrite onSlave' line' = eoiWrite onSlave line then false
      else pic.controller.serving onSlave' line' := by
  rw [outb_eoiWrite]
  by_cases same : eoiWrite onSlave' line' = eoiWrite onSlave line
  · obtain ⟨rfl, rfl⟩ := eoiWrite_injective same
    rw [if_pos rfl]
    cases onSlave' <;> exact Function.update_self ..
  · rw [if_neg same]
    cases onSlave <;> cases onSlave'
    · exact Function.update_of_ne (fun same' => same (by rw [same'])) _ _
    · rfl
    · rfl
    · exact Function.update_of_ne (fun same' => same (by rw [same'])) _ _

theorem opened_outb {pic : Pic} (opened : Opened pic) (onSlave : Bool) (line : Line) :
    Opened (pic.outb (eoiWrite onSlave line).1 (eoiWrite onSlave line).2) := by
  rw [outb_eoiWrite]
  have configured := opened.configured
  cases onSlave with
  | false =>
      exact ⟨⟨configured.master.finish line, configured.slave⟩, opened.masterMask, opened.slaveMask⟩
  | true =>
      exact ⟨⟨configured.master, configured.slave.finish line⟩, opened.masterMask, opened.slaveMask⟩

theorem Accounted.sendEoi (accounted : Accounted machine)
    (taken : machine.sendEoi = some machine') : Accounted machine' := by
  obtain ⟨pic, interruptFlag, running, saved⟩ := machine
  unfold Machine.sendEoi at taken
  split at taken
  case h_2 => cases taken
  rename_i handler write left flag rest top
  cases top
  cases taken
  have entered : ∀ head : Activation, (Machine.activations ⟨pic, interruptFlag, head :: rest, saved⟩) =
      head :: (rest ++ saved.flatten) := fun head => rfl
  have shaped := accounted.shaped
  rw [entered] at shaped
  obtain ⟨irqNum, irq, suffix⟩ := shaped _ List.mem_cons_self
  obtain ⟨onSlave, line, rfl, once⟩ := exists_eoiWrite irq suffix
  constructor
  · exact opened_outb accounted.opened onSlave line
  · intro onSlave' line'
    have before := accounted.lines onSlave' line'
    rw [entered, List.countP_cons] at before
    rw [activations_cons, List.cons_append, List.countP_cons]
    dsimp only at before ⊢
    rw [serving_outb]
    by_cases same : eoiWrite onSlave' line' = eoiWrite onSlave line
    · rw [if_pos same, same, if_neg (by simpa using once)]
      rw [same, if_pos (by simp)] at before
      have atMost := Bool.toNat_le (pic.controller.serving onSlave' line')
      have none : (0 : Nat) = false.toNat := rfl
      omega
    · rw [if_neg same, ← before]
      simp [List.mem_cons, same]
  · intro activation member
    cases List.mem_cons.mp member with
    | inl head =>
        rw [head]
        exact ⟨irqNum, irq, (List.suffix_cons _ left).trans suffix⟩
    | inr other => exact shaped activation (List.mem_cons_of_mem _ other)
  · intro path member
    cases List.mem_cons.mp member with
    | inl head =>
        subst path
        have ordered := accounted.ordered _ List.mem_cons_self
        rw [List.pairwise_cons] at ordered ⊢
        exact ordered
    | inr other => exact accounted.ordered path (List.mem_cons_of_mem _ other)

def enterKeyboard (machine : Machine) : Machine :=
  machine.enter { machine.pic.controller with
    master := machine.pic.controller.master.accept (Line.ofNat 1) } .keyboardWrapper .interrupt 1

def enterRtc (machine : Machine) : Machine :=
  machine.enter { master := machine.pic.controller.master.accept cascade,
                  slave := machine.pic.controller.slave.accept (Line.ofNat 0) } .rtcWrapper .trap 8

theorem deliver_eq (opened : Opened machine.pic) :
    machine.deliver =
      if machine.interruptFlag = true then
        if KeyDue machine.pic then some machine.enterKeyboard
        else if TickDue machine.pic then some machine.enterRtc
        else none
      else none := by
  have key : registered 0x21 = some (.keyboardWrapper, .interrupt, 0) := by decide
  have tick : registered 0x28 = some (.rtcWrapper, .trap, 0) := by decide
  unfold deliver
  by_cases enabled : machine.interruptFlag = true
  · rw [if_pos enabled, if_pos enabled, acknowledge_eq opened]
    by_cases keyDue : KeyDue machine.pic
    · rw [if_pos keyDue, if_pos keyDue, Option.bind_some]
      dsimp only
      rw [key]
      rfl
    · rw [if_neg keyDue, if_neg keyDue]
      by_cases tickDue : TickDue machine.pic
      · rw [if_pos tickDue, if_pos tickDue, Option.bind_some]
        dsimp only
        rw [tick]
        rfl
      · rw [if_neg tickDue, if_neg tickDue, Option.bind_none]
  · rw [if_neg enabled, if_neg enabled]

/-- A handler with a line to end has the line of its own on the master to end. -/
theorem mem_of_shaped {handler : Handler} {irqNum : Word} {left : List (Word × BitVec 16)}
    (irq : irqOf handler = some irqNum) (suffix : left <:+ Pic.eoiWrites irqNum) (ne : left ≠ []) :
    handler = .rtcWrapper ∧ eoiWrite false 2 ∈ left ∨
      handler = .keyboardWrapper ∧ eoiWrite false 1 ∈ left := by
  have last : (Pic.eoiWrites irqNum).getLast? = left.getLast? := by
    obtain ⟨before, whole⟩ := suffix
    rw [← whole, List.getLast?_append_of_ne_nil _ ne]
  cases handler <;> cases irq
  · exact .inl ⟨rfl, List.mem_of_getLast? (last.symm.trans rfl)⟩
  · exact .inr ⟨rfl, List.mem_of_getLast? (last.symm.trans rfl)⟩

/-- The line that a write ends is in service while some handler has the write to do. -/
theorem Accounted.serving_of_mem (accounted : Accounted machine) {activation : Activation}
    (entered : activation ∈ machine.activations) {onSlave : Bool} {line : Line}
    (left : eoiWrite onSlave line ∈ activation.eoiLeft) :
    machine.pic.controller.serving onSlave line = true := by
  have counted := accounted.lines onSlave line
  have positive : 0 < machine.activations.countP
      (fun activation => eoiWrite onSlave line ∈ activation.eoiLeft) :=
    List.countP_pos_iff.mpr ⟨activation, entered, by simpa using left⟩
  rw [counted] at positive
  cases served : machine.pic.controller.serving onSlave line with
  | true => rfl
  | false =>
      rw [served] at positive
      cases positive

/-- Entering a handler whose lines were free and go into service. -/
theorem Accounted.enter (accounted : Accounted machine) {controller : Controller}
    {handler : Handler} {irqNum : Word} (kind : GateKind) (irq : irqOf handler = some irqNum)
    (opened : Opened { machine.pic with controller := controller })
    (serving : ∀ onSlave line, controller.serving onSlave line =
      (decide (eoiWrite onSlave line ∈ Pic.eoiWrites irqNum) ||
        machine.pic.controller.serving onSlave line))
    (free : ∀ onSlave line, eoiWrite onSlave line ∈ Pic.eoiWrites irqNum →
      machine.pic.controller.serving onSlave line = false)
    (above : handler = .keyboardWrapper ∨ ∀ below ∈ machine.running, below.eoiLeft = []) :
    Accounted (machine.enter controller handler kind irqNum) := by
  constructor
  · exact opened
  · intro onSlave line
    have before := accounted.lines onSlave line
    rw [activations_cons] at before ⊢
    rw [Machine.enter, List.cons_append, List.countP_cons, before]
    dsimp only
    rw [serving]
    by_cases own : eoiWrite onSlave line ∈ Pic.eoiWrites irqNum
    · rw [free onSlave line own]
      simp [own]
    · simp [own]
  · intro activation member
    rw [activations_cons, Machine.enter, List.cons_append] at member
    cases List.mem_cons.mp member with
    | inl top =>
        rw [top]
        exact ⟨irqNum, irq, List.suffix_refl _⟩
    | inr other =>
        rw [← activations_cons] at other
        exact accounted.shaped activation other
  · intro path member
    cases List.mem_cons.mp member with
    | inl running =>
        rw [running, Machine.enter, List.pairwise_cons]
        refine ⟨fun below inside toEnd => ?_, accounted.ordered _ List.mem_cons_self⟩
        cases above with
        | inl keyboard => exact keyboard
        | inr ended => exact absurd (ended below inside) toEnd
    | inr saved => exact accounted.ordered path (List.mem_cons_of_mem _ saved)

theorem not_autoEnd {pic : Pic} (opened : Opened pic) :
    pic.controller.master.icw4.getLsbD 1 = false ∧ pic.controller.slave.icw4.getLsbD 1 = false := by
  rw [opened.configured.master.icw4, opened.configured.slave.icw4]
  decide

theorem inService_accept {chip : Chip} (byCommand : chip.icw4.getLsbD 1 = false)
    (line other : Line) :
    (chip.accept line).inService other = (decide (other = line) || chip.inService other) := by
  rw [Chip.accept, byCommand]
  by_cases same : other = line
  · rw [same, decide_eq_true rfl]
    exact Function.update_self ..
  · rw [decide_eq_false same, Bool.false_or]
    exact Function.update_of_ne same ..

/-- The lines that the two handlers end. -/
theorem mem_eoiWrites : ∀ onSlave line,
    decide (eoiWrite onSlave line ∈ Pic.eoiWrites 1) = (!onSlave && decide (line = 1)) ∧
      decide (eoiWrite onSlave line ∈ Pic.eoiWrites 8) =
        (onSlave && decide (line = 0) || !onSlave && decide (line = 2)) := by
  decide

theorem Accounted.enterKeyboard (accounted : Accounted machine) (due : KeyDue machine.pic) :
    Accounted machine.enterKeyboard := by
  have configured := accounted.opened.configured
  have byCommand := (not_autoEnd accounted.opened).1
  apply accounted.enter .interrupt rfl
  · exact ⟨⟨configured.master.accept 1, configured.slave⟩, accounted.opened.masterMask,
      accounted.opened.slaveMask⟩
  · intro onSlave line
    rw [(mem_eoiWrites onSlave line).1]
    cases onSlave with
    | true => rfl
    | false => exact inService_accept byCommand 1 line
  · intro onSlave line own
    rw [eoiWrites_keyboard, List.mem_singleton] at own
    obtain ⟨rfl, rfl⟩ := eoiWrite_injective own
    exact due.2 1 (le_refl _)
  · exact .inl rfl

/-- When the timer is due, every handler on the running path has ended its line. -/
theorem Accounted.ended_of_tickDue (accounted : Accounted machine) (due : TickDue machine.pic) :
    ∀ activation ∈ machine.activations, activation.eoiLeft = [] := by
  intro activation entered
  by_contra toEnd
  obtain ⟨irqNum, irq, suffix⟩ := accounted.shaped activation entered
  cases mem_of_shaped irq suffix toEnd with
  | inl rtc =>
      have busy := accounted.serving_of_mem entered rtc.2
      have free : machine.pic.controller.serving false 2 = false := due.2 2 (le_refl _)
      rw [free] at busy
      cases busy
  | inr keyboard =>
      have busy := accounted.serving_of_mem entered keyboard.2
      have free : machine.pic.controller.serving false 1 = false := due.2 1 (by decide)
      rw [free] at busy
      cases busy

theorem Accounted.enterRtc (accounted : Accounted machine) (due : TickDue machine.pic) :
    Accounted machine.enterRtc := by
  have configured := accounted.opened.configured
  have byCommand := not_autoEnd accounted.opened
  apply accounted.enter .trap rfl
  · exact ⟨⟨configured.master.accept 2, configured.slave.accept 0⟩, accounted.opened.masterMask,
      accounted.opened.slaveMask⟩
  · intro onSlave line
    rw [(mem_eoiWrites onSlave line).2]
    cases onSlave with
    | true =>
        rw [Bool.true_and, Bool.not_true, Bool.false_and, Bool.or_false]
        exact inService_accept byCommand.2 0 line
    | false => exact inService_accept byCommand.1 2 line
  · intro onSlave line own
    rw [eoiWrites_rtc, List.mem_cons, List.mem_singleton] at own
    cases own with
    | inl timer =>
        obtain ⟨rfl, rfl⟩ := eoiWrite_injective timer
        exact due.1.2 0 (le_refl _)
    | inr cascade =>
        obtain ⟨rfl, rfl⟩ := eoiWrite_injective cascade
        exact due.2 2 (le_refl _)
  · apply Or.inr
    intro below inside
    apply accounted.ended_of_tickDue due
    rw [activations_cons]
    exact List.mem_append_left _ inside

theorem Accounted.iret (accounted : Accounted machine) (taken : machine.iret = some machine') :
    Accounted machine' := by
  obtain ⟨pic, interruptFlag, running, saved⟩ := machine
  unfold Machine.iret at taken
  split at taken
  case h_2 => cases taken
  rename_i handler flag rest top
  cases top
  cases taken
  have entered : Machine.activations ⟨pic, interruptFlag, ⟨handler, [], flag⟩ :: rest, saved⟩ =
      ⟨handler, [], flag⟩ :: (rest ++ saved.flatten) := rfl
  have shaped := accounted.shaped
  have lines := accounted.lines
  rw [entered] at shaped lines
  constructor
  · exact accounted.opened
  · intro onSlave line
    have before := lines onSlave line
    rw [List.countP_cons] at before
    simpa [activations_cons] using before
  · exact fun activation member => shaped activation (List.mem_cons_of_mem _ member)
  · intro path member
    cases List.mem_cons.mp member with
    | inl head =>
        subst path
        exact (List.pairwise_cons.mp (accounted.ordered _ List.mem_cons_self)).2
    | inr other => exact accounted.ordered path (List.mem_cons_of_mem _ other)

theorem Accounted.step (accounted : Accounted machine) {label : Label}
    (taken : machine.step label = some machine') : Accounted machine' := by
  cases label with
  | request irq =>
      cases taken
      have same : (machine.pic.controller.request irq).serving = machine.pic.controller.serving := by
        unfold Controller.request
        split <;> rfl
      constructor
      · exact ⟨accounted.opened.configured.request irq, accounted.opened.masterMask,
          accounted.opened.slaveMask⟩
      · intro onSlave line
        dsimp only
        rw [same]
        exact accounted.lines onSlave line
      · exact accounted.shaped
      · exact accounted.ordered
  | deliver =>
      rw [Machine.step, deliver_eq accounted.opened] at taken
      split_ifs at taken with enabled keyDue tickDue
      · exact Option.some.inj taken ▸ accounted.enterKeyboard keyDue
      · exact Option.some.inj taken ▸ accounted.enterRtc tickDue
  | sendEoi => exact accounted.sendEoi taken
  | setInterruptFlag flag =>
      rw [Machine.step] at taken
      split_ifs at taken
      cases taken
      exact ⟨accounted.opened, accounted.lines, accounted.shaped, accounted.ordered⟩
  | iret => exact accounted.iret taken
  | processStart => exact accounted.processStart taken
  | processSwitch path => exact accounted.processSwitch taken
  | halt path => exact accounted.halt taken

/-- No line is in service. -/
def Quiet (pic : Pic) : Prop := ∀ onSlave line, pic.controller.serving onSlave line = false

theorem serving_of_data (value : BitVec 8) (chip : Chip) :
    (chip.data value).inService = chip.inService := by
  unfold Chip.data
  split <;> rfl

theorem start_pic (pic : Pic) :
    (start pic).pic = (pic.i8259Init.enableIrq 8).enableIrq 1 := rfl

theorem enableIrq_rtc (pic : Pic) :
    pic.enableIrq 8 =
      { pic with
        controller := { pic.controller with
          slave := pic.controller.slave.data (pic.slaveMask &&& ~~~1) }
        slaveMask := pic.slaveMask &&& ~~~1 } := by
  rw [Pic.enableIrq, Pic.writeMask, if_neg (by decide), if_pos (by decide), Pic.outb_slaveDport,
    Pic.setWidth_setWidth]
  rfl

theorem enableIrq_keyboard (pic : Pic) :
    pic.enableIrq 1 =
      { pic with
        controller := { pic.controller with
          master := pic.controller.master.data (pic.masterMask &&& ~~~2) }
        masterMask := pic.masterMask &&& ~~~2 } := by
  rw [Pic.enableIrq, Pic.writeMask, if_pos (by decide), Pic.outb_masterDport, Pic.setWidth_setWidth]
  rfl

/-- Initialization says nothing about what is in service. -/
theorem serving_i8259Init (pic : Pic) :
    pic.i8259Init.controller.serving = pic.controller.serving := by
  have command (chip : Chip) : (chip.command (icw1.setWidth 8)).inService = chip.inService := by
    rw [Chip.command, if_pos (by decide)]
  funext onSlave
  cases onSlave <;>
    simp [Pic.i8259Init, Controller.serving, serving_of_data, command]

theorem serving_start (pic : Pic) : (start pic).pic.controller.serving = pic.controller.serving := by
  rw [start_pic, enableIrq_keyboard, enableIrq_rtc]
  apply Eq.trans _ (serving_i8259Init pic)
  funext onSlave
  cases onSlave <;> simp [Controller.serving, serving_of_data]

theorem opened_start (pic : Pic) : Opened (start pic).pic := by
  have configured := ((Pic.configured_i8259Init pic).apply (.enableIrq 8)).apply (.enableIrq 1)
  have masks : pic.i8259Init.masterMask = 0xFB ∧ pic.i8259Init.slaveMask = 0xFF := ⟨rfl, rfl⟩
  refine ⟨configured, ?_, ?_⟩
  · rw [start_pic, enableIrq_keyboard, enableIrq_rtc]
    dsimp only
    rw [masks.1]
    decide
  · rw [start_pic, enableIrq_keyboard, enableIrq_rtc]
    dsimp only
    rw [masks.2]
    decide

theorem accounted_start {pic : Pic} (quiet : Quiet pic) : Accounted (start pic) := by
  constructor
  · exact opened_start pic
  · intro onSlave line
    rw [serving_start, quiet]
    rfl
  · intro activation entered
    cases entered
  · intro path member
    rw [List.mem_singleton.mp member]
    exact List.Pairwise.nil

theorem Accounted.run (accounted : Accounted machine) {labels : List Label}
    (ran : Step.run Machine.step machine labels = some machine') : Accounted machine' :=
  Step.invariant_of_any_run (fun _ _ _ (before : Accounted _) taken => before.step taken) accounted
    ran

/-! ### Delivery -/

/-- A line is in service only for a handler that has it to end. -/
theorem Accounted.serving_eq_false (accounted : Accounted machine) {onSlave : Bool} {line : Line}
    (ended : ∀ activation ∈ machine.activations, eoiWrite onSlave line ∉ activation.eoiLeft) :
    machine.pic.controller.serving onSlave line = false := by
  have none : machine.activations.countP
      (fun activation => eoiWrite onSlave line ∈ activation.eoiLeft) = 0 := by
    rw [List.countP_eq_zero]
    intro activation entered
    simpa using ended activation entered
  rw [accounted.lines] at none
  exact Bool.toNat_eq_zero.mp none

/-- The only lines that are ever in service. -/
theorem Accounted.serving_of_other (accounted : Accounted machine) {onSlave : Bool} {line : Line}
    (other : eoiWrite onSlave line ∉ Pic.eoiWrites 1 ∧ eoiWrite onSlave line ∉ Pic.eoiWrites 8) :
    machine.pic.controller.serving onSlave line = false := by
  apply accounted.serving_eq_false
  intro activation entered left
  obtain ⟨irqNum, irq, suffix⟩ := accounted.shaped activation entered
  have written := suffix.subset left
  cases handler : activation.handler <;> rw [handler] at irq <;> cases irq
  · exact other.2 written
  · exact other.1 written

theorem Accounted.keyDue_iff (accounted : Accounted machine) :
    KeyDue machine.pic ↔ machine.pic.controller.master.requests 1 = true ∧
      ∀ activation ∈ machine.activations, activation.handler = .keyboardWrapper →
        activation.eoiLeft = [] := by
  apply and_congr_right
  intro _
  constructor
  · intro free activation entered keyboard
    by_contra toEnd
    obtain ⟨irqNum, irq, suffix⟩ := accounted.shaped activation entered
    cases mem_of_shaped irq suffix toEnd with
    | inl rtc =>
        rw [keyboard] at rtc
        cases rtc.1
    | inr here =>
        have busy := accounted.serving_of_mem entered here.2
        rw [show machine.pic.controller.serving false 1 = false from free 1 (le_refl _)] at busy
        cases busy
  · intro ended other upTo
    have either : other = 0 ∨ other = 1 := by
      revert other
      decide
    cases either with
    | inl first =>
        rw [first]
        have unused : eoiWrite false 0 ∉ Pic.eoiWrites 1 ∧ eoiWrite false 0 ∉ Pic.eoiWrites 8 := by
          decide
        exact accounted.serving_of_other unused
    | inr second =>
        rw [second]
        apply @Accounted.serving_eq_false _ accounted false
        intro activation entered left
        have toEnd : activation.eoiLeft ≠ [] := List.ne_nil_of_mem left
        obtain ⟨irqNum, irq, suffix⟩ := accounted.shaped activation entered
        have written := suffix.subset left
        cases handler : activation.handler <;> rw [handler] at irq <;> cases irq
        · revert written
          decide
        · exact toEnd (ended activation entered handler)

theorem Accounted.tickDue_iff (accounted : Accounted machine) :
    TickDue machine.pic ↔ machine.pic.controller.slave.requests 0 = true ∧
      ∀ activation ∈ machine.activations, activation.eoiLeft = [] := by
  constructor
  · exact fun due => ⟨due.1.1, accounted.ended_of_tickDue due⟩
  · intro both
    obtain ⟨requested, ended⟩ := both
    have free (onSlave : Bool) (line : Line) :
        machine.pic.controller.serving onSlave line = false := by
      apply accounted.serving_eq_false
      intro activation entered left
      rw [ended activation entered] at left
      cases left
    exact ⟨⟨requested, fun line _ => free true line⟩, fun line _ => free false line⟩

/-- **Delivery.** In every state that the kernel gets into, a line is in service for exactly
one entered handler that has yet to end it, or is not in service; and an interrupt is
delivered exactly when interrupts are enabled and either a key has come and no entered
keyboard handler has its line to end, or the timer has ticked and no handler at all has,
wherever its path is saved. -/
theorem deliver_of_run {pic : Pic} (quiet : Quiet pic) {labels : List Label}
    (ran : Step.run Machine.step (start pic) labels = some machine) :
    (∀ onSlave line,
      machine.activations.countP (fun activation => eoiWrite onSlave line ∈ activation.eoiLeft) =
        (machine.pic.controller.serving onSlave line).toNat) ∧
    machine.deliver =
      if machine.interruptFlag = true then
        if machine.pic.controller.master.requests 1 = true ∧
            ∀ activation ∈ machine.activations, activation.handler = .keyboardWrapper →
              activation.eoiLeft = [] then
          some machine.enterKeyboard
        else if machine.pic.controller.slave.requests 0 = true ∧
            ∀ activation ∈ machine.activations, activation.eoiLeft = [] then
          some machine.enterRtc
        else none
      else none := by
  have accounted := (accounted_start quiet).run ran
  refine ⟨accounted.lines, ?_⟩
  rw [deliver_eq accounted.opened]
  simp only [accounted.keyDue_iff, accounted.tickDue_iff]

theorem quiet_untouched : Quiet Pic.untouched := by
  intro onSlave line
  cases onSlave <;> rfl

/-- A key is taken while the handler of a tick has its line to end. -/
theorem deliver_of_run_tick :
    ∃ machine, Step.run Machine.step (start Pic.untouched)
        [.setInterruptFlag true, .request 8, .deliver, .request 8, .request 1] = some machine ∧
      machine.deliver = some machine.enterKeyboard ∧
      machine.activations.countP (fun activation => eoiWrite true 0 ∈ activation.eoiLeft) = 1 := by
  have ran : ∃ machine, Step.run Machine.step (start Pic.untouched)
      [.setInterruptFlag true, .request 8, .deliver, .request 8, .request 1] = some machine ∧
        machine.interruptFlag = true ∧ machine.pic.controller.master.requests 1 = true ∧
        machine.pic.controller.serving true 0 = true ∧
        machine.activations = [⟨.rtcWrapper, Pic.eoiWrites 8, true⟩] :=
    ⟨_, rfl, rfl, rfl, rfl, rfl⟩
  obtain ⟨machine, ran, enabled, key, serving, entered⟩ := ran
  have delivery := deliver_of_run quiet_untouched ran
  refine ⟨machine, ran, delivery.2.trans ?_, ?_⟩
  · simp [enabled, key, entered]
  · rw [delivery.1, serving]
    rfl

end Machine

end MonolithicKernel.Interrupts
