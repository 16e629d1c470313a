import MonolithicKernel.Foundation.Descriptors

/-!
Owns the descriptor tables as the kernel fills them: the packed descriptors of
`x86_desc.h` and its macros, the static GDT of `x86_desc.S`, the LDT and TSS
descriptors that `entry` builds, and `initialize_idt`. Where the linker puts the
handlers and tables is a parameter.

Owns which interrupts are taken, and where they go.
-/

namespace MonolithicKernel.Interrupts

open MonolithicKernel.Foundation
open Descriptors WordRanges

/-! ### `x86_desc.h` -/

def kernelCs : BitVec 16 := 0x10
def kernelDs : BitVec 16 := 0x18
def userCs : BitVec 16 := 0x23
def userDs : BitVec 16 := 0x2B
def kernelTss : BitVec 16 := 0x30
def kernelLdt : BitVec 16 := 0x38

/-- `seg_desc_t`, from bit 0 on. -/
def segDesc : List Nat := [16, 16, 8, 4, 1, 2, 1, 4, 1, 1, 1, 1, 8]

namespace SegDesc

def segLim_15_00 : Field 64 := .member segDesc 0 (by decide)
def base_15_00 : Field 64 := .member segDesc 1 (by decide)
def base_23_16 : Field 64 := .member segDesc 2 (by decide)
def type : Field 64 := .member segDesc 3 (by decide)
def sys : Field 64 := .member segDesc 4 (by decide)
def dpl : Field 64 := .member segDesc 5 (by decide)
def present : Field 64 := .member segDesc 6 (by decide)
def segLim_19_16 : Field 64 := .member segDesc 7 (by decide)
def avail : Field 64 := .member segDesc 8 (by decide)
def reserved : Field 64 := .member segDesc 9 (by decide)
def opsize : Field 64 := .member segDesc 10 (by decide)
def granularity : Field 64 := .member segDesc 11 (by decide)
def base_31_24 : Field 64 := .member segDesc 12 (by decide)

end SegDesc

/-- `SET_LDT_PARAMS` and `SET_TSS_PARAMS`, which are the same. -/
def setParams (addr lim : Word) (str : BitVec 64) : BitVec 64 :=
  let str := SegDesc.base_31_24.assign ((addr &&& 0xFF000000) >>> 24).toNat str
  let str := SegDesc.base_23_16.assign ((addr &&& 0x00FF0000) >>> 16).toNat str
  let str := SegDesc.base_15_00.assign (addr &&& 0x0000FFFF).toNat str
  let str := SegDesc.segLim_19_16.assign ((lim &&& 0x000F0000) >>> 16).toNat str
  SegDesc.segLim_15_00.assign (lim &&& 0x0000FFFF).toNat str

/-- `idt_desc_t`, from bit 0 on. -/
def idtDesc : List Nat := [16, 16, 8, 1, 1, 1, 1, 1, 2, 1, 16]

namespace IdtDesc

def offset_15_00 : Field 64 := .member idtDesc 0 (by decide)
def segSelector : Field 64 := .member idtDesc 1 (by decide)
def reserved4 : Field 64 := .member idtDesc 2 (by decide)
def reserved3 : Field 64 := .member idtDesc 3 (by decide)
def reserved2 : Field 64 := .member idtDesc 4 (by decide)
def reserved1 : Field 64 := .member idtDesc 5 (by decide)
def size : Field 64 := .member idtDesc 6 (by decide)
def reserved0 : Field 64 := .member idtDesc 7 (by decide)
def dpl : Field 64 := .member idtDesc 8 (by decide)
def present : Field 64 := .member idtDesc 9 (by decide)
def offset_31_16 : Field 64 := .member idtDesc 10 (by decide)

end IdtDesc

/-- `SET_IDT_ENTRY`. -/
def setIdtEntry (handler : Word) (segment : BitVec 16)
    (presentval dplval sizeval res_0 res_1 res_2 res_3 : Nat) (str : BitVec 64) : BitVec 64 :=
  let str := IdtDesc.offset_15_00.assign (handler &&& 0xFFFF).toNat str
  let str := IdtDesc.segSelector.assign segment.toNat str
  let str := IdtDesc.reserved4.assign 0 str
  let str := IdtDesc.reserved3.assign res_3 str
  let str := IdtDesc.reserved2.assign res_2 str
  let str := IdtDesc.reserved1.assign res_1 str
  let str := IdtDesc.size.assign sizeval str
  let str := IdtDesc.reserved0.assign res_0 str
  let str := IdtDesc.dpl.assign dplval str
  let str := IdtDesc.present.assign presentval str
  IdtDesc.offset_31_16.assign ((handler &&& 0xFFFF0000) >>> 16).toNat str

/-- `SET_IDT_INTR_ENTRY`. -/
def setIdtIntrEntry (handler : Word) (segment : BitVec 16) (dplval : Nat) (str : BitVec 64) :
    BitVec 64 :=
  setIdtEntry handler segment 1 dplval 1 0 1 1 0 str

/-- `SET_IDT_TRAP_ENTRY`. -/
def setIdtTrapEntry (handler : Word) (segment : BitVec 16) (dplval : Nat) (str : BitVec 64) :
    BitVec 64 :=
  setIdtEntry handler segment 1 dplval 1 0 1 1 1 str

/-! ### `initialize_idt` -/

/-- The assembly routines that gates lead to. -/
inductive Handler
  | divideError | nmi | breakpoint | overflow | boundRangeExceeded | invalidOpcode
  | deviceNotAvailable | doubleFault | coprocessorSegmentOverrun | invalidTss
  | segmentNotPresent | stackSegmentFault | generalProtection | pageFault | fpuError
  | alignmentCheck | machineCheck | simdFloatingPointException
  | syscallWrapper | rtcWrapper | keyboardWrapper
deriving DecidableEq, Repr

abbrev Idt := BitVec 8 → BitVec 64

/-- `SETUP_EXCEPTION`. -/
def setupException (address : Handler → Word) (idt : Idt) (entry : Handler × BitVec 8) : Idt :=
  Function.update idt entry.2 (setIdtIntrEntry (address entry.1) kernelCs 0 (idt entry.2))

def exceptions : List (Handler × BitVec 8) :=
  [(.divideError, 0), (.nmi, 2), (.breakpoint, 3), (.overflow, 4), (.boundRangeExceeded, 5),
    (.invalidOpcode, 6), (.deviceNotAvailable, 7), (.doubleFault, 8),
    (.coprocessorSegmentOverrun, 9), (.invalidTss, 10), (.segmentNotPresent, 11),
    (.stackSegmentFault, 12), (.generalProtection, 13), (.pageFault, 14), (.fpuError, 16),
    (.alignmentCheck, 17), (.machineCheck, 18), (.simdFloatingPointException, 19)]

def picOffset : BitVec 8 := 0x20
def rtcIrq : BitVec 8 := 8

def initializeIdt (address : Handler → Word) (idt : Idt) : Idt :=
  let idt := exceptions.foldl (setupException address) idt
  let idt := Function.update idt 0x80
    (setIdtTrapEntry (address .syscallWrapper) kernelCs 3 (idt 0x80))
  let idt := Function.update idt (picOffset + rtcIrq)
    (setIdtTrapEntry (address .rtcWrapper) kernelCs 0 (idt (picOffset + rtcIrq)))
  Function.update idt 0x21 (setIdtIntrEntry (address .keyboardWrapper) kernelCs 0 (idt 0x21))

/-! ### `x86_desc.S` and `entry` -/

/-- `the_ldt_desc`, which starts with what is on the stack. -/
def theLdtDesc (ldt ldtSize : Word) (stack : BitVec 64) : BitVec 64 :=
  let desc := SegDesc.granularity.assign 0 stack
  let desc := SegDesc.opsize.assign 1 desc
  let desc := SegDesc.reserved.assign 0 desc
  let desc := SegDesc.avail.assign 0 desc
  let desc := SegDesc.present.assign 1 desc
  let desc := SegDesc.dpl.assign 0 desc
  let desc := SegDesc.sys.assign 0 desc
  let desc := SegDesc.type.assign 2 desc
  setParams ldt ldtSize desc

/-- `the_tss_desc`, likewise. The two assignments of `TSS_SIZE` come before those
of `SET_TSS_PARAMS`. -/
def theTssDesc (tss tssSize : Word) (stack : BitVec 64) : BitVec 64 :=
  let desc := SegDesc.granularity.assign 0 stack
  let desc := SegDesc.opsize.assign 0 desc
  let desc := SegDesc.reserved.assign 0 desc
  let desc := SegDesc.avail.assign 0 desc
  let desc := SegDesc.segLim_19_16.assign (104 &&& 0x000F0000) desc
  let desc := SegDesc.present.assign 1 desc
  let desc := SegDesc.dpl.assign 0 desc
  let desc := SegDesc.sys.assign 0 desc
  let desc := SegDesc.type.assign 9 desc
  let desc := SegDesc.segLim_15_00.assign (104 &&& 0x0000FFFF) desc
  setParams tss tssSize desc

/-- Where the linker puts what the tables point to. -/
structure Placement where
  handler : Handler → Word
  ldt : Word
  tss : Word

/-- `ldt_size`: the LDT has four entries. -/
def ldtSize : Word := 4 * 8 - 1

/-- `tss_size`: 104 bytes are reserved. -/
def tssSize : Word := 104 - 1

def gdt (tssDesc ldtDesc : BitVec 64) : List (BitVec 64) :=
  [0, 0, 0x00CF9A000000FFFF, 0x00CF92000000FFFF, 0x00CFFA000000FFFF, 0x00CFF2000000FFFF,
    tssDesc, ldtDesc]

/-- The tables behind `initialize_idt`, which starts from a table of zeros, while
`tss.esp0` is `esp0`. -/
def tables (placement : Placement) (ldtStack tssStack : BitVec 64) (esp0 : Word) : Tables where
  gdt := gdt (theTssDesc placement.tss tssSize tssStack)
    (theLdtDesc placement.ldt ldtSize ldtStack)
  idt := initializeIdt placement.handler fun _ => 0
  ss0 := kernelDs
  esp0 := esp0

/-! ### What the processor reads -/

/-- The parts of an address, as the macros take them apart. -/
theorem address_halves (address : Word) :
    BitVec.ofNat 16 ((address &&& 0xFFFF0000) >>> 16).toNat ++
      BitVec.ofNat 16 (address &&& 0xFFFF).toNat = address := by
  rw [ofNat_masked (by decide), ofNat_maskedLow (by decide)]
  exact BitVec.extractLsb'_append_extractLsb'

theorem address_parts (address : Word) :
    BitVec.ofNat 8 ((address &&& 0xFF000000) >>> 24).toNat ++
      (BitVec.ofNat 8 ((address &&& 0x00FF0000) >>> 16).toNat ++
        BitVec.ofNat 16 (address &&& 0x0000FFFF).toNat) = address := by
  have low : BitVec.ofNat 8 ((address &&& 0x00FF0000) >>> 16).toNat ++
      BitVec.ofNat 16 (address &&& 0x0000FFFF).toNat = address.extractLsb' 0 24 := by
    rw [ofNat_masked (by decide), ofNat_maskedLow (by decide)]
    exact BitVec.extractLsb'_append_extractLsb'_eq_extractLsb' rfl
  rw [low, ofNat_masked (by decide)]
  exact BitVec.extractLsb'_append_extractLsb'

theorem limit_parts (limit : Word) :
    BitVec.ofNat 4 ((limit &&& 0x000F0000) >>> 16).toNat ++
      BitVec.ofNat 16 (limit &&& 0x0000FFFF).toNat = limit.extractLsb' 0 20 := by
  rw [ofNat_masked (by decide), ofNat_maskedLow (by decide)]
  exact BitVec.extractLsb'_append_extractLsb'_eq_extractLsb' rfl

/-- Two reserved bits make the middle of the type of a gate. -/
theorem IdtDesc.gate_get (word : BitVec 64) :
    gate.get word = reserved1.get word ++ reserved2.get word :=
  (BitVec.extractLsb'_append_extractLsb'_eq_extractLsb'
    (show (IdtDesc.reserved1.low : Nat) = IdtDesc.reserved2.low + IdtDesc.reserved2.width from
      rfl)).symm

/-- **Gates.** An entry that is set reads back as the gate it was set to. -/
theorem decodeGate_setIdtEntry (handler : Word) (segment : BitVec 16) (dplval res_3 : Nat)
    (str : BitVec 64) :
    decodeGate (setIdtEntry handler segment 1 dplval 1 0 1 1 res_3 str) =
      some ⟨handler, segment, if BitVec.ofNat 1 res_3 = 1 then .trap else .interrupt,
        BitVec.ofNat 2 dplval⟩ := by
  have parts : ∀ entry, entry = setIdtEntry handler segment 1 dplval 1 0 1 1 res_3 str →
      IdtDesc.present.get entry = 1 ∧ IdtDesc.reserved0.get entry = 0 ∧
        IdtDesc.size.get entry = 1 ∧ gate.get entry = 3 ∧
        IdtDesc.offset_31_16.get entry ++ IdtDesc.offset_15_00.get entry = handler ∧
        IdtDesc.segSelector.get entry = segment ∧
        IdtDesc.reserved3.get entry = BitVec.ofNat 1 res_3 ∧
        IdtDesc.dpl.get entry = BitVec.ofNat 2 dplval := by
    intro entry made
    subst entry
    simp (disch := decide) only [IdtDesc.gate_get, setIdtEntry, Field.get_assign_of_apart,
      Field.get_assign]
    refine ⟨rfl, rfl, rfl, rfl, address_halves handler, ?_, rfl, rfl⟩
    exact (BitVec.ofNat_toNat _ _).trans (BitVec.setWidth_eq segment)
  obtain ⟨isPresent, isSystem, isWide, isGate, offset, isFor, kind, dpl⟩ := parts _ rfl
  rw [decodeGate, if_pos ⟨isPresent, isSystem, isWide, isGate⟩]
  have chosen : (if trap.get (setIdtEntry handler segment 1 dplval 1 0 1 1 res_3 str) = 1
      then GateKind.trap else .interrupt) =
        if BitVec.ofNat 1 res_3 = 1 then .trap else .interrupt :=
    congrArg (fun bit => if bit = 1 then GateKind.trap else .interrupt) kind
  exact congrArg some (Gate.ext offset isFor chosen dpl)

/-! ### Segments -/

/-- **Segments.** The macros set base and limit whatever the descriptor holds, and
leave the rest of it alone. -/
theorem decodeSegment_setParams {addr lim : Word} {str : BitVec 64}
    (isPresent : SegDesc.present.get str = 1) (fine : SegDesc.granularity.get str = 0) :
    decodeSegment (setParams addr lim str) =
      some ⟨addr, (lim.extractLsb' 0 20).toNat, SegDesc.sys.get str = 0, SegDesc.type.get str,
        SegDesc.dpl.get str⟩ := by
  have parts : ∀ entry, entry = setParams addr lim str →
      SegDesc.base_31_24.get entry ++ (SegDesc.base_23_16.get entry ++
        SegDesc.base_15_00.get entry) = addr ∧
      SegDesc.segLim_19_16.get entry ++ SegDesc.segLim_15_00.get entry = lim.extractLsb' 0 20 ∧
      SegDesc.present.get entry = SegDesc.present.get str ∧
      SegDesc.granularity.get entry = SegDesc.granularity.get str ∧
      SegDesc.sys.get entry = SegDesc.sys.get str ∧
      SegDesc.type.get entry = SegDesc.type.get str ∧
      SegDesc.dpl.get entry = SegDesc.dpl.get str := by
    intro entry made
    subst entry
    simp (disch := decide) only [setParams, Field.get_assign_of_apart, Field.get_assign, and_true]
    exact ⟨address_parts addr, limit_parts lim⟩
  obtain ⟨base, limit, present', granularity', sys, type, dpl⟩ := parts _ rfl
  have bytes : limitBytes (granularity.get (setParams addr lim str) = 1)
      (limitHigh.get (setParams addr lim str) ++ limitLow.get (setParams addr lim str)) =
        (lim.extractLsb' 0 20).toNat := by
    rw [limitBytes, if_neg (by rw [show granularity.get _ = _ from granularity'.trans fine]; decide)]
    exact congrArg BitVec.toNat limit
  have isPresent' : Descriptors.present.get (setParams addr lim str) = 1 := present'.trans isPresent
  rw [decodeSegment, if_pos isPresent']
  exact congrArg some
    (Segment.ext base bytes (congrArg (fun bit => decide (bit = 0)) sys) type dpl)

theorem decodeSegment_theTssDesc (tss : Word) (stack : BitVec 64) :
    decodeSegment (theTssDesc tss tssSize stack) = some ⟨tss, 103, true, 9, 0⟩ := by
  unfold theTssDesc
  rw [decodeSegment_setParams]
  all_goals simp (disch := decide) only [Field.get_assign_of_apart, Field.get_assign]
  all_goals rfl

theorem decodeSegment_theLdtDesc (ldt : Word) (stack : BitVec 64) :
    decodeSegment (theLdtDesc ldt ldtSize stack) = some ⟨ldt, 31, true, 2, 0⟩ := by
  unfold theLdtDesc
  rw [decodeSegment_setParams]
  all_goals simp (disch := decide) only [Field.get_assign_of_apart, Field.get_assign]
  all_goals rfl

/-- **Segments.** Whatever was on the stack of `entry` and wherever the linker puts
the tables: the selectors of the kernel and of user programs name flat segments of
4 GB, and the last two entries of the GDT are the TSS and the LDT. -/
theorem segment_tables (placement : Placement) (ldtStack tssStack : BitVec 64) (esp0 : Word) :
    let tables := tables placement ldtStack tssStack esp0
    tables.segment kernelCs = some ⟨0, 0xFFFFFFFF, false, 10, 0⟩ ∧
      tables.segment kernelDs = some ⟨0, 0xFFFFFFFF, false, 2, 0⟩ ∧
      tables.segment userCs = some ⟨0, 0xFFFFFFFF, false, 10, 3⟩ ∧
      tables.segment userDs = some ⟨0, 0xFFFFFFFF, false, 2, 3⟩ ∧
      tables.segment kernelTss = some ⟨placement.tss, 103, true, 9, 0⟩ ∧
      tables.segment kernelLdt = some ⟨placement.ldt, 31, true, 2, 0⟩ :=
  ⟨rfl, rfl, rfl, rfl, decodeSegment_theTssDesc placement.tss tssStack,
    decodeSegment_theLdtDesc placement.ldt ldtStack⟩

/-- A user program keeps its data segment, and loses the kernel's. -/
theorem lowered_tables (placement : Placement) (ldtStack tssStack : BitVec 64) (esp0 : Word) :
    (tables placement ldtStack tssStack esp0).lowered 3 userDs = userDs ∧
      (tables placement ldtStack tssStack esp0).lowered 3 kernelDs = 0 := by
  obtain ⟨-, ofKernel, -, ofUser, -⟩ := segment_tables placement ldtStack tssStack esp0
  unfold Tables.lowered
  rw [ofKernel, ofUser]
  exact ⟨rfl, rfl⟩

/-! ### Interrupts -/

/-- What `initialize_idt` is to register. -/
def registered (vector : BitVec 8) : Option (Handler × GateKind × BitVec 2) :=
  if vector = 0x21 then some (.keyboardWrapper, .interrupt, 0)
  else if vector = 0x28 then some (.rtcWrapper, .trap, 0)
  else if vector = 0x80 then some (.syscallWrapper, .trap, 3)
  else (exceptions.find? (·.2 = vector)).map fun entry => (entry.1, .interrupt, 0)

theorem foldl_setupException {address : Handler → Word} {entries : List (Handler × BitVec 8)}
    (nodup : (entries.map Prod.snd).Nodup) (idt : Idt) (vector : BitVec 8) :
    entries.foldl (setupException address) idt vector =
      match entries.find? (·.2 = vector) with
      | some entry => setIdtIntrEntry (address entry.1) kernelCs 0 (idt vector)
      | none => idt vector := by
  induction entries generalizing idt with
  | nil => rfl
  | cons entry entries inductionHypothesis =>
      rw [List.map_cons, List.nodup_cons] at nodup
      rw [List.foldl_cons, inductionHypothesis nodup.2, List.find?_cons]
      by_cases here : entry.2 = vector
      · have later : entries.find? (·.2 = vector) = none := by
          rw [List.find?_eq_none]
          intro other member same
          apply nodup.1
          rw [here, ← of_decide_eq_true same]
          exact List.mem_map_of_mem member
        simp [later, here, setupException]
      · simp [here, setupException, Function.update_of_ne (Ne.symm here)]

/-- **Registered gates.** Exactly the vectors that are registered have gates. -/
theorem decodeGate_initializeIdt (address : Handler → Word) (vector : BitVec 8) :
    decodeGate (initializeIdt address (fun _ => 0) vector) =
      (registered vector).map fun (handler, kind, dpl) => ⟨address handler, kernelCs, kind, dpl⟩ := by
  unfold initializeIdt registered
  by_cases keyboard : vector = 0x21
  · subst vector
    rw [Function.update_self, if_pos rfl]
    exact decodeGate_setIdtEntry ..
  rw [Function.update_of_ne keyboard, if_neg keyboard]
  by_cases rtc : vector = 0x28
  · subst vector
    rw [show picOffset + rtcIrq = 0x28 from rfl, Function.update_self, if_pos rfl]
    exact decodeGate_setIdtEntry ..
  rw [show picOffset + rtcIrq = 0x28 from rfl, Function.update_of_ne rtc, if_neg rtc]
  by_cases syscall : vector = 0x80
  · subst vector
    rw [Function.update_self, if_pos rfl]
    exact decodeGate_setIdtEntry ..
  rw [Function.update_of_ne syscall, if_neg syscall, foldl_setupException (by decide)]
  cases exceptions.find? (·.2 = vector) with
  | none => exact show decodeGate 0 = none by decide
  | some entry => exact decodeGate_setIdtEntry ..

/-- **Entering the kernel.** An interrupt from user or kernel mode is taken exactly
when its vector is registered and, if a program asks for it by `int`, its gate is
open to the program. It leads to the registered handler in kernel mode, on the
kernel stack of `tss.esp0` if it comes from user mode. -/
theorem enter_tables (placement : Placement) (ldtStack tssStack : BitVec 64) (esp0 : Word)
    (cause : Cause) (cpl : BitVec 2) (vector : BitVec 8) :
    (tables placement ldtStack tssStack esp0).enter cause cpl vector =
      (registered vector).bind fun (handler, kind, dpl) =>
        if cause = .software ∧ dpl < cpl then none
        else some
          { cs := kernelCs
            eip := placement.handler handler
            cpl := 0
            stack := if cpl = 0 then none else some (kernelDs, esp0)
            disables := kind = .interrupt } := by
  obtain ⟨code, stack, -, -, -, -⟩ := segment_tables placement ldtStack tssStack esp0
  unfold Tables.enter
  rw [show (tables placement ldtStack tssStack esp0).idt vector =
    initializeIdt placement.handler (fun _ => 0) vector from rfl, decodeGate_initializeIdt]
  cases registered vector with
  | none => rfl
  | some entry =>
      obtain ⟨handler, kind, dpl⟩ := entry
      have switched : (tables placement ldtStack tssStack esp0).switchStack cpl 0 =
          some (if cpl = 0 then none else some (kernelDs, esp0)) := by
        by_cases kernel : cpl = 0
        · rw [Tables.switchStack, if_pos kernel.symm, if_pos kernel]
        · rw [Tables.switchStack, if_neg (Ne.symm kernel), if_neg kernel]
          rw [show (tables placement ldtStack tssStack esp0).ss0 = kernelDs from rfl, stack]
          rfl
      have inside : (placement.handler handler).toNat ≤ 0xFFFFFFFF := by omega
      simp only [Option.map_some, Option.bind_some, code]
      by_cases refused : cause = .software ∧ dpl < cpl
      · rw [if_pos refused, if_pos refused]
      · have open' : (⟨0, 0xFFFFFFFF, false, 10, 0⟩ : Segment).IsCode := by decide
        rw [if_neg refused, if_neg refused,
          if_pos ⟨open', BitVec.le_def.mpr (Nat.zero_le _), inside⟩, switched, Option.map_some,
          show (0 : Word) + placement.handler handler = _ from BitVec.zero_add _]
        rfl

end MonolithicKernel.Interrupts
