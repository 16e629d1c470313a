import MonolithicKernel.Process.Kernel

/-!
Owns the system calls that store through a pointer of the caller: `read` on a
file, a directory or the terminal, `getargs` and `vidmap`. For each of them it
says exactly on which pointers the call checks its pointer: only `vidmap` has a
range check, and its upper bound stops at the first megabyte of the user page.

The user page is the one page that `page_directory[32]` maps. Does not own what
the calls return on pointers they accept, nor pointers the kernel loads through.
-/

namespace MonolithicKernel.Syscall

open MonolithicKernel.FileSystem
open MonolithicKernel.Lib

/-- The addresses that `page_directory[32]` translates. -/
def inUserPage (address : Nat) : Prop := address / 2 ^ 22 = 32

instance decidableInUserPage (address : Nat) : Decidable (inUserPage address) :=
  inferInstanceAs (Decidable (_ = _))

/-- The `length` bytes from `address` on lie in the user page. -/
def RangeInside (address length : Nat) : Prop :=
  ∀ i < length, inUserPage ((address + i) % 2 ^ 32)

instance decidableRangeInside (address length : Nat) : Decidable (RangeInside address length) :=
  inferInstanceAs (Decidable (∀ i < length, inUserPage ((address + i) % 2 ^ 32)))

/-- The addresses that the kernel can store to outside its own page: the pages of the text
screens and the user page. -/
def Storable (address : Nat) : Prop :=
  (0xB8 ≤ address / 2 ^ 12 ∧ address / 2 ^ 12 ≤ 0xBC) ∨ inUserPage address

instance decidableStorable (address : Nat) : Decidable (Storable address) :=
  inferInstanceAs (Decidable (_ ∨ _))

/-- A value passed as `uint32_t`. -/
def uint32 (n : Int) : Nat := (n % 2 ^ 32).toNat

/-- What the calls find when they run: the image, the displayed line, the
caller's descriptors, the memory from its `pcb->args` on, and its terminal. -/
structure Caller where
  image : Image
  line : TerminalLine
  fds : FdTable
  args : Bytes
  terminalId : Fin 3

/-- `getargs_handler`: what it returns and the bytes it stores from the buffer
on. The comparison with `strlen` is unsigned. -/
def getargsHandler (caller : Caller) (buf : Nat) (nbytes : Int) : Int × Bytes :=
  if uint32 nbytes ≤ strlen caller.args ∨ buf = 0 then (-1, [])
  else (0, strncpy caller.args (uint32 nbytes))

/-- The four bytes of a 32-bit word. -/
def bytesOfWord (word : Nat) : Bytes :=
  [.ofNat word, .ofNat (word / 256), .ofNat (word / 65536), .ofNat (word / 16777216)]

/-- `vidmap_handler`. -/
def vidmapHandler (caller : Caller) (screenStart : Nat) : Int × Bytes :=
  if screenStart = 0 ∨ screenStart < 0x08000000 ∨ screenStart > 0x080FFFFF then (-1, [])
  else (0, bytesOfWord (4096 * (0xB8 + 1 + caller.terminalId.val)))

/-- The calls that store through a pointer, without the pointer. -/
inductive StoringCall where
  | read (fd nbytes : Int) (small : nbytes < 2 ^ 31)
  | getargs (nbytes : Int)
  | vidmap

namespace StoringCall

/-- The number of bytes that the caller offers from its pointer on. -/
def range : StoringCall → Nat
  | read _ nbytes _ => nbytes.toNat
  | getargs nbytes => uint32 nbytes
  | vidmap => 4

/-- The call with a pointer: what it returns and the bytes it stores from the
pointer on. -/
def serve (caller : Caller) : StoringCall → UInt32 → Option (Int × Bytes)
  | read fd nbytes _, pointer =>
      (readHandler caller.image caller.line caller.fds fd pointer.toNat nbytes).map fun result =>
        (result.ret, result.stored)
  | getargs nbytes, pointer => some (getargsHandler caller pointer.toNat nbytes)
  | vidmap, pointer => some (vidmapHandler caller pointer.toNat)

/-- The call reaches one of the five store paths or no driver at all. -/
def Stores (caller : Caller) : StoringCall → Prop
  | read fd _ _ => ∀ slot, checkValidFd caller.fds fd = some slot →
      (caller.fds slot).fileTablePtr = some .file ∨
      (caller.fds slot).fileTablePtr = some .directory ∨
      (caller.fds slot).fileTablePtr = some .terminal
  | getargs _ => True
  | vidmap => True

end StoringCall

/-- The call treats `pointer` as validation demands: what it stores lies in the
user page; it fails without storing when the range does not lie there; and when
the range does, it fails only if every other pointer with a range in the user
page fails too. -/
def Validates (serve : UInt32 → Option (Int × Bytes)) (range : Nat) (pointer : UInt32) : Prop :=
  ∀ ret stored, serve pointer = some (ret, stored) →
    RangeInside pointer.toNat stored.length ∧
    (¬ RangeInside pointer.toNat range → ret = -1 ∧ stored = []) ∧
    (RangeInside pointer.toNat range → ret = -1 → ∀ other ret' stored',
      RangeInside other.toNat range → serve other = some (ret', stored') → ret' = -1)

/-! ### Ranges -/

theorem rangeInside_zero (address : Nat) : RangeInside address 0 :=
  fun _ negative => absurd negative (Nat.not_lt_zero _)

theorem RangeInside.mono {address short long : Nat} (le : short ≤ long)
    (inside : RangeInside address long) : RangeInside address short :=
  fun i bound => inside i (bound.trans_le le)

/-- A range that does not wrap at 32 bits lies in the user page when its ends do. -/
theorem rangeInside_iff {address length : Nat} (small : address < 2 ^ 32) (nonempty : 0 < length) :
    RangeInside address length ↔ 0x08000000 ≤ address ∧ address + length ≤ 0x08400000 := by
  unfold RangeInside inUserPage
  constructor
  · intro inside
    have start := inside 0 nonempty
    refine ⟨by omega, ?_⟩
    by_contra beyond
    have first := inside (0x08400000 - address) (by omega)
    omega
  · rintro ⟨low, high⟩ i bound
    omega

theorem not_rangeInside_null {length : Nat} (nonempty : 0 < length) : ¬ RangeInside 0 length := by
  rw [rangeInside_iff (by omega) nonempty]
  omega

/-! ### Calls with and without a check -/

/-- A call that fails whatever its pointer, or that is offered nothing and
stores nothing, has nothing to check. -/
theorem validates_of_uniform {serve : UInt32 → Option (Int × Bytes)} {range : Nat} {ret : Int}
    (uniform : ∀ pointer, serve pointer = some (ret, [])) (harmless : ret = -1 ∨ range = 0)
    (pointer : UInt32) : Validates serve range pointer := by
  intro ret' stored' served
  cases (uniform pointer).symm.trans served
  refine ⟨rangeInside_zero _, fun outside => ?_, fun _ failed other ret' stored' _ served' => ?_⟩
  · rcases harmless with failed | empty
    · exact ⟨failed, rfl⟩
    · rw [empty] at outside
      exact absurd (rangeInside_zero _) outside
  · cases (uniform other).symm.trans served'
    exact failed

/-- A call that refuses the null pointer only, and serves any other, validates
exactly the null pointer and the pointers whose range lies in the user page. -/
theorem validates_iff_of_unchecked {serve : UInt32 → Option (Int × Bytes)} {range : Nat}
    (nonempty : 0 < range) (null : serve 0 = some (-1, []))
    (served : ∀ pointer, pointer.toNat ≠ 0 →
      ∃ ret stored, serve pointer = some (ret, stored) ∧ ret ≠ -1 ∧ stored.length ≤ range)
    (pointer : UInt32) :
    Validates serve range pointer ↔ pointer.toNat = 0 ∨ RangeInside pointer.toNat range := by
  by_cases isNull : pointer.toNat = 0
  · obtain rfl : pointer = 0 := UInt32.toNat.inj isNull
    refine ⟨fun _ => .inl isNull, fun _ ret stored other => ?_⟩
    cases null.symm.trans other
    exact ⟨rangeInside_zero _, fun _ => ⟨rfl, rfl⟩,
      fun inside => absurd inside (not_rangeInside_null nonempty)⟩
  · obtain ⟨ret, stored, found, accepted, short⟩ := served pointer isNull
    constructor
    · intro validates
      refine .inr (not_not.mp fun outside => ?_)
      exact accepted ((validates ret stored found).2.1 outside).1
    · rintro (isNull' | inside)
      · exact absurd isNull' isNull
      · intro ret' stored' found'
        cases found.symm.trans found'
        exact ⟨inside.mono short, fun outside => absurd inside outside,
          fun _ failed => absurd failed accepted⟩

/-! ### The five store paths -/

/-- A read that fails, or moves nothing, whatever its pointer. -/
def HarmlessRead (caller : Caller) (fd nbytes : Int) : Prop :=
  nbytes ≤ 0 ∨
    match checkValidFd caller.fds fd with
    | none => True
    | some slot =>
        match (caller.fds slot).fileTablePtr with
        | some .directory => 63 ≤ (caller.fds slot).filePos
        | some .terminal => fd ≠ 0
        | _ => False

/-- The pointers on which a call behaves as validation demands. -/
def StoringCall.SafeAt (caller : Caller) (pointer : UInt32) : StoringCall → Prop
  | read fd nbytes _ => HarmlessRead caller fd nbytes ∨ pointer.toNat = 0 ∨
      RangeInside pointer.toNat nbytes.toNat
  | getargs nbytes => uint32 nbytes ≤ strlen caller.args ∨ pointer.toNat = 0 ∨
      RangeInside pointer.toNat (uint32 nbytes)
  | vidmap => pointer.toNat ≤ 0x080FFFFF ∨ 0x083FFFFC < pointer.toNat

section Reads

theorem natCast_ne_neg_one (n : Nat) : (n : Int) ≠ -1 := by omega

variable {caller : Caller} {fd nbytes : Int} {small : nbytes < 2 ^ 31} {slot : Fin 8}

theorem serve_file (small : nbytes < 2 ^ 31) (valid : checkValidFd caller.fds fd = some slot)
    (table : (caller.fds slot).fileTablePtr = some .file) (pointer : UInt32) :
    (StoringCall.read fd nbytes small).serve caller pointer =
      some ((fileRead caller.image caller.fds fd pointer.toNat nbytes).ret,
        (fileRead caller.image caller.fds fd pointer.toNat nbytes).stored) := by
  simp [StoringCall.serve, readHandler, valid, table]

theorem serve_directory (small : nbytes < 2 ^ 31) (valid : checkValidFd caller.fds fd = some slot)
    (table : (caller.fds slot).fileTablePtr = some .directory) (pointer : UInt32) :
    (StoringCall.read fd nbytes small).serve caller pointer =
      some ((directoryRead caller.image caller.fds fd pointer.toNat nbytes).ret,
        (directoryRead caller.image caller.fds fd pointer.toNat nbytes).stored) := by
  simp [StoringCall.serve, readHandler, valid, table]

theorem serve_terminal (small : nbytes < 2 ^ 31) (valid : checkValidFd caller.fds fd = some slot)
    (table : (caller.fds slot).fileTablePtr = some .terminal) (pointer : UInt32) :
    (StoringCall.read fd nbytes small).serve caller pointer =
      some ((terminalRead caller.line caller.fds fd pointer.toNat nbytes).ret,
        (terminalRead caller.line caller.fds fd pointer.toNat nbytes).stored) := by
  simp [StoringCall.serve, readHandler, valid, table]

theorem validates_file (valid : checkValidFd caller.fds fd = some slot)
    (table : (caller.fds slot).fileTablePtr = some .file) (pointer : UInt32) :
    Validates ((StoringCall.read fd nbytes small).serve caller) nbytes.toNat pointer ↔
      nbytes ≤ 0 ∨ pointer.toNat = 0 ∨ RangeInside pointer.toNat nbytes.toNat := by
  have served := serve_file small valid table
  by_cases negative : nbytes ≤ 0
  · refine iff_of_true (validates_of_uniform (fun pointer => ?_) (.inl rfl) pointer) (.inl negative)
    rw [served, fileRead_of_refused (.inr negative)]
  · rw [validates_iff_of_unchecked (by omega)]
    · simp [negative]
    · rw [served, fileRead_of_refused (.inl UInt32.toNat_zero)]
    · intro pointer nonNull
      rw [served, fileRead_of_accepted _ valid nonNull (by omega)]
      exact ⟨_, _, rfl, natCast_ne_neg_one _, length_readData_le _ _ (by omega)⟩

theorem validates_directory (valid : checkValidFd caller.fds fd = some slot)
    (table : (caller.fds slot).fileTablePtr = some .directory) (pointer : UInt32) :
    Validates ((StoringCall.read fd nbytes small).serve caller) nbytes.toNat pointer ↔
      (nbytes ≤ 0 ∨ 63 ≤ (caller.fds slot).filePos) ∨ pointer.toNat = 0 ∨
        RangeInside pointer.toNat nbytes.toNat := by
  have served := serve_directory small valid table
  by_cases past : 63 ≤ (caller.fds slot).filePos
  · refine iff_of_true (validates_of_uniform (fun pointer => ?_) (.inl rfl) pointer)
      (.inl (.inr past))
    rw [served, directoryRead, valid]
    simp [readDentryByIndex, past]
  have inDirectory := readDentryByIndex_eq caller.image (not_le.mp past)
  by_cases negative : nbytes < 0
  · refine iff_of_true (validates_of_uniform (fun pointer => ?_) (.inl rfl) pointer)
      (.inl (.inl negative.le))
    rw [served, directoryRead, valid]
    simp [inDirectory, negative]
  by_cases empty : nbytes = 0
  · have nothing : ∀ pointer,
        (StoringCall.read fd nbytes small).serve caller pointer = some (0, []) := by
      intro pointer
      rw [served, directoryRead, valid]
      simp [inDirectory, empty]
    have noRange : nbytes.toNat = 0 := by simp [empty]
    exact iff_of_true (validates_of_uniform nothing (.inr noRange) pointer) (.inl (.inl empty.le))
  · rw [validates_iff_of_unchecked (by omega)]
    · simp [past, show ¬ nbytes ≤ 0 by omega]
    · rw [served, directoryRead, valid]
      simp [inDirectory, empty]
    · intro pointer nonNull
      rw [served, directoryRead, valid]
      dsimp only
      rw [inDirectory]
      dsimp only
      rw [if_neg (by simp [nonNull]), if_neg negative]
      refine ⟨_, _, rfl, natCast_ne_neg_one _, ?_⟩
      rw [List.length_take]
      split_ifs <;> omega

theorem validates_terminal (valid : checkValidFd caller.fds fd = some slot)
    (table : (caller.fds slot).fileTablePtr = some .terminal) (pointer : UInt32) :
    Validates ((StoringCall.read fd nbytes small).serve caller) nbytes.toNat pointer ↔
      (nbytes ≤ 0 ∨ fd ≠ 0) ∨ pointer.toNat = 0 ∨ RangeInside pointer.toNat nbytes.toNat := by
  have served := serve_terminal small valid table
  by_cases other : fd ≠ 0
  · refine iff_of_true (validates_of_uniform (fun pointer => ?_) (.inl rfl) pointer)
      (.inl (.inr other))
    rw [served, terminalRead, if_pos other]
  by_cases negative : nbytes < 0
  · refine iff_of_true (validates_of_uniform (fun pointer => ?_) (.inl rfl) pointer)
      (.inl (.inl negative.le))
    rw [served, terminalRead]
    simp [negative]
  by_cases empty : nbytes = 0
  · have nothing : ∀ pointer,
        (StoringCall.read fd nbytes small).serve caller pointer = some (0, []) := by
      intro pointer
      rw [served, terminalRead]
      simp [empty, other]
    have noRange : nbytes.toNat = 0 := by simp [empty]
    exact iff_of_true (validates_of_uniform nothing (.inr noRange) pointer) (.inl (.inl empty.le))
  · rw [validates_iff_of_unchecked (by omega)]
    · simp [other, show ¬ nbytes ≤ 0 by omega]
    · rw [served, terminalRead]
      simp [empty]
    · intro pointer nonNull
      rw [served, terminalRead]
      rw [if_neg other, if_neg (by simp [nonNull]), if_neg negative]
      refine ⟨_, _, rfl, natCast_ne_neg_one _, ?_⟩
      rw [List.length_map, List.length_range]
      split_ifs <;> omega

end Reads

theorem validates_getargs (caller : Caller) (nbytes : Int) (pointer : UInt32) :
    Validates ((StoringCall.getargs nbytes).serve caller) (uint32 nbytes) pointer ↔
      uint32 nbytes ≤ strlen caller.args ∨ pointer.toNat = 0 ∨
        RangeInside pointer.toNat (uint32 nbytes) := by
  by_cases short : uint32 nbytes ≤ strlen caller.args
  · refine iff_of_true (validates_of_uniform (fun pointer => ?_) (.inl rfl) pointer) (.inl short)
    rw [StoringCall.serve, getargsHandler, if_pos (.inl short)]
  · rw [validates_iff_of_unchecked (by omega)]
    · simp [short]
    · rw [StoringCall.serve, getargsHandler, if_pos (.inr rfl)]
    · intro pointer nonNull
      rw [StoringCall.serve, getargsHandler, if_neg (by simp [short, nonNull])]
      exact ⟨_, _, rfl, by decide, (length_strncpy _ _).le⟩

/-- `vidmap` refuses every pointer from the second megabyte of the user page on,
and takes every one before it. -/
theorem validates_vidmap (caller : Caller) (pointer : UInt32) :
    Validates (StoringCall.vidmap.serve caller) 4 pointer ↔
      pointer.toNat ≤ 0x080FFFFF ∨ 0x083FFFFC < pointer.toNat := by
  have bound := pointer.toNat_lt
  have inside := rangeInside_iff bound (show 0 < 4 by omega)
  by_cases accepted : 0x08000000 ≤ pointer.toNat ∧ pointer.toNat ≤ 0x080FFFFF
  · have served : StoringCall.vidmap.serve caller pointer =
        some (0, bytesOfWord (4096 * (0xB8 + 1 + caller.terminalId.val))) := by
      rw [StoringCall.serve, vidmapHandler, if_neg (by omega)]
    refine iff_of_true (fun ret stored found => ?_) (.inl accepted.2)
    cases served.symm.trans found
    have within := inside.mpr (by omega)
    exact ⟨within, fun outside => absurd within outside, fun _ failed => by cases failed⟩
  · have served : StoringCall.vidmap.serve caller pointer = some (-1, []) := by
      rw [StoringCall.serve, vidmapHandler, if_pos (by omega)]
    constructor
    · intro validates
      by_contra refused
      -- The first word of the user page is accepted, so the pointer alone makes the call fail.
      have start : StoringCall.vidmap.serve caller 0x08000000 =
          some (0, bytesOfWord (4096 * (0xB8 + 1 + caller.terminalId.val))) := by
        rw [StoringCall.serve, vidmapHandler, if_neg (by decide)]
      have startInside : RangeInside (0x08000000 : UInt32).toNat 4 :=
        (rangeInside_iff (by decide) (by omega)).mpr (by decide)
      have fails := (validates _ _ served).2.2 (inside.mpr (by omega)) rfl _ _ _ startInside start
      cases fails
    · intro allowed ret stored found
      cases served.symm.trans found
      have outside : ¬ RangeInside pointer.toNat 4 := by
        rw [inside]
        omega
      exact ⟨rangeInside_zero _, fun _ => ⟨rfl, rfl⟩, fun within => absurd within outside⟩

/-- **Pointer validation, exactly.** A call that stores through its pointer
validates it exactly on the pointers `SafeAt` describes. -/
theorem validates_iff_safeAt {caller : Caller} {call : StoringCall} (storing : call.Stores caller)
    (pointer : UInt32) :
    Validates (call.serve caller) call.range pointer ↔ call.SafeAt caller pointer := by
  cases call with
  | getargs nbytes => exact validates_getargs caller nbytes pointer
  | vidmap => exact validates_vidmap caller pointer
  | read fd nbytes small =>
      show Validates _ nbytes.toNat pointer ↔
        HarmlessRead caller fd nbytes ∨ pointer.toNat = 0 ∨ RangeInside pointer.toNat nbytes.toNat
      cases valid : checkValidFd caller.fds fd with
      | none =>
          have harmless : HarmlessRead caller fd nbytes := by
            rw [HarmlessRead, valid]
            exact .inr trivial
          refine iff_of_true (validates_of_uniform (fun pointer => ?_) (.inl rfl) pointer)
            (.inl harmless)
          rw [StoringCall.serve, readHandler, valid, Option.map_some]
      | some slot =>
          rcases storing slot valid with table | table | table
          · have harmless : HarmlessRead caller fd nbytes ↔ nbytes ≤ 0 := by
              rw [HarmlessRead, valid]
              simp [table]
            rw [harmless]
            exact validates_file valid table pointer
          · have harmless : HarmlessRead caller fd nbytes ↔
                nbytes ≤ 0 ∨ 63 ≤ (caller.fds slot).filePos := by
              rw [HarmlessRead, valid]
              simp [table]
            rw [harmless]
            exact validates_directory valid table pointer
          · have harmless : HarmlessRead caller fd nbytes ↔ nbytes ≤ 0 ∨ fd ≠ 0 := by
              rw [HarmlessRead, valid]
              simp [table]
            rw [harmless]
            exact validates_terminal valid table pointer

/-- A process that has only its terminal open, and no arguments. -/
def newCaller : Caller :=
  ⟨⟨fun _ => 0⟩, ⟨fun _ => 0, 1⟩,
    fun slot => if slot < 2 then ⟨some .terminal, terminalInode, 0, 0⟩ else ⟨none, freeInode, 0, 0⟩,
    [0], 0⟩

/-- A line read to a buffer at the top of the stack is safe. -/
theorem validates_terminalRead_stack :
    Validates ((StoringCall.read 0 128 (by decide)).serve newCaller) 128 0x083FFF00 := by
  refine (validates_iff_safeAt ?_ 0x083FFF00).mpr (.inr (.inr ?_))
  · intro slot valid
    exact .inr (.inr (by revert valid; revert slot; decide))
  · exact (rangeInside_iff (by decide) (by decide)).mpr (by decide)

/-- `vidmap` refuses a variable on the stack that `process_start` sets up, and a
terminal read stores wherever it is told to. -/
theorem not_forall_validates :
    ¬ Validates (StoringCall.vidmap.serve newCaller) 4 0x083FFFF0 ∧
    ¬ Validates ((StoringCall.read 0 128 (by decide)).serve newCaller) 128 0x00400000 := by
  constructor
  · intro validates
    have failed := (validates (-1) [] (by decide)).2.2
      ((rangeInside_iff (by decide) (by decide)).mpr (by decide)) rfl 0x08000000 0
      (bytesOfWord 0xB9000) ((rangeInside_iff (by decide) (by decide)).mpr (by decide)) (by decide)
    cases failed
  · intro validates
    have inside := (validates 1 [0] (by decide)).1 0 (by decide)
    revert inside
    unfold inUserPage
    decide

end MonolithicKernel.Syscall
