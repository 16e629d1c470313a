import MonolithicKernel.Paging.Tables

/-!
Owns what the paging structures map, in every state that the kernel can reach:
the mapping of each page as a function of the process that was set up last and of
the terminal on display. The tables keep saying so whatever user programs
store, because no page that a user program can reach holds a table, and no
mapping that the processor remembers is out of date.

Does not own the walk itself.
-/

namespace MonolithicKernel.Paging

open MonolithicKernel.Foundation
open PageWalk WordRanges X86
open Machine (storeWord)
open MonolithicKernel.Process (Pid Terminal)
open MonolithicKernel.Screen (videoMemIndex terminalPage)

/-! ### The mapping of each page -/

/-- What decides the mappings: the process that paging was last set up for, and
the terminal on display. -/
structure View where
  owner : Option Pid
  terminal : Terminal
deriving DecidableEq, Repr

def View.step (view : View) : Op → View
  | .setPagingForProcess pid => { view with owner := some pid }
  | .switchTerminal termId => { view with terminal := termId }
  | _ => view

/-- The view that a list of operations leaves. -/
def viewOf (ops : List Op) : View := ops.foldl View.step ⟨none, 0⟩

/-- The 4 MB frame of user programs: 8 MB and up, or where `paging_init` points. -/
def userFrame : Option Pid → BitVec 10
  | none => 0xFF
  | some pid => BitVec.ofNat 10 (2 + pid.val)

/-- The page behind the screen of a terminal: video memory for the one on display. -/
def screenFrame (current terminal : Terminal) : BitVec 20 :=
  if terminal = current then BitVec.ofNat 20 videoMemIndex else BitVec.ofNat 20 (terminalPage terminal)

def expectedTable (current : Terminal) (index : BitVec 10) : Option Mapping :=
  if index = BitVec.ofNat 10 videoMemIndex then some ⟨BitVec.ofNat 20 videoMemIndex, false, true⟩
  else if index = BitVec.ofNat 10 (videoMemIndex + 1) then some ⟨screenFrame current 0, true, true⟩
  else if index = BitVec.ofNat 10 (videoMemIndex + 2) then some ⟨screenFrame current 1, true, true⟩
  else if index = BitVec.ofNat 10 (videoMemIndex + 3) then some ⟨screenFrame current 2, true, true⟩
  else if index = BitVec.ofNat 10 (videoMemIndex + 4) then
    some ⟨BitVec.ofNat 20 (terminalPage current), false, true⟩
  else none

def expectedDirectory (layout : Layout) (owner : Option Pid) (index : BitVec 10) : Directory :=
  if index = 0#10 then .table layout.pageTable true true
  else if index = 1#10 then .large 1 false false
  else if index = 32#10 then .large (userFrame owner) true true
  else .absent

/-- The mapping of a page. -/
def expected (view : View) (page : BitVec 20) : Option Mapping :=
  if directoryIndex page = 0#10 then expectedTable view.terminal (tableIndex page)
  else if directoryIndex page = 1#10 then some ⟨1#10 ++ tableIndex page, false, false⟩
  else if directoryIndex page = 32#10 then some ⟨userFrame view.owner ++ tableIndex page, true, true⟩
  else none

/-! ### The packed structure of a directory entry

It has its members where the processor looks for them. -/

namespace PageDirectoryEntry4kb

theorem present_eq : present = PageWalk.present := rfl
theorem readWrite_eq : readWrite = PageWalk.readWrite := rfl
theorem userSupervisor_eq : userSupervisor = userMode := rfl
theorem address_31_12_eq : address_31_12 = smallFrame := rfl

end PageDirectoryEntry4kb

/-! ### Entries of a table -/

theorem entries_updateEntry (table : BitVec 20) (index : Nat) (update : Word → Word)
    (memory : Memory) :
    entries table (updateEntry table index update memory) =
      Function.update (entries table memory) (BitVec.ofNat 10 index)
        (update (entries table memory (BitVec.ofNat 10 index))) := by
  funext other
  by_cases here : other = BitVec.ofNat 10 index
  · subst other
    rw [Function.update_self]
    exact loadWord_storeWord ..
  · rw [Function.update_of_ne here]
    apply loadWord_storeWord_of_apart
    exact entriesApart fun same => here (Prod.ext_iff.mp same).2

theorem entries_updateEntry_of_ne {table other : BitVec 20} (ne : other ≠ table) (index : Nat)
    (update : Word → Word) (memory : Memory) :
    entries other (updateEntry table index update memory) = entries other memory := by
  funext index'
  apply loadWord_storeWord_of_apart
  exact entriesApart fun same => ne (Prod.ext_iff.mp same).1

/-! ### `paging_init` -/

theorem entries_initLoop (layout : Layout) (memory : Memory) {count : Nat} (inTable : count ≤ 1024) :
    entries layout.pageTable ((List.range count).foldl (initEntry layout) memory) = fun index =>
      if index.toNat < count then
        PageTableEntry.readWrite.assign 1 (PageTableEntry.addressLow.assign index.toNat 0)
      else entries layout.pageTable memory index := by
  induction count with
  | zero =>
      funext index
      rw [if_neg (Nat.not_lt_zero _)]
      rfl
  | succ count inductionHypothesis =>
      rw [List.range_succ, List.foldl_append, List.foldl_cons, List.foldl_nil, initEntry,
        entries_updateEntry, inductionHypothesis (by omega)]
      funext index
      have number : (BitVec.ofNat 10 count).toNat = count := by
        rw [BitVec.toNat_ofNat, Nat.mod_eq_of_lt (by omega)]
      by_cases here : index = BitVec.ofNat 10 count
      · subst index
        rw [Function.update_self, number, if_pos (by omega)]
      · have ne : index.toNat ≠ count := fun same => here (BitVec.eq_of_toNat_eq (by omega))
        rw [Function.update_of_ne here]
        simp only [show index.toNat < count + 1 ↔ index.toNat < count by omega]

/-- The word that the loop leaves in an entry maps nothing. -/
theorem tableEntry_initial (address : Nat) :
    tableEntry (PageTableEntry.readWrite.assign 1 (PageTableEntry.addressLow.assign address 0)) =
      none := by
  have absent : present.get (PageTableEntry.readWrite.assign 1
      (PageTableEntry.addressLow.assign address 0)) = 0 := by
    rw [Field.get_assign_of_apart (by decide : present.Apart PageTableEntry.readWrite),
      Field.get_assign_of_apart (by decide : present.Apart PageTableEntry.addressLow),
      Field.get_zero]
  rw [tableEntry, if_pos absent]

/-- `paging_init` leaves the table for terminal 0. -/
theorem tableEntry_initTable (layout : Layout) (memory : Memory) (index : BitVec 10) :
    tableEntry (entries layout.pageTable (initTable layout memory) index) =
      expectedTable 0 index := by
  have loop : entries layout.pageTable ((List.range 1024).foldl (initEntry layout) memory) =
      fun index =>
        PageTableEntry.readWrite.assign 1 (PageTableEntry.addressLow.assign index.toNat 0) := by
    rw [entries_initLoop layout memory (Nat.le_refl 1024)]
    funext index
    exact if_pos index.isLt
  unfold initTable
  rw [entries_updateEntry, entries_updateEntry, entries_updateEntry, entries_updateEntry,
    entries_updateEntry, loop]
  by_cases kernel : index = BitVec.ofNat 10 videoMemIndex
  · subst index
    decide
  by_cases first : index = BitVec.ofNat 10 (videoMemIndex + 1)
  · subst index
    decide
  by_cases second : index = BitVec.ofNat 10 (videoMemIndex + 2)
  · subst index
    decide
  by_cases third : index = BitVec.ofNat 10 (videoMemIndex + 3)
  · subst index
    decide
  by_cases saved : index = BitVec.ofNat 10 (videoMemIndex + 4)
  · subst index
    decide
  rw [Function.update_of_ne saved, Function.update_of_ne third, Function.update_of_ne second,
    Function.update_of_ne first, Function.update_of_ne kernel, tableEntry_initial, expectedTable,
    if_neg kernel, if_neg first, if_neg second, if_neg third, if_neg saved]

/-- The entry that `paging_init` makes for the first 4 MB. -/
theorem directoryEntry_first (table : BitVec 20) :
    directoryEntry (PageDirectoryEntry4kb.readWrite.assign 1
      (PageDirectoryEntry4kb.userSupervisor.assign 1 (PageDirectoryEntry4kb.present.assign 1
        (PageDirectoryEntry4kb.address_31_12.assign table.toNat 0)))) =
      .table table true true := by
  rw [PageDirectoryEntry4kb.present_eq, PageDirectoryEntry4kb.readWrite_eq,
    PageDirectoryEntry4kb.userSupervisor_eq, PageDirectoryEntry4kb.address_31_12_eq]
  simp (disch := decide) only [directoryEntry, Field.get_assign_of_apart, Field.get_assign,
    Field.get_zero]
  rw [if_neg (by decide), if_pos trivial, BitVec.ofNat_toNat, BitVec.setWidth_eq]
  rfl

/-- `paging_init` leaves the directory as expected when its words start as zero. -/
theorem directoryEntry_initDirectory {layout : Layout} {memory : Memory}
    (cleared : ∀ index, entries layout.pageDirectory memory index = 0) (index : BitVec 10) :
    directoryEntry (entries layout.pageDirectory (initDirectory layout memory) index) =
      expectedDirectory layout none index := by
  unfold initDirectory
  rw [entries_updateEntry, entries_updateEntry, entries_updateEntry]
  by_cases first : index = 0#10
  · subst index
    rw [Function.update_of_ne (by decide), Function.update_of_ne (by decide), Function.update_self]
    exact directoryEntry_first layout.pageTable
  by_cases second : index = 1#10
  · subst index
    rw [Function.update_of_ne (by decide), Function.update_self, expectedDirectory, if_neg first,
      if_pos rfl]
    decide
  by_cases user : index = 32#10
  · subst index
    rw [Function.update_self, Function.update_of_ne (by decide), Function.update_of_ne (by decide),
      cleared, expectedDirectory, if_neg first, if_neg second, if_pos rfl]
    decide
  rw [Function.update_of_ne user, Function.update_of_ne second, Function.update_of_ne first,
    cleared, expectedDirectory, if_neg first, if_neg second, if_neg user]
  decide

/-! ### The tables, and the machine around them -/

/-- The tables in memory say what the view expects. -/
structure Tables (layout : Layout) (view : View) (memory : Memory) : Prop where
  directory : ∀ index, directoryEntry (entries layout.pageDirectory memory index) =
    expectedDirectory layout view.owner index
  table : ∀ index, tableEntry (entries layout.pageTable memory index) =
    expectedTable view.terminal index

theorem Tables.walk {layout : Layout} {view : View} {memory : Memory}
    (tables : Tables layout view memory) (page : BitVec 20) :
    PageWalk.walk memory layout.pageDirectory page = expected view page := by
  have directory := tables.directory (directoryIndex page)
  unfold entries at directory
  rw [PageWalk.walk, directory, expectedDirectory, expected]
  split_ifs with low kernel user
  · have table := tables.table (tableIndex page)
    unfold entries at table
    rw [walkTable, table]
    cases expectedTable view.terminal (tableIndex page) <;> rfl
  · rfl
  · rfl
  · rfl

/-- The assignments to `page_table` leave the directory alone. -/
theorem directory_initTable (layout : Layout) (memory : Memory) :
    entries layout.pageDirectory (initTable layout memory) =
      entries layout.pageDirectory memory := by
  have loop (rounds : List Nat) : ∀ memory,
      entries layout.pageDirectory (rounds.foldl (initEntry layout) memory) =
        entries layout.pageDirectory memory := by
    induction rounds with
    | nil => exact fun _ => rfl
    | cons index rounds inductionHypothesis =>
        intro memory
        rw [List.foldl_cons, inductionHypothesis, initEntry,
          entries_updateEntry_of_ne layout.apart]
  unfold initTable
  rw [entries_updateEntry_of_ne layout.apart, entries_updateEntry_of_ne layout.apart,
    entries_updateEntry_of_ne layout.apart, entries_updateEntry_of_ne layout.apart,
    entries_updateEntry_of_ne layout.apart, loop]

theorem tables_pagingInit {layout : Layout} {memory : Memory} (cleared : Cleared layout memory) :
    Tables layout ⟨none, 0⟩ (initDirectory layout (initTable layout memory)) where
  directory := by
    apply directoryEntry_initDirectory
    intro index
    rw [directory_initTable]
    exact cleared index
  table index := by
    unfold initDirectory
    rw [entries_updateEntry_of_ne layout.apart.symm, entries_updateEntry_of_ne layout.apart.symm,
      entries_updateEntry_of_ne layout.apart.symm]
    exact tableEntry_initTable layout memory index

/-- `set_paging_for_process` moves the frame of user programs, and nothing else. -/
theorem Tables.setPagingForProcess {layout : Layout} {view : View} {mmu : Mmu}
    (tables : Tables layout view mmu.memory) (pid : Pid) :
    Tables layout { view with owner := some pid } (setPagingForProcess layout pid mmu).memory where
  directory index := by
    have before := tables.directory index
    change directoryEntry (entries layout.pageDirectory (updateEntry _ _ _ mmu.memory) index) = _
    rw [entries_updateEntry]
    by_cases user : index = 32#10
    · subst index
      rw [Function.update_self]
      exact directoryEntry_setLargeFrame before _
    · rw [Function.update_of_ne user, before, expectedDirectory, expectedDirectory, if_neg user,
        if_neg user]
  table index := by
    change tableEntry (entries layout.pageTable (updateEntry _ _ _ mmu.memory) index) = _
    rw [entries_updateEntry_of_ne layout.apart.symm]
    exact tables.table index

/-- Another frame for one entry. -/
def readdress (index address : Nat) (table : BitVec 10 → Option Mapping) :
    BitVec 10 → Option Mapping :=
  Function.update table (BitVec.ofNat 10 index)
    ((table (BitVec.ofNat 10 index)).map fun mapping =>
      { mapping with frame := BitVec.ofNat 20 address })

theorem tableEntry_updateEntry {table : BitVec 20} {memory : Memory}
    {mappings : BitVec 10 → Option Mapping}
    (before : ∀ index, tableEntry (entries table memory index) = mappings index)
    (index address : Nat) (other : BitVec 10) :
    tableEntry (entries table
        (updateEntry table index (PageTableEntry.addressLow.assign address) memory) other) =
      readdress index address mappings other := by
  rw [entries_updateEntry, readdress]
  by_cases here : other = BitVec.ofNat 10 index
  · subst other
    rw [Function.update_self, Function.update_self, ← before]
    exact tableEntry_setFrame ..
  · rw [Function.update_of_ne here, Function.update_of_ne here, before]

theorem readdress_of_ne {index address : Nat} {other : BitVec 10}
    (ne : other ≠ BitVec.ofNat 10 index) (table : BitVec 10 → Option Mapping) :
    readdress index address table other = table other :=
  Function.update_of_ne ne ..

/-- The three new addresses take the table for one terminal to the table for another. -/
theorem readdress_expectedTable (current termId : Terminal) (index : BitVec 10) :
    readdress (videoMemIndex + 4) (videoMemIndex + 1 + termId.val)
        (readdress (videoMemIndex + 1 + termId.val) videoMemIndex
          (readdress (videoMemIndex + 1 + current.val) (videoMemIndex + 1 + current.val)
            (expectedTable current))) index =
      expectedTable termId index := by
  by_cases first : index = BitVec.ofNat 10 (videoMemIndex + 1)
  · subst index
    revert current termId
    decide
  by_cases second : index = BitVec.ofNat 10 (videoMemIndex + 2)
  · subst index
    revert current termId
    decide
  by_cases third : index = BitVec.ofNat 10 (videoMemIndex + 3)
  · subst index
    revert current termId
    decide
  by_cases saved : index = BitVec.ofNat 10 (videoMemIndex + 4)
  · subst index
    revert current termId
    decide
  have missed (terminal : Terminal) :
      index ≠ BitVec.ofNat 10 (videoMemIndex + 1 + terminal.val) := by
    fin_cases terminal
    · exact first
    · exact second
    · exact third
  rw [readdress_of_ne saved, readdress_of_ne (missed termId), readdress_of_ne (missed current),
    expectedTable, expectedTable, if_neg first, if_neg second, if_neg third, if_neg saved,
    if_neg first, if_neg second, if_neg third, if_neg saved]

/-- The stores of `switch_terminal`: the terminal that leaves the display gets its own
page, the other gets video memory. -/
theorem Tables.remap {layout : Layout} {view : View} {mmu : Mmu}
    (tables : Tables layout view mmu.memory) (termId : Terminal) :
    Tables layout { view with terminal := termId }
      (remap layout view.terminal termId mmu).memory where
  directory index := by
    change directoryEntry (entries layout.pageDirectory
      (updateEntry _ _ _ (updateEntry _ _ _ (updateEntry _ _ _ mmu.memory))) index) = _
    rw [entries_updateEntry_of_ne layout.apart, entries_updateEntry_of_ne layout.apart,
      entries_updateEntry_of_ne layout.apart]
    exact tables.directory index
  table index := by
    have left := tableEntry_updateEntry tables.table (videoMemIndex + 1 + view.terminal.val)
      (videoMemIndex + 1 + view.terminal.val)
    have shown := tableEntry_updateEntry left (videoMemIndex + 1 + termId.val) videoMemIndex
    have saved := tableEntry_updateEntry shown (videoMemIndex + 4) (videoMemIndex + 1 + termId.val)
    exact (saved index).trans (readdress_expectedTable view.terminal termId index)

/-- The tables survive a store outside their two pages. -/
theorem Tables.store {layout : Layout} {view : View} {memory : Memory}
    (tables : Tables layout view memory) {target : Word}
    (notDirectory : pageOf target ≠ layout.pageDirectory) (notTable : pageOf target ≠ layout.pageTable)
    (byte : Byte) : Tables layout view (Function.update memory target byte) where
  directory index := by
    rw [entries_update_of_pageOf_ne notDirectory]
    exact tables.directory index
  table index := by
    rw [entries_update_of_pageOf_ne notTable]
    exact tables.table index

theorem Tables.of_sameEntries {layout : Layout} {view : View} {memory memory' : Memory}
    (tables : Tables layout view memory) (same : SameEntries memory memory') :
    Tables layout view memory' where
  directory index := (same layout.pageDirectory index).1.trans (tables.directory index)
  table index := (same layout.pageTable index).2.trans (tables.table index)

/-- The machine is as the view says. -/
structure Represents (layout : Layout) (view : View) (kernel : PagedKernel) : Prop where
  currentTerminal : kernel.currentTerminal = view.terminal
  directory : kernel.mmu.directory = layout.pageDirectory
  tables : Tables layout view kernel.mmu.memory
  coherent : kernel.mmu.Coherent

namespace Represents

variable {layout : Layout} {view : View} {kernel : PagedKernel}

theorem walk (represents : Represents layout view kernel) (page : BitVec 20) :
    kernel.mmu.walk page = expected view page := by
  rw [Mmu.walk, represents.directory]
  exact represents.tables.walk page

/-- Every access, remembered or not, goes where the view says. -/
theorem lookup (represents : Represents layout view kernel) (page : BitVec 20) :
    kernel.mmu.lookup page = expected view page :=
  (represents.coherent.lookup page).trans (represents.walk page)

/-- A page that user programs may write is open to every access. -/
theorem translate_of_open (represents : Represents layout view kernel) {access : Access}
    {address : Word} {frame : BitVec 20}
    (mapped : expected view (pageOf address) = some ⟨frame, true, true⟩) :
    kernel.mmu.translate access address = some (Mapping.physical ⟨frame, true, true⟩ address) := by
  rw [Mmu.translate, represents.lookup, mapped, Option.bind_some]
  exact if_pos ⟨fun _ => rfl, fun _ _ => rfl⟩

/-- A change of memory that leaves the tables as the view expects them. -/
theorem withMemory (represents : Represents layout view kernel) {memory : Memory}
    (tables : Tables layout view memory) :
    Represents layout view { kernel with mmu.memory := memory } where
  currentTerminal := represents.currentTerminal
  directory := represents.directory
  tables := tables
  coherent := by
    intro page mapping remembered
    have before := represents.coherent page mapping remembered
    rw [represents.walk] at before
    rw [Mmu.walk, represents.directory, tables.walk]
    exact before

end Represents

/-! ### What user programs reach -/

/-- Below the kernel, user programs have the three text screens. -/
theorem expectedTable_user {current : Terminal} {index : BitVec 10} {mapping : Mapping}
    (mapped : expectedTable current index = some mapping) (user : mapping.user = true) :
    ∃ terminal, index = BitVec.ofNat 10 (terminalPage terminal) ∧
      mapping = ⟨screenFrame current terminal, true, true⟩ := by
  unfold expectedTable at mapped
  split_ifs at mapped with kernel first second third saved
  · cases mapped
    cases user
  · exact ⟨0, first, (Option.some.inj mapped).symm⟩
  · exact ⟨1, second, (Option.some.inj mapped).symm⟩
  · exact ⟨2, third, (Option.some.inj mapped).symm⟩
  · cases mapped
    cases user

theorem directoryIndex_screenFrame (current terminal : Terminal) :
    directoryIndex (screenFrame current terminal) = 0 := by
  revert current terminal
  decide

theorem userFrame_ne_kernel (owner : Option Pid) : userFrame owner ≠ 1 := by
  revert owner
  decide

/-- Pages of user programs are not in the kernel's 4 MB. -/
theorem directoryIndex_of_user {view : View} {page : BitVec 20} {mapping : Mapping}
    (mapped : expected view page = some mapping) (user : mapping.user = true) :
    directoryIndex mapping.frame ≠ 1 := by
  unfold expected at mapped
  split_ifs at mapped with low kernel above
  · obtain ⟨terminal, -, rfl⟩ := expectedTable_user mapped user
    rw [directoryIndex_screenFrame]
    decide
  · cases mapped
    cases user
  · cases mapped
    rw [directoryIndex_append]
    exact userFrame_ne_kernel view.owner

theorem Represents.translate_user {layout : Layout} {view : View} {kernel : PagedKernel}
    (represents : Represents layout view kernel) {access : Access} (user : access.user = true)
    {address physical : Word} (reached : kernel.mmu.translate access address = some physical) :
    ∃ mapping, expected view (pageOf address) = some mapping ∧ mapping.user = true ∧
      physical = mapping.physical address := by
  unfold Mmu.translate at reached
  rw [represents.lookup] at reached
  obtain ⟨mapping, mapped, permitted⟩ := Option.bind_eq_some_iff.mp reached
  split_ifs at permitted with permits
  exact ⟨mapping, mapped, permits.1 user, (Option.some.inj permitted).symm⟩

/-! ### Runs -/

theorem represents_start {layout : Layout} {memory : Memory} (cleared : Cleared layout memory)
    (writeProtect : Bool) :
    Represents layout ⟨none, 0⟩ (start layout writeProtect memory) where
  currentTerminal := rfl
  directory := rfl
  tables := tables_pagingInit cleared
  coherent := by
    intro page mapping remembered
    cases remembered

/-- One operation takes the view along. -/
theorem Represents.step {layout : Layout} {view : View} {kernel next : PagedKernel} {op : Op}
    (represents : Represents layout view kernel) (taken : step layout kernel op = some next) :
    Represents layout (view.step op) next := by
  cases op with
  | setPagingForProcess pid =>
      cases taken
      exact ⟨represents.currentTerminal, represents.directory,
        represents.tables.setPagingForProcess pid, Mmu.coherent_flush _⟩
  | switchTerminal termId =>
      have current := represents.currentTerminal
      cases taken
      by_cases same : termId = kernel.currentTerminal
      · rw [if_pos same]
        have unchanged : view.step (.switchTerminal termId) = view := by
          rw [View.step, same, current]
        rw [unchanged]
        exact represents
      · rw [if_neg same, current]
        exact ⟨rfl, represents.directory, represents.tables.remap termId, Mmu.coherent_flush _⟩
  | touch page write =>
      cases taken
      exact ⟨represents.currentTerminal, represents.directory,
        represents.tables.of_sameEntries (sameEntries_mark _ page write _), represents.coherent.touch page write⟩
  | userStore address byte =>
      obtain ⟨physical, reached, rfl⟩ := Option.map_eq_some_iff.mp taken
      obtain ⟨mapping, mapped, user, rfl⟩ := represents.translate_user rfl reached
      have elsewhere := directoryIndex_of_user mapped user
      apply represents.withMemory
      apply represents.tables.store
      · rw [pageOf_physical]
        intro same
        exact elsewhere (same ▸ layout.directoryInKernel)
      · rw [pageOf_physical]
        intro same
        exact elsewhere (same ▸ layout.tableInKernel)
  | kernelStore physical byte =>
      obtain ⟨⟨notDirectory, notTable⟩, rfl⟩ := storeOutside_eq_some taken
      exact represents.withMemory (represents.tables.store notDirectory notTable byte)
  | pointerStore address byte =>
      obtain ⟨physical, -, stored⟩ := Option.bind_eq_some_iff.mp taken
      obtain ⟨⟨notDirectory, notTable⟩, rfl⟩ := storeOutside_eq_some stored
      exact represents.withMemory (represents.tables.store notDirectory notTable byte)

theorem Represents.run {layout : Layout} {view : View} {kernel final : PagedKernel} {ops : List Op}
    (represents : Represents layout view kernel)
    (ran : Step.run (Paging.step layout) kernel ops = some final) :
    Represents layout (ops.foldl View.step view) final := by
  induction ops generalizing view kernel with
  | nil =>
      cases ran
      exact represents
  | cons op ops inductionHypothesis =>
      obtain ⟨next, taken, rest⟩ := (Step.run_cons_eq_some _).mp ran
      exact inductionHypothesis (represents.step taken) rest

/-- **The mappings of every run.** Whatever processes are set up, whatever terminals are
put on display and whatever is stored, each page is mapped as the view of the run says. -/
theorem mappings_of_run {layout : Layout} {memory : Memory} (cleared : Cleared layout memory)
    (writeProtect : Bool) (ops : List Op) {final : PagedKernel}
    (ran : Step.run (step layout) (start layout writeProtect memory) ops = some final)
    (page : BitVec 20) : final.mmu.lookup page = expected (viewOf ops) page :=
  ((represents_start cleared writeProtect).run ran).lookup page

/-- Two pages near the start of the kernel. -/
def sampleLayout : Layout := ⟨0x40A, 0x40B, by decide, by decide, by decide⟩

theorem cleared_zero (layout : Layout) : Cleared layout fun _ => 0 := by
  intro index
  show (0 : Byte) ++ (0 : Byte) ++ (0 : Byte) ++ (0 : Byte) = (0 : Word)
  decide

/-- A process is set up and stores, the kernel stores for it and for itself, and another
terminal comes on display. -/
theorem mappings_of_switch :
    ∃ final, Step.run (step sampleLayout) (start sampleLayout false fun _ => 0)
        [.setPagingForProcess 2, .touch 0x08000 true, .userStore 0x08000010 7,
          .pointerStore 0x08000020 8, .kernelStore 0x500000 9, .switchTerminal 1] = some final ∧
      ∀ page, final.mmu.lookup page = expected ⟨some 2, 1⟩ page := by
  have cleared := cleared_zero sampleLayout
  have setUp : ∃ touched, Step.run (step sampleLayout) (start sampleLayout false fun _ => 0)
      [.setPagingForProcess 2, .touch 0x08000 true] = some touched := ⟨_, rfl⟩
  obtain ⟨touched, ranTouch⟩ := setUp
  have represents : Represents sampleLayout ⟨some 2, 0⟩ touched :=
    (represents_start cleared false).run ranTouch
  have mapped : expected ⟨some 2, 0⟩ (pageOf 0x08000010) = some ⟨0x01000, true, true⟩ := by decide
  have user : touched.mmu.translate ⟨true, true⟩ 0x08000010 = some 0x1000010 :=
    represents.translate_of_open mapped
  obtain ⟨stored, ranStore⟩ : ∃ stored,
      Step.run (step sampleLayout) touched [.userStore 0x08000010 7] = some stored := by
    rw [Step.run_cons, step, user]
    exact ⟨_, rfl⟩
  have pointer : stored.mmu.translate ⟨false, true⟩ 0x08000020 = some 0x1000020 :=
    (represents.run ranStore).translate_of_open
      (show expected _ (pageOf 0x08000020) = _ from mapped)
  obtain ⟨final, ranRest⟩ : ∃ final, Step.run (step sampleLayout) stored
      [.pointerStore 0x08000020 8, .kernelStore 0x500000 9, .switchTerminal 1] = some final := by
    rw [Step.run_cons, step, pointer]
    exact ⟨_, rfl⟩
  have ran : Step.run (step sampleLayout) (start sampleLayout false fun _ => 0)
      ([.setPagingForProcess 2, .touch 0x08000 true] ++ ([.userStore 0x08000010 7] ++
        [.pointerStore 0x08000020 8, .kernelStore 0x500000 9, .switchTerminal 1])) =
          some final := by
    rw [Step.run_append, ranTouch, Option.bind_some, Step.run_append, ranStore, Option.bind_some,
      ranRest]
  exact ⟨final, ran, fun page => mappings_of_run cleared false _ ran page⟩

end MonolithicKernel.Paging
