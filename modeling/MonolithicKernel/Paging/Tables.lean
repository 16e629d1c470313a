import MonolithicKernel.Foundation.PageWalk
import MonolithicKernel.Foundation.Runs
import MonolithicKernel.Screen.Video

/-!
Owns the paging structures as the C code writes them: the packed entries of
`x86_desc.h`, `paging_init`, `set_paging_for_process`, the stores of
`switch_terminal` into the page table, and the machine whose steps are these,
stores of user programs and of the kernel, and whatever the processor remembers.

The tables are bytes of the same physical memory that everything else is in.
Does not own what the mappings are good for.
-/

namespace MonolithicKernel.Paging

open MonolithicKernel.Foundation
open PageWalk WordRanges X86
open Machine (storeWord)
open MonolithicKernel.Process (Pid Terminal)
open MonolithicKernel.Screen (videoMemIndex)

/-! ### `x86_desc.h` -/

/-- `page_directory_entry_4kb`, from bit 0 on. -/
def pageDirectoryEntry4kb : List Nat := [1, 1, 1, 1, 1, 1, 1, 1, 4, 20]

namespace PageDirectoryEntry4kb

def present : Field 32 := .member pageDirectoryEntry4kb 0 (by decide)
def readWrite : Field 32 := .member pageDirectoryEntry4kb 1 (by decide)
def userSupervisor : Field 32 := .member pageDirectoryEntry4kb 2 (by decide)
def address_31_12 : Field 32 := .member pageDirectoryEntry4kb 9 (by decide)

end PageDirectoryEntry4kb

/-- `page_directory_entry_4mb`, from bit 0 on. -/
def pageDirectoryEntry4mb : List Nat := [1, 1, 1, 1, 1, 1, 1, 1, 1, 3, 1, 8, 1, 10]

namespace PageDirectoryEntry4mb

def present : Field 32 := .member pageDirectoryEntry4mb 0 (by decide)
def readWrite : Field 32 := .member pageDirectoryEntry4mb 1 (by decide)
def userSupervisor : Field 32 := .member pageDirectoryEntry4mb 2 (by decide)
def pageSize : Field 32 := .member pageDirectoryEntry4mb 7 (by decide)
def address_31_22 : Field 32 := .member pageDirectoryEntry4mb 13 (by decide)

end PageDirectoryEntry4mb

/-- `page_table_entry`, from bit 0 on. -/
def pageTableEntry : List Nat := [1, 1, 1, 1, 1, 1, 1, 1, 1, 3, 20]

namespace PageTableEntry

def present : Field 32 := .member pageTableEntry 0 (by decide)
def readWrite : Field 32 := .member pageTableEntry 1 (by decide)
def userSupervisor : Field 32 := .member pageTableEntry 2 (by decide)
def addressLow : Field 32 := .member pageTableEntry 10 (by decide)

end PageTableEntry

/-- Where the linker puts `page_directory` and `page_table`: at two pages of
the kernel's 4 MB, which starts at 0x400000. -/
structure Layout where
  pageDirectory : BitVec 20
  pageTable : BitVec 20
  apart : pageDirectory ≠ pageTable
  directoryInKernel : directoryIndex pageDirectory = 1
  tableInKernel : directoryIndex pageTable = 1

/-- Assign fields of one entry of a table. -/
def updateEntry (table : BitVec 20) (index : Nat) (update : Word → Word) (memory : Memory) :
    Memory :=
  let address := entryAddress table (BitVec.ofNat 10 index)
  storeWord address (update (loadWord memory address)) memory

/-! ### `paging_init` -/

/-- One round of the loop of `paging_init`. -/
def initEntry (layout : Layout) (memory : Memory) (index : Nat) : Memory :=
  updateEntry layout.pageTable index
    (fun _ => PageTableEntry.readWrite.assign 1 (PageTableEntry.addressLow.assign index 0)) memory

/-- The assignments of `paging_init` to an entry for user programs. -/
def mapForUser (address : Nat) (entry : Word) : Word :=
  PageTableEntry.present.assign 1
    (PageTableEntry.userSupervisor.assign 1 (PageTableEntry.addressLow.assign address entry))

/-- The assignments of `paging_init` to `page_table`. -/
def initTable (layout : Layout) (memory : Memory) : Memory :=
  let memory := (List.range 1024).foldl (initEntry layout) memory
  let memory := updateEntry layout.pageTable videoMemIndex
    (fun entry => PageTableEntry.present.assign 1 (PageTableEntry.userSupervisor.assign 0 entry))
    memory
  let memory := updateEntry layout.pageTable (videoMemIndex + 1) (mapForUser videoMemIndex) memory
  let memory :=
    updateEntry layout.pageTable (videoMemIndex + 2) (mapForUser (videoMemIndex + 2)) memory
  let memory :=
    updateEntry layout.pageTable (videoMemIndex + 3) (mapForUser (videoMemIndex + 3)) memory
  updateEntry layout.pageTable (videoMemIndex + 4)
    (fun entry => PageTableEntry.present.assign 1
      (PageTableEntry.userSupervisor.assign 0
        (PageTableEntry.addressLow.assign (videoMemIndex + 1) entry))) memory

/-- The assignments of `paging_init` to `page_directory`. The entry for user
programs is the only one that is not zeroed first. -/
def initDirectory (layout : Layout) (memory : Memory) : Memory :=
  let memory := updateEntry layout.pageDirectory 0
    (fun _ =>
      let entry := PageDirectoryEntry4kb.address_31_12.assign layout.pageTable.toNat 0
      let entry := PageDirectoryEntry4kb.present.assign 1 entry
      let entry := PageDirectoryEntry4kb.userSupervisor.assign 1 entry
      PageDirectoryEntry4kb.readWrite.assign 1 entry) memory
  let memory := updateEntry layout.pageDirectory 1
    (fun _ =>
      let entry := PageDirectoryEntry4mb.address_31_22.assign 1 0
      let entry := PageDirectoryEntry4mb.pageSize.assign 1 entry
      PageDirectoryEntry4mb.present.assign 1 entry) memory
  updateEntry layout.pageDirectory 32
    (fun entry =>
      let entry := PageDirectoryEntry4mb.address_31_22.assign 0xFF entry
      let entry := PageDirectoryEntry4mb.pageSize.assign 1 entry
      let entry := PageDirectoryEntry4mb.present.assign 1 entry
      let entry := PageDirectoryEntry4mb.readWrite.assign 1 entry
      PageDirectoryEntry4mb.userSupervisor.assign 1 entry) memory

/-- `paging_init`: the tables, and CR3. CR0.WP stays as it was. -/
def pagingInit (layout : Layout) (writeProtect : Bool) (memory : Memory) : Mmu where
  memory := initDirectory layout (initTable layout memory)
  directory := layout.pageDirectory
  writeProtect := writeProtect
  cache := fun _ => none

/-! ### Later changes -/

/-- `set_paging_for_process`, with its `flush_tlb`. -/
def setPagingForProcess (layout : Layout) (pid : Pid) (mmu : Mmu) : Mmu :=
  { mmu with
    memory := updateEntry layout.pageDirectory 32
      (PageDirectoryEntry4mb.address_31_22.assign (2 + pid.val)) mmu.memory }.flush

/-- The stores of `switch_terminal` into the page table, with its `flush_tlb`. -/
def remap (layout : Layout) (current termId : Terminal) (mmu : Mmu) : Mmu :=
  let memory := updateEntry layout.pageTable (videoMemIndex + 1 + current.val)
    (PageTableEntry.addressLow.assign (videoMemIndex + 1 + current.val)) mmu.memory
  let memory := updateEntry layout.pageTable (videoMemIndex + 1 + termId.val)
    (PageTableEntry.addressLow.assign videoMemIndex) memory
  let memory := updateEntry layout.pageTable (videoMemIndex + 4)
    (PageTableEntry.addressLow.assign (videoMemIndex + 1 + termId.val)) memory
  { mmu with memory := memory }.flush

/-! ### The machine -/

structure PagedKernel where
  mmu : Mmu
  currentTerminal : Terminal

inductive Op
  | setPagingForProcess (pid : Pid)
  | switchTerminal (termId : Terminal)
  /-- The processor uses a page, for whatever program. -/
  | touch (page : BitVec 20) (write : Bool)
  /-- A user program stores a byte. -/
  | userStore (address : Word) (byte : Byte)
  /-- The kernel stores a byte elsewhere than in the tables. -/
  | kernelStore (physical : Word) (byte : Byte)
  /-- The kernel stores a byte through a pointer, elsewhere than in the tables. -/
  | pointerStore (address : Word) (byte : Byte)

/-- A byte of memory changes, unless it is one of the tables. -/
def storeOutside (layout : Layout) (kernel : PagedKernel) (physical : Word) (byte : Byte) :
    Option PagedKernel :=
  if pageOf physical = layout.pageDirectory ∨ pageOf physical = layout.pageTable then none
  else some { kernel with mmu.memory := Function.update kernel.mmu.memory physical byte }

/-- A store that the tables do not permit is a page fault, and the machine stays there. -/
def step (layout : Layout) : Step PagedKernel Op
  | kernel, .setPagingForProcess pid =>
      some { kernel with mmu := setPagingForProcess layout pid kernel.mmu }
  | kernel, .switchTerminal termId =>
      some (if termId = kernel.currentTerminal then kernel
        else ⟨remap layout kernel.currentTerminal termId kernel.mmu, termId⟩)
  | kernel, .touch page write => some { kernel with mmu := kernel.mmu.touch page write }
  | kernel, .userStore address byte =>
      (kernel.mmu.translate ⟨true, true⟩ address).map fun physical =>
        { kernel with mmu.memory := Function.update kernel.mmu.memory physical byte }
  | kernel, .kernelStore physical byte => storeOutside layout kernel physical byte
  | kernel, .pointerStore address byte =>
      (kernel.mmu.translate ⟨false, true⟩ address).bind fun physical =>
        storeOutside layout kernel physical byte

theorem storeOutside_eq_some {layout : Layout} {kernel next : PagedKernel} {physical : Word}
    {byte : Byte} (stored : storeOutside layout kernel physical byte = some next) :
    (pageOf physical ≠ layout.pageDirectory ∧ pageOf physical ≠ layout.pageTable) ∧
      next = { kernel with mmu.memory := Function.update kernel.mmu.memory physical byte } := by
  unfold storeOutside at stored
  split_ifs at stored with inTables
  cases stored
  exact ⟨not_or.mp inTables, rfl⟩

/-- The kernel behind `paging_init`. -/
def start (layout : Layout) (writeProtect : Bool) (memory : Memory) : PagedKernel :=
  ⟨pagingInit layout writeProtect memory, 0⟩

/-- Statics start as zero: the directory before `paging_init`. -/
def Cleared (layout : Layout) (memory : Memory) : Prop :=
  ∀ index, loadWord memory (entryAddress layout.pageDirectory index) = 0

end MonolithicKernel.Paging
