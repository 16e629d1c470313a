import MonolithicKernel.Foundation.BitFields
import MonolithicKernel.Foundation.WordMemory

/-!
Owns address translation of 32-bit x86 with two levels of tables in memory and
large pages: the bits of an entry, the walk from a page to its mapping, which
accesses a mapping permits, the translation cache, and the accessed and dirty
bits that the processor writes into the tables.

Does not own any particular tables. A large page above 4 GB counts as absent.
-/

namespace MonolithicKernel.Foundation.PageWalk

open WordRanges X86
open Machine (storeWord)

/-! ### Entries -/

abbrev present : Field 32 := ⟨0, 1, by decide⟩
abbrev readWrite : Field 32 := ⟨1, 1, by decide⟩
abbrev userMode : Field 32 := ⟨2, 1, by decide⟩
abbrev accessed : Field 32 := ⟨5, 1, by decide⟩
abbrev dirty : Field 32 := ⟨6, 1, by decide⟩
abbrev pageSize : Field 32 := ⟨7, 1, by decide⟩
/-- Bits 39 to 32 of the address of a large page, and a reserved bit. -/
abbrev highAddress : Field 32 := ⟨13, 9, by decide⟩
abbrev smallFrame : Field 32 := ⟨12, 20, by decide⟩
abbrev largeFrame : Field 32 := ⟨22, 10, by decide⟩

/-- Where a page of 4 KB is in memory, and who may use it. -/
structure Mapping where
  frame : BitVec 20
  user : Bool
  writable : Bool
deriving DecidableEq, Repr

/-- What the first level says about 4 MB of addresses. -/
inductive Directory
  | absent
  | large (frame : BitVec 10) (user writable : Bool)
  | table (frame : BitVec 20) (user writable : Bool)
deriving DecidableEq, Repr

def directoryEntry (entry : Word) : Directory :=
  if present.get entry = 0 then .absent
  else if pageSize.get entry = 0 then
    .table (smallFrame.get entry) (userMode.get entry = 1) (readWrite.get entry = 1)
  else if highAddress.get entry = 0 then
    .large (largeFrame.get entry) (userMode.get entry = 1) (readWrite.get entry = 1)
  else .absent

def tableEntry (entry : Word) : Option Mapping :=
  if present.get entry = 0 then none
  else some ⟨smallFrame.get entry, userMode.get entry = 1, readWrite.get entry = 1⟩

theorem directoryEntry_setLargeFrame {entry : Word} {frame : BitVec 10} {user writable : Bool}
    (large : directoryEntry entry = .large frame user writable) (value : BitVec 10) :
    directoryEntry (largeFrame.set value entry) = .large value user writable := by
  unfold directoryEntry at large ⊢
  rw [Field.get_set_of_apart (by decide : present.Apart largeFrame),
    Field.get_set_of_apart (by decide : pageSize.Apart largeFrame),
    Field.get_set_of_apart (by decide : highAddress.Apart largeFrame),
    Field.get_set_of_apart (by decide : userMode.Apart largeFrame),
    Field.get_set_of_apart (by decide : readWrite.Apart largeFrame), Field.get_set]
  split_ifs at large ⊢ with absent small low
  rw [Directory.large.injEq] at large ⊢
  exact ⟨rfl, large.2⟩

theorem tableEntry_setFrame (entry : Word) (value : BitVec 20) :
    tableEntry (smallFrame.set value entry) =
      (tableEntry entry).map fun mapping => { mapping with frame := value } := by
  unfold tableEntry
  rw [Field.get_set_of_apart (by decide : present.Apart smallFrame),
    Field.get_set_of_apart (by decide : userMode.Apart smallFrame),
    Field.get_set_of_apart (by decide : readWrite.Apart smallFrame), Field.get_set]
  split_ifs <;> rfl

/-! ### The walk -/

/-- The word of the entry of that index in the table at that page. -/
def entryAddress (table : BitVec 20) (index : BitVec 10) : Word := table ++ index ++ 0#2

/-- Which entry of the directory a page belongs to, and where in its 4 MB it is. -/
def directoryIndex (page : BitVec 20) : BitVec 10 := page.extractLsb' 10 10

def tableIndex (page : BitVec 20) : BitVec 10 := page.extractLsb' 0 10

/-- What the second level says about a page below a directory entry. -/
def walkTable (memory : Memory) (page : BitVec 20) : Directory → Option Mapping
  | .absent => none
  | .large frame user writable => some ⟨frame ++ tableIndex page, user, writable⟩
  | .table frame user writable =>
      (tableEntry (loadWord memory (entryAddress frame (tableIndex page)))).map fun mapping =>
        { mapping with user := user && mapping.user, writable := writable && mapping.writable }

/-- The mapping of a page, with the directory at that page of memory. -/
def walk (memory : Memory) (directory page : BitVec 20) : Option Mapping :=
  walkTable memory page
    (directoryEntry (loadWord memory (entryAddress directory (directoryIndex page))))

/-- An access from user mode or not, to write or not. -/
structure Access where
  user : Bool
  write : Bool
deriving DecidableEq

/-- Supervisor writes ignore read-only pages unless `writeProtect` is set. -/
def Mapping.Permits (mapping : Mapping) (writeProtect : Bool) (access : Access) : Prop :=
  (access.user = true → mapping.user = true) ∧
    (access.write = true → (access.user || writeProtect) = true → mapping.writable = true)

instance decidablePermits (mapping : Mapping) (writeProtect : Bool) (access : Access) :
    Decidable (mapping.Permits writeProtect access) :=
  inferInstanceAs (Decidable (_ ∧ _))

def pageOf (address : Word) : BitVec 20 := address.extractLsb' 12 20

/-- The physical address of a virtual one inside the mapped page. -/
def Mapping.physical (mapping : Mapping) (address : Word) : Word :=
  mapping.frame ++ address.extractLsb' 0 12

/-! ### Addresses of entries -/

theorem toNat_append_eq {m n : Nat} (high : BitVec m) (low : BitVec n) :
    (high ++ low).toNat = high.toNat * 2 ^ n + low.toNat := by
  rw [BitVec.toNat_append, ← Nat.shiftLeft_add_eq_or_of_lt low.isLt, Nat.shiftLeft_eq]

theorem toNat_entryAddress (table : BitVec 20) (index : BitVec 10) :
    (entryAddress table index).toNat = table.toNat * 4096 + index.toNat * 4 := by
  unfold entryAddress
  rw [toNat_append_eq, toNat_append_eq]
  simp only [BitVec.toNat_ofNat]
  omega

/-- The upper bits of a word put together from two. -/
theorem extractLsb'_append_high {m n : Nat} (high : BitVec m) (low : BitVec n) :
    (high ++ low).extractLsb' n m = high := by
  apply BitVec.eq_of_toNat_eq
  have bound := high.isLt
  rw [BitVec.extractLsb'_toNat, toNat_append_eq, Nat.shiftRight_eq_div_pow,
    Nat.mul_comm, Nat.mul_add_div (Nat.two_pow_pos n), Nat.div_eq_of_lt low.isLt, Nat.add_zero,
    Nat.mod_eq_of_lt bound]

theorem toNat_pageOf (address : Word) : (pageOf address).toNat = address.toNat / 4096 := by
  unfold pageOf
  rw [BitVec.extractLsb'_toNat, Nat.shiftRight_eq_div_pow]
  omega

theorem toNat_directoryIndex (page : BitVec 20) : (directoryIndex page).toNat = page.toNat / 1024 := by
  unfold directoryIndex
  rw [BitVec.extractLsb'_toNat, Nat.shiftRight_eq_div_pow]
  omega

theorem toNat_tableIndex (page : BitVec 20) : (tableIndex page).toNat = page.toNat % 1024 := by
  unfold tableIndex
  rw [BitVec.extractLsb'_toNat, Nat.shiftRight_zero]

theorem toNat_physical (mapping : Mapping) (address : Word) :
    (mapping.physical address).toNat = mapping.frame.toNat * 4096 + address.toNat % 4096 := by
  unfold Mapping.physical
  rw [toNat_append_eq, BitVec.extractLsb'_toNat, Nat.shiftRight_zero]
  rfl

theorem directoryIndex_append (frame index : BitVec 10) : directoryIndex (frame ++ index) = frame :=
  extractLsb'_append_high frame index

theorem pageOf_physical (mapping : Mapping) (address : Word) :
    pageOf (mapping.physical address) = mapping.frame :=
  extractLsb'_append_high mapping.frame _

theorem entryAddress_injective {table other : BitVec 20} {index index' : BitVec 10}
    (same : entryAddress table index = entryAddress other index') :
    table = other ∧ index = index' := by
  have numbers := congrArg BitVec.toNat same
  rw [toNat_entryAddress, toNat_entryAddress] at numbers
  exact ⟨BitVec.eq_of_toNat_eq (by omega), BitVec.eq_of_toNat_eq (by omega)⟩

/-- Different entries share no byte. -/
theorem entriesApart {table other : BitVec 20} {index index' : BitVec 10}
    (ne : (table, index) ≠ (other, index')) :
    WordsApart (entryAddress table index) (entryAddress other index') := by
  apply wordsApart_of_aligned
  · rw [toNat_entryAddress]
    omega
  · rw [toNat_entryAddress]
    omega
  · intro same
    obtain ⟨rfl, rfl⟩ := entryAddress_injective same
    exact ne rfl

/-- The words of a table. -/
def entries (table : BitVec 20) (memory : Memory) : BitVec 10 → Word := fun index =>
  loadWord memory (entryAddress table index)

/-- The bytes of an entry are in the page of its table. -/
theorem pageOf_of_inside {table : BitVec 20} {index : BitVec 10} {target : Word}
    (inside : (target - entryAddress table index).toNat < 4) : pageOf target = table := by
  apply BitVec.eq_of_toNat_eq
  have start := toNat_entryAddress table index
  have offset : target.toNat = (entryAddress table index).toNat +
      (target - entryAddress table index).toNat := by
    have bound := index.isLt
    have bound' := table.isLt
    bv_omega
  rw [toNat_pageOf]
  omega

/-- A store into another page leaves the words of a table alone. -/
theorem entries_update_of_pageOf_ne {table : BitVec 20} {target : Word} (ne : pageOf target ≠ table)
    (byte : Byte) (memory : Memory) :
    entries table (Function.update memory target byte) = entries table memory := by
  funext index
  apply loadWord_update_of_outside
  by_contra inside
  exact ne (pageOf_of_inside (Nat.lt_of_not_le inside))

/-- A word of a table is nowhere but in its page. -/
theorem storeWord_of_pageOf_ne {table : BitVec 20} {target : Word} (ne : pageOf target ≠ table)
    (index : BitVec 10) (value : Word) (memory : Memory) :
    storeWord (entryAddress table index) value memory target = memory target := by
  apply storeWord_of_outside
  by_contra inside
  exact ne (pageOf_of_inside (Nat.lt_of_not_le inside))

/-! ### Accessed and dirty bits -/

/-- Every word that can be an entry says the same in both memories. -/
def SameEntries (memory memory' : Memory) : Prop :=
  ∀ table index,
    directoryEntry (loadWord memory' (entryAddress table index)) =
        directoryEntry (loadWord memory (entryAddress table index)) ∧
      tableEntry (loadWord memory' (entryAddress table index)) =
        tableEntry (loadWord memory (entryAddress table index))

theorem SameEntries.refl (memory : Memory) : SameEntries memory memory := fun _ _ => ⟨rfl, rfl⟩

theorem SameEntries.trans {memory memory' memory'' : Memory} (first : SameEntries memory memory')
    (second : SameEntries memory' memory'') : SameEntries memory memory'' := fun table index =>
  ⟨(second table index).1.trans (first table index).1,
    (second table index).2.trans (first table index).2⟩

theorem walk_of_sameEntries {memory memory' : Memory} (same : SameEntries memory memory')
    (directory page : BitVec 20) : walk memory' directory page = walk memory directory page := by
  unfold walk
  rw [(same directory (directoryIndex page)).1]
  cases directoryEntry (loadWord memory (entryAddress directory (directoryIndex page))) with
  | absent => rfl
  | large frame user writable => rfl
  | table frame user writable => rw [walkTable, walkTable, (same frame (tableIndex page)).2]

/-- The processor sets a flag of an entry. -/
def setFlag (flag : Field 32) (address : Word) (memory : Memory) : Memory :=
  storeWord address (flag.assign 1 (loadWord memory address)) memory

/-- A flag that no part of a mapping is read from. -/
structure Bookkeeping (flag : Field 32) : Prop where
  present : present.Apart flag
  readWrite : readWrite.Apart flag
  userMode : userMode.Apart flag
  pageSize : pageSize.Apart flag
  highAddress : highAddress.Apart flag
  smallFrame : smallFrame.Apart flag
  largeFrame : largeFrame.Apart flag

theorem bookkeeping_accessed : Bookkeeping accessed := by constructor <;> decide

theorem bookkeeping_dirty : Bookkeeping dirty := by constructor <;> decide

theorem sameEntries_setFlag {flag : Field 32} (bookkeeping : Bookkeeping flag)
    (table : BitVec 20) (index : BitVec 10) (memory : Memory) :
    SameEntries memory (setFlag flag (entryAddress table index) memory) := by
  intro other index'
  unfold setFlag
  by_cases here : (other, index') = (table, index)
  · cases here
    rw [loadWord_storeWord]
    unfold directoryEntry tableEntry
    rw [Field.get_assign_of_apart bookkeeping.present, Field.get_assign_of_apart bookkeeping.readWrite,
      Field.get_assign_of_apart bookkeeping.userMode, Field.get_assign_of_apart bookkeeping.pageSize,
      Field.get_assign_of_apart bookkeeping.highAddress,
      Field.get_assign_of_apart bookkeeping.smallFrame,
      Field.get_assign_of_apart bookkeeping.largeFrame]
    exact ⟨rfl, rfl⟩
  · rw [loadWord_storeWord_of_apart (entriesApart here)]
    exact ⟨rfl, rfl⟩

/-- The flags of one entry after an access: the last entry of a walk is dirty
after a write. -/
def markEntry (table : BitVec 20) (index : BitVec 10) (written : Bool) (memory : Memory) : Memory :=
  let memory := setFlag accessed (entryAddress table index) memory
  if written then setFlag dirty (entryAddress table index) memory else memory

/-- What the processor writes into the tables when it uses them. -/
def mark (directory page : BitVec 20) (write : Bool) (memory : Memory) : Memory :=
  match directoryEntry (loadWord memory (entryAddress directory (directoryIndex page))) with
  | .absent => memory
  | .large _ _ _ => markEntry directory (directoryIndex page) write memory
  | .table frame _ _ =>
      markEntry frame (tableIndex page) write
        (markEntry directory (directoryIndex page) false memory)

theorem sameEntries_markEntry (table : BitVec 20) (index : BitVec 10) (written : Bool)
    (memory : Memory) : SameEntries memory (markEntry table index written memory) := by
  have used := sameEntries_setFlag bookkeeping_accessed table index memory
  unfold markEntry
  cases written with
  | false => exact used
  | true => exact used.trans (sameEntries_setFlag bookkeeping_dirty table index _)

theorem sameEntries_mark (directory page : BitVec 20) (write : Bool) (memory : Memory) :
    SameEntries memory (mark directory page write memory) := by
  unfold mark
  cases directoryEntry (loadWord memory (entryAddress directory (directoryIndex page))) with
  | absent => exact .refl memory
  | large frame user writable => exact sameEntries_markEntry directory _ write memory
  | table frame user writable =>
      have first := sameEntries_markEntry directory (directoryIndex page) false memory
      exact first.trans (sameEntries_markEntry frame (tableIndex page) write _)

/-- Flags are written into tables only. -/
theorem mark_of_pageOf_ne {directory page : BitVec 20} {memory : Memory} {target : Word}
    (notDirectory : pageOf target ≠ directory)
    (notTable : ∀ frame user writable,
      directoryEntry (entries directory memory (directoryIndex page)) = .table frame user writable →
        pageOf target ≠ frame) (write : Bool) :
    mark directory page write memory target = memory target := by
  have entry {table : BitVec 20} (ne : pageOf target ≠ table) (index : BitVec 10) (written : Bool)
      (memory : Memory) : markEntry table index written memory target = memory target := by
    cases written with
    | false => exact storeWord_of_pageOf_ne ne ..
    | true => exact (storeWord_of_pageOf_ne ne ..).trans (storeWord_of_pageOf_ne ne ..)
  unfold mark
  unfold entries at notTable
  cases kind : directoryEntry (loadWord memory (entryAddress directory (directoryIndex page))) with
  | absent => rfl
  | large frame user writable => exact entry notDirectory ..
  | table frame user writable =>
      exact (entry (notTable frame user writable kind) ..).trans (entry notDirectory ..)

/-! ### The translation cache -/

structure Mmu where
  memory : Memory
  /-- CR3: the page of the directory. -/
  directory : BitVec 20
  /-- CR0.WP. -/
  writeProtect : Bool
  /-- Mappings that the processor remembers. -/
  cache : BitVec 20 → Option Mapping

namespace Mmu

def walk (mmu : Mmu) (page : BitVec 20) : Option Mapping :=
  PageWalk.walk mmu.memory mmu.directory page

/-- A remembered mapping is used before the tables are. -/
def lookup (mmu : Mmu) (page : BitVec 20) : Option Mapping :=
  (mmu.cache page).or (mmu.walk page)

/-- The physical address that an access reaches, or `none` for a page fault. -/
def translate (mmu : Mmu) (access : Access) (address : Word) : Option Word :=
  (mmu.lookup (pageOf address)).bind fun mapping =>
    if mapping.Permits mmu.writeProtect access then some (mapping.physical address) else none

/-- Loading CR3 again. -/
def flush (mmu : Mmu) : Mmu := { mmu with cache := fun _ => none }

/-- What using a page leaves behind: flags in the tables, and a remembered mapping. -/
def touch (mmu : Mmu) (page : BitVec 20) (write : Bool) : Mmu :=
  { mmu with
    memory := mark mmu.directory page write mmu.memory
    cache := Function.update mmu.cache page (mmu.lookup page) }

/-- The tables are the only source of the mappings that are remembered. -/
def Coherent (mmu : Mmu) : Prop :=
  ∀ page mapping, mmu.cache page = some mapping → mmu.walk page = some mapping

theorem coherent_flush (mmu : Mmu) : mmu.flush.Coherent := by
  intro page mapping remembered
  cases remembered

/-- With a coherent cache, the tables decide every translation. -/
theorem Coherent.lookup {mmu : Mmu} (coherent : mmu.Coherent) (page : BitVec 20) :
    mmu.lookup page = mmu.walk page := by
  unfold Mmu.lookup
  cases remembered : mmu.cache page with
  | none => rfl
  | some mapping =>
      rw [coherent page mapping remembered]
      rfl

theorem walk_touch (mmu : Mmu) (page other : BitVec 20) (write : Bool) :
    (mmu.touch page write).walk other = mmu.walk other :=
  walk_of_sameEntries (sameEntries_mark mmu.directory page write mmu.memory) _ other

theorem Coherent.touch {mmu : Mmu} (coherent : mmu.Coherent) (page : BitVec 20) (write : Bool) :
    (mmu.touch page write).Coherent := by
  intro other mapping remembered
  rw [walk_touch]
  change Function.update mmu.cache page (mmu.lookup page) other = some mapping at remembered
  rw [coherent.lookup] at remembered
  by_cases here : other = page
  · subst other
    rwa [Function.update_self] at remembered
  · rw [Function.update_of_ne here] at remembered
    exact coherent other mapping remembered

end Mmu

end MonolithicKernel.Foundation.PageWalk
