import MonolithicKernel.FileSystem.ReadData

/-!
Owns the memory that `read_data` leaves behind `buf`: its copies, carried out
one after the other, store the requested slice of the file and nothing beyond,
and they load from the file's own data blocks only.

The image and the memory of `buf` are apart. Does not own the position of a
descriptor.
-/

namespace MonolithicKernel.FileSystem

open MonolithicKernel.Lib

/-- The memory that `buf` points into. -/
abbrev Memory := UInt32 → UInt8

/-- Bytes stored from `buf` on. -/
def Memory.store (memory : Memory) (buf : UInt32) (bytes : Bytes) : Memory := fun address =>
  if (address - buf).toNat < bytes.length then bytes.getD (address - buf).toNat 0
  else memory address

namespace Image

/-- The address of a data block. -/
def dataBlockAt (image : Image) (block : Nat) : Nat := 4096 * (image.nInodes + 1 + block)

/-- What the format promises of an inode: its number, a length that the 1023
block numbers of its block can reach, and the block numbers of that length. -/
structure WellFormedInode (image : Image) (inode : Nat) : Prop where
  number : inode < image.nInodes
  length : image.fileLength inode ≤ 1023 * 4096
  blocks : ∀ i, i * 4096 < image.fileLength inode →
    image.dataBlock inode i < image.nDataBlocks

end Image

/-- What the copy loop of `read_data` counts and moves. -/
structure Transfer where
  bytesRead : Nat
  buf : UInt32
  memory : Memory

/-- The end of a round of the loop: `memcpy(buf, data_block_ptr, len)` and the
accounting behind it. -/
def Transfer.copy (image : Image) (transfer : Transfer) (copy : Nat × Nat) : Transfer where
  bytesRead := transfer.bytesRead + copy.2
  buf := transfer.buf + UInt32.ofNat copy.2
  memory := transfer.memory.store transfer.buf (image.slice copy.1 copy.2)

/-- `read_data` with its buffer. -/
def readDataInto (image : Image) (inode offset length : Nat) (buf : UInt32) (memory : Memory) :
    Transfer :=
  (readDataCopies image inode offset length).foldl (Transfer.copy image) ⟨0, buf, memory⟩

/-! ### Carrying out the copies -/

namespace Memory

@[simp] theorem store_nil (memory : Memory) (buf : UInt32) : memory.store buf [] = memory := rfl

/-- The distance from the end of `len` bytes that start at `buf`. -/
theorem toNat_sub_end (address buf : UInt32) {len : Nat} (small : len < 2 ^ 32) :
    (address - (buf + UInt32.ofNat len)).toNat =
      if (address - buf).toNat < len then (address - buf).toNat + 2 ^ 32 - len
      else (address - buf).toNat - len := by
  have bound := (address - buf).toNat_lt
  have count : (UInt32.ofNat len).toNat = len := UInt32.toNat_ofNat_of_lt' small
  have apart : address - (buf + UInt32.ofNat len) = address - buf - UInt32.ofNat len := by
    simp only [UInt32.sub_eq_add_neg, UInt32.neg_add, UInt32.add_assoc]
  rw [apart, UInt32.toNat_sub, count]
  split_ifs <;> omega

/-- Bytes stored behind bytes are bytes stored in a row, as long as the second
ones do not come round to the first. -/
theorem store_append (memory : Memory) (buf : UInt32) (first second : Bytes)
    (small : first.length + second.length < 2 ^ 32) :
    (memory.store buf first).store (buf + UInt32.ofNat first.length) second =
      memory.store buf (first ++ second) := by
  funext address
  have bound := (address - buf).toNat_lt
  have distance := toNat_sub_end address buf (show first.length < 2 ^ 32 by omega)
  unfold store
  by_cases here : (address - buf).toNat < first.length
  · rw [if_pos here] at distance
    rw [if_neg (by omega), if_pos here, if_pos (by simp; omega)]
    simp [List.getElem?_append, here]
  · rw [if_neg here] at distance
    by_cases later : (address - buf).toNat < (first ++ second).length
    · rw [List.length_append] at later
      rw [if_pos (by omega), if_pos (by simp; omega), distance]
      simp [List.getElem?_append, here]
    · rw [List.length_append] at later
      rw [if_neg (by omega), if_neg here, if_neg (by simp; omega)]

end Memory

/-- Copies that fit into the address space leave their bytes in a row. -/
theorem foldl_copy (image : Image) (copies : List (Nat × Nat)) : ∀ transfer : Transfer,
    let bytes := copies.flatMap fun copy => image.slice copy.1 copy.2
    bytes.length < 2 ^ 32 →
      copies.foldl (Transfer.copy image) transfer =
        ⟨transfer.bytesRead + bytes.length, transfer.buf + UInt32.ofNat bytes.length,
          transfer.memory.store transfer.buf bytes⟩ := by
  induction copies with
  | nil =>
      intro transfer bytes small
      simp [bytes]
  | cons copy copies inductionHypothesis =>
      intro transfer bytes small
      have split : bytes =
          image.slice copy.1 copy.2 ++ copies.flatMap fun copy => image.slice copy.1 copy.2 :=
        List.flatMap_cons
      have total : bytes.length =
          copy.2 + (copies.flatMap fun copy => image.slice copy.1 copy.2).length := by
        rw [split, List.length_append, Image.length_slice]
      rw [List.foldl_cons, inductionHypothesis (transfer.copy image copy) (by omega)]
      have stored := transfer.memory.store_append transfer.buf (image.slice copy.1 copy.2)
        (copies.flatMap fun copy => image.slice copy.1 copy.2)
        (by rw [Image.length_slice]; omega)
      rw [Image.length_slice, ← split] at stored
      simp only [Transfer.copy, Transfer.mk.injEq]
      refine ⟨by omega, ?_, stored⟩
      rw [total, UInt32.ofNat_add, UInt32.add_assoc]

/-! ### Where the copies load from -/

section Sources

variable (image : Image) (inode : Nat)

/-- A copy of a round lies in one data block, in the part that the file uses. -/
def InFileBlock (copy : Nat × Nat) : Prop :=
  ∃ i start, i * 4096 + start + copy.2 ≤ image.fileLength inode ∧ start + copy.2 ≤ 4096 ∧
    copy.1 = image.dataBlockAt (image.dataBlock inode i) + start

theorem inFileBlock_of_mem_readDataLoop (bounded : image.fileLength inode ≤ 2 ^ 32 - 4096)
    (blocks : Nat) : ∀ {i start length : Nat}, start < 4096 → length < 2 ^ 32 →
      i + blocks = (image.fileLength inode + 4095) / 4096 →
      (blocks ≠ 0 → i * 4096 + start < image.fileLength inode) →
      ∀ copy ∈ readDataLoop image inode blocks i start length, InFileBlock image inode copy := by
  induction blocks with
  | zero => simp [readDataLoop]
  | succ blocks inductionHypothesis =>
      intro i start length inBlock small rounds inFile copy member
      have here := inFile (by omega)
      by_cases none_left : length = 0
      · simp [readDataLoop, none_left] at member
      rw [readDataLoop, if_neg none_left] at member
      have round := roundLength_eq image inode length inBlock (by omega) here
      dsimp only at round member
      rw [round] at member
      rcases List.mem_cons.mp member with rfl | later
      · exact ⟨i, start, by dsimp only; omega, by dsimp only; omega, rfl⟩
      · rw [sub32_of_le (by omega) small] at later
        exact inductionHypothesis (by omega) (by omega) (by omega) (by omega) copy later

theorem inFileBlock_of_mem_readDataCopies (bounded : image.fileLength inode ≤ 2 ^ 32 - 4096)
    {offset length : Nat} (small : length < 2 ^ 32) {copy : Nat × Nat}
    (member : copy ∈ readDataCopies image inode offset length) :
    InFileBlock image inode copy := by
  unfold readDataCopies at member
  by_cases past : offset ≥ image.fileLength inode
  · rw [if_pos past] at member
    cases member
  · rw [if_neg past] at member
    have noWrap : (image.fileLength inode + 4095) % 2 ^ 32 = image.fileLength inode + 4095 := by
      omega
    dsimp only at member
    rw [noWrap] at member
    exact inFileBlock_of_mem_readDataLoop image inode bounded _ (by omega) small (by omega)
      (by omega) copy member

end Sources

/-- **The requested slice.** For a well-formed inode and every offset, length and
buffer, `read_data` returns the number of bytes that the file has between the
offset and the length, stores exactly these bytes of the file from `buf` on, and
loads every byte it copies from a data block of the file. -/
theorem readDataInto_slice {image : Image} {inode : Nat}
    (wellFormed : image.WellFormedInode inode) (offset length buf : UInt32) (memory : Memory) :
    let read := readDataInto image inode offset.toNat length.toNat buf memory
    let count := min length.toNat (image.fileLength inode - offset.toNat)
    read.bytesRead = count ∧
    (∀ address, read.memory address =
      if (address - buf).toNat < count then
        (image.fileBytes inode).getD (offset.toNat + (address - buf).toNat) 0
      else memory address) ∧
    ∀ copy ∈ readDataCopies image inode offset.toNat length.toNat, ∀ k < copy.2,
      ∃ i, i * 4096 < image.fileLength inode ∧ image.dataBlock inode i < image.nDataBlocks ∧
        ∃ j < 4096, copy.1 + k = image.dataBlockAt (image.dataBlock inode i) + j := by
  intro read count
  have bounded := wellFormed.length
  have small := length.toNat_lt
  have bytes := readData_eq image inode offset.toNat length.toNat (by omega) small
  have number : (readData image inode offset.toNat length.toNat).length = count := by
    simp [bytes, count]
  have carried : read = ⟨0 + (readData image inode offset.toNat length.toNat).length,
      buf + UInt32.ofNat (readData image inode offset.toNat length.toNat).length,
      memory.store buf (readData image inode offset.toNat length.toNat)⟩ := by
    apply foldl_copy image (readDataCopies image inode offset.toNat length.toNat) ⟨0, buf, memory⟩
    change (readData image inode offset.toNat length.toNat).length < 2 ^ 32
    omega
  refine ⟨?_, ?_, ?_⟩
  · rw [carried, number, Nat.zero_add]
  · intro address
    rw [carried]
    dsimp only [Memory.store]
    rw [number]
    split_ifs with inside
    · have short : (address - buf).toNat < length.toNat := by omega
      rw [bytes]
      simp [short]
    · rfl
  · intro copy member k inCopy
    rcases inFileBlock_of_mem_readDataCopies image inode (by omega) small member with
      ⟨i, start, inFile, inBlock, source⟩
    refine ⟨i, by omega, wellFormed.blocks i (by omega), start + k, by omega, ?_⟩
    rw [source, Nat.add_assoc]

/-- One file of five bytes, "hello", inode 0. -/
def helloImage : Image :=
  .ofCells [(4, 1), (8, 1), (4096, 5), (8192, 0x68), (8193, 0x65), (8194, 0x6C), (8195, 0x6C),
    (8196, 0x6F)]

theorem helloImage_wellFormedInode : helloImage.WellFormedInode 0 := by
  have length : helloImage.fileLength 0 = 5 := by decide
  refine ⟨by decide, by omega, fun i inFile => ?_⟩
  obtain rfl : i = 0 := by omega
  decide

theorem readDataInto_helloImage :
    (readDataInto helloImage 0 3 10 0x08000000 fun _ => 0).bytesRead = 2 ∧
      (readDataInto helloImage 0 3 10 0x08000000 fun _ => 0).memory 0x08000001 = 0x6F ∧
      (readDataInto helloImage 0 3 10 0x08000000 fun _ => 0).memory 0x08000002 = 0 := by
  have slice := readDataInto_slice helloImage_wellFormedInode 3 10 0x08000000 fun _ => 0
  exact ⟨slice.1, (slice.2.1 0x08000001).trans (by decide +kernel), slice.2.1 0x08000002⟩

end MonolithicKernel.FileSystem
