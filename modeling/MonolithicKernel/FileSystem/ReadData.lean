import MonolithicKernel.FileSystem.Image

/-!
Owns the contents of a file and what `readData` returns of it. A file is the
concatenation of its data blocks in inode order, cut at its length; `readData`
returns the slice of it that the offset and the length select, for every image
whose file fits below the last block of the 32-bit offsets, and the number of
bytes it returns is known for every image at all.

Does not own where the loaded bytes lie.
-/

namespace MonolithicKernel.FileSystem

open MonolithicKernel.Lib

namespace Image

theorem word_lt (image : Image) (address : Nat) : image.word address < 2 ^ 32 := by
  have b0 := (image.load address).toNat_lt
  have b1 := (image.load (address + 1)).toNat_lt
  have b2 := (image.load (address + 2)).toNat_lt
  have b3 := (image.load (address + 3)).toNat_lt
  unfold word
  omega

theorem fileLength_lt (image : Image) (inode : Nat) : image.fileLength inode < 2 ^ 32 :=
  image.word_lt _

@[simp] theorem length_slice (image : Image) (address n : Nat) :
    (image.slice address n).length = n := by
  simp [slice]

/-- Byte `k` of a file: the block that holds it is named by the inode. -/
def fileByte (image : Image) (inode k : Nat) : UInt8 :=
  image.load (4096 * (image.nInodes + 1 + image.dataBlock inode (k / 4096)) + k % 4096)

/-- The contents of a file: its data blocks in inode order, cut at its length. -/
def fileBytes (image : Image) (inode : Nat) : Bytes :=
  ((List.range ((image.fileLength inode + 4095) / 4096)).flatMap fun i =>
    image.slice (4096 * (image.nInodes + 1 + image.dataBlock inode i)) 4096).take
      (image.fileLength inode)

/-- The first `k` whole blocks, byte by byte. -/
theorem flatMap_blocks (image : Image) (inode blocks : Nat) :
    ((List.range blocks).flatMap fun i =>
        image.slice (4096 * (image.nInodes + 1 + image.dataBlock inode i)) 4096) =
      (List.range (4096 * blocks)).map (image.fileByte inode) := by
  induction blocks with
  | zero => rfl
  | succ blocks inductionHypothesis =>
      rw [List.range_succ, List.flatMap_append, inductionHypothesis, Nat.mul_succ,
        List.range_add, List.map_append, List.append_right_inj]
      simp only [List.flatMap_cons, List.flatMap_nil, List.append_nil, slice, List.map_map]
      refine List.map_congr_left fun k inBlock => ?_
      have small : k < 4096 := List.mem_range.mp inBlock
      have block : (4096 * blocks + k) / 4096 = blocks := by omega
      have offset : (4096 * blocks + k) % 4096 = k := by omega
      simp [fileByte, block, offset]

theorem fileBytes_eq_map (image : Image) (inode : Nat) :
    image.fileBytes inode = (List.range (image.fileLength inode)).map (image.fileByte inode) := by
  have enough : image.fileLength inode ≤ 4096 * ((image.fileLength inode + 4095) / 4096) := by
    omega
  rw [fileBytes, flatMap_blocks, ← List.map_take, List.take_range, min_eq_left enough]

@[simp] theorem length_fileBytes (image : Image) (inode : Nat) :
    (image.fileBytes inode).length = image.fileLength inode := by
  simp [fileBytes_eq_map]

/-- A slice of the contents, byte by byte. -/
theorem take_drop_fileBytes (image : Image) (inode offset length : Nat) :
    ((image.fileBytes inode).drop offset).take length =
      (List.range (min length (image.fileLength inode - offset))).map
        fun k => image.fileByte inode (offset + k) := by
  apply List.ext_getElem
  · simp
  · intro k leftBound rightBound
    simp [fileBytes_eq_map]

end Image

section CopyLoop

variable (image : Image) (inode : Nat)

/-- The byte count of one round of the loop: what is left of the block, of the
request and of the file. -/
theorem roundLength_eq {i start : Nat} (length : Nat) (inBlock : start < 4096)
    (fits : i * 4096 + 4096 < 2 ^ 32) (inFile : i * 4096 + start < image.fileLength inode) :
    (let len := 4096 - start
     let len := if len > length then length else len
     if (i * 4096 + len + start) % 2 ^ 32 > image.fileLength inode then
       sub32 (image.fileLength inode) (i * 4096 + start)
     else len) =
      min (min (4096 - start) length) (image.fileLength inode - (i * 4096 + start)) := by
  have small := image.fileLength_lt inode
  rw [sub32_of_le inFile.le small]
  dsimp only
  split_ifs <;> omega

/-- **What the copy loop copies.** From block `i`, offset `start` on, the copies
are the bytes of the file from that position, as many as the request and the
file allow. The induction is on the rounds left; every round but the last ends
at a block boundary. -/
theorem flatMap_readDataLoop (bounded : image.fileLength inode ≤ 2 ^ 32 - 4096) (blocks : Nat) :
    ∀ {i start length : Nat}, start < 4096 → length < 2 ^ 32 →
      i + blocks = (image.fileLength inode + 4095) / 4096 →
      (blocks ≠ 0 → i * 4096 + start < image.fileLength inode) →
      ((readDataLoop image inode blocks i start length).flatMap
          fun copy => image.slice copy.1 copy.2) =
        (List.range (min length (image.fileLength inode - (i * 4096 + start)))).map
          fun k => image.fileByte inode (i * 4096 + start + k) := by
  induction blocks with
  | zero =>
      intro i start length inBlock small rounds inFile
      have past : image.fileLength inode - (i * 4096 + start) = 0 := by omega
      simp [readDataLoop, past]
  | succ blocks inductionHypothesis =>
      intro i start length inBlock small rounds inFile
      have here := inFile (by omega)
      by_cases none_left : length = 0
      · simp [readDataLoop, none_left]
      rw [readDataLoop, if_neg none_left]
      have round := roundLength_eq image inode length inBlock (by omega) here
      dsimp only at round ⊢
      rw [round]
      generalize counted :
        min (min (4096 - start) length) (image.fileLength inode - (i * 4096 + start)) = len
      have shorter : len ≤ length := by omega
      rw [sub32_of_le shorter small, List.flatMap_cons,
        inductionHypothesis (by omega) (by omega) (by omega) (by omega)]
      have total : min length (image.fileLength inode - (i * 4096 + start)) =
          len + min (length - len) (image.fileLength inode - ((i + 1) * 4096 + 0)) := by
        omega
      rw [total, List.range_add, List.map_append]
      refine congrArg₂ (· ++ ·) ?_ ?_
      · refine List.map_congr_left fun k inRound => ?_
        have bound : k < len := List.mem_range.mp inRound
        have block : (i * 4096 + start + k) / 4096 = i := by omega
        have offset : (i * 4096 + start + k) % 4096 = start + k := by omega
        rw [Image.fileByte, block, offset, Nat.add_assoc]
      · rw [List.map_map]
        refine List.map_congr_left fun k later => ?_
        have bound := List.mem_range.mp later
        -- A round that leaves something to copy ended at a block boundary.
        have next : (i + 1) * 4096 + 0 + k = i * 4096 + start + (len + k) := by omega
        rw [Function.comp_apply, next]

end CopyLoop

/-- `readData` returns exactly the requested slice of the file. -/
theorem readData_eq (image : Image) (inode offset length : Nat)
    (bounded : image.fileLength inode ≤ 2 ^ 32 - 4096) (small : length < 2 ^ 32) :
    readData image inode offset length = ((image.fileBytes inode).drop offset).take length := by
  rw [Image.take_drop_fileBytes]
  unfold readData readDataCopies
  by_cases past : offset ≥ image.fileLength inode
  · rw [if_pos past, Nat.sub_eq_zero_of_le past]
    simp
  · rw [if_neg past]
    have noWrap : (image.fileLength inode + 4095) % 2 ^ 32 = image.fileLength inode + 4095 := by
      omega
    dsimp only
    rw [noWrap, flatMap_readDataLoop image inode bounded _ (by omega) small (by omega) (by omega)]
    have position : offset / 4096 * 4096 + offset % 4096 = offset := by omega
    rw [position]

/-- The number of bytes `readData` returns, on any image. A length above the
last whole block makes the block count wrap to zero. -/
theorem length_readData (image : Image) (inode offset : Nat) {length : Nat}
    (small : length < 2 ^ 32) :
    (readData image inode offset length).length =
      if image.fileLength inode ≤ 2 ^ 32 - 4096 then
        min length (image.fileLength inode - offset)
      else 0 := by
  by_cases bounded : image.fileLength inode ≤ 2 ^ 32 - 4096
  · rw [if_pos bounded, readData_eq image inode offset length bounded small]
    simp
  · rw [if_neg bounded]
    have lengthLt := image.fileLength_lt inode
    have noBlocks : (image.fileLength inode + 4095) % 2 ^ 32 / 4096 = 0 := by omega
    unfold readData readDataCopies
    split
    · rfl
    · rw [noBlocks]
      dsimp only
      rw [Nat.zero_sub, readDataLoop]
      rfl

/-- `readData` never returns more than it was asked for. -/
theorem length_readData_le (image : Image) (inode : Nat) {offset length : Nat}
    (small : length < 2 ^ 32) : (readData image inode offset length).length ≤ length := by
  rw [length_readData image inode offset small]
  split <;> omega

end MonolithicKernel.FileSystem
