import MonolithicKernel.Lib.Strings

/-!
Owns the file-system image and the three readers of `fs.c`:
`readDentryByName`, `readDentryByIndex` and `readData`. The image is the memory
that follows `fs_img_start`, byte by byte; the boot block, the directory
entries, the inodes and the data blocks are views of it at the offsets of the
packed structures in `fs.h`.

All addresses are relative to `fs_img_start` and wrap at 32 bits, as the
pointer arithmetic does. Does not own the drivers above the readers.
-/

namespace MonolithicKernel.FileSystem

open MonolithicKernel.Lib

/-- Unsigned 32-bit subtraction. -/
def sub32 (a b : Nat) : Nat := (a + 2 ^ 32 - b % 2 ^ 32) % 2 ^ 32

theorem sub32_of_le {a b : Nat} (le : b ≤ a) (small : a < 2 ^ 32) : sub32 a b = a - b := by
  unfold sub32
  omega

/-- The memory that starts at `fs_img_start`. -/
structure Image where
  byte : Nat → UInt8

namespace Image

/-- The image that is zero outside the given cells. -/
def ofCells (cells : List (Nat × UInt8)) : Image :=
  ⟨fun address => (cells.lookup address).getD 0⟩

/-- The byte at a 32-bit address. -/
def load (image : Image) (address : Nat) : UInt8 := image.byte (address % 2 ^ 32)

/-- The `n` bytes from an address on. -/
def slice (image : Image) (address n : Nat) : Bytes :=
  (List.range n).map fun k => image.load (address + k)

/-- The little-endian 32-bit word at an address. -/
def word (image : Image) (address : Nat) : Nat :=
  (image.load address).toNat + 256 * (image.load (address + 1)).toNat +
    65536 * (image.load (address + 2)).toNat + 16777216 * (image.load (address + 3)).toNat

/-! ### `bootblock_t` -/

def nDirEntries (image : Image) : Nat := image.word 0

def nInodes (image : Image) : Nat := image.word 4

def nDataBlocks (image : Image) : Nat := image.word 8

/-- The address of `dentries[i]`. -/
def dentryAt (i : Nat) : Nat := 64 + 64 * i

/-- `dentries[i].file_name`, all 32 bytes of it. -/
def dentryFileName (image : Image) (i : Nat) : Bytes := image.slice (dentryAt i) 32

/-- `dentries[i].file_type`: 0 the RTC, 1 a directory, 2 a regular file. -/
def dentryFileType (image : Image) (i : Nat) : Nat := image.word (dentryAt i + 32)

/-- `dentries[i].inode`. -/
def dentryInode (image : Image) (i : Nat) : Nat := image.word (dentryAt i + 36)

/-! ### `inode_t` -/

/-- The address of an inode. -/
def inodeAt (inode : Nat) : Nat := 4096 * (inode + 1)

/-- `length` of an inode. -/
def fileLength (image : Image) (inode : Nat) : Nat := image.word (inodeAt inode)

/-- `data_blocks[i]` of an inode. -/
def dataBlock (image : Image) (inode i : Nat) : Nat := image.word (inodeAt inode + 4 + 4 * i)

end Image

/-- The fields of `dentry_t` that a reader fills in. -/
structure Dentry where
  fileName : Bytes
  fileType : Nat
  inode : Nat
deriving DecidableEq, Repr

/-- `read_dentry_by_name`. A null name is `none`; the result is `none` for -1.
The name is compared on at most 32 bytes and must have the entry's own length. -/
def readDentryByName (image : Image) : Option Bytes → Option Dentry
  | none => none
  | some fname =>
      let ssLen := min (strlen fname) 32
      (List.range 63).findSome? fun i =>
        if strncmp fname (image.dentryFileName i) ssLen = 0 then
          let fileNameLen := strlen (image.dentryFileName i)
          if fileNameLen ≠ ssLen then none
          else some ⟨strncpy (image.dentryFileName i) ssLen, image.dentryFileType i,
            image.dentryInode i⟩
        else none

/-- `read_dentry_by_index`. -/
def readDentryByIndex (image : Image) (index : Nat) : Option Dentry :=
  if 63 ≤ index then none
  else some ⟨strncpy (image.dentryFileName index) 32, image.dentryFileType index,
    image.dentryInode index⟩

/-! ### `read_data` -/

/-- The copy loop of `read_data` from block `i` on: source address and byte
count of each `memcpy`. `blocks` is the number of loop rounds left, `start` the
offset in the block, `length` what is left of the request. -/
def readDataLoop (image : Image) (inode : Nat) : Nat → Nat → Nat → Nat → List (Nat × Nat)
  | 0, _, _, _ => []
  | blocks + 1, i, start, length =>
      if length = 0 then []
      else
        let curDataBlock := image.dataBlock inode i
        let dataBlockPtr := 4096 * (image.nInodes + 1 + curDataBlock) + start
        let len := 4096 - start
        let len := if len > length then length else len
        let len :=
          if (i * 4096 + len + start) % 2 ^ 32 > image.fileLength inode then
            sub32 (image.fileLength inode) (i * 4096 + start)
          else len
        (dataBlockPtr, len) :: readDataLoop image inode blocks (i + 1) 0 (sub32 length len)

/-- The copies that `read_data` makes. -/
def readDataCopies (image : Image) (inode offset length : Nat) : List (Nat × Nat) :=
  if offset ≥ image.fileLength inode then []
  else
    let nBlocks := (image.fileLength inode + 4095) % 2 ^ 32 / 4096
    readDataLoop image inode (nBlocks - offset / 4096) (offset / 4096) (offset % 4096) length

/-- `read_data`: the bytes it stores from `buf` on, one copy after the other.
Their number is the value it returns. -/
def readData (image : Image) (inode offset length : Nat) : Bytes :=
  (readDataCopies image inode offset length).flatMap fun copy => image.slice copy.1 copy.2

end MonolithicKernel.FileSystem
