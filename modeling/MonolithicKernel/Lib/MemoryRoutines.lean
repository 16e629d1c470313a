import MonolithicKernel.Foundation.X86

/-!
Owns `memcpy`, `memmove` and `memset` of `lib.c` as the programs of their inline
assembly, and that they agree with copying and filling byte by byte.

Does not own the word and dword variants of `memset`.
-/

namespace MonolithicKernel.Lib

open MonolithicKernel.Foundation
open MonolithicKernel.Foundation.WordRanges
open MonolithicKernel.Foundation.X86

/-! ### `memcpy` -/

inductive MemcpyLabel
  | top | aligned | bottom | done

/-- The body of both byte loops of `memcpy`, `counter` being the register that
counts the bytes left. -/
def copyByte {Label : Type} (counter : Register) : List (Instruction Label) :=
  [.loadByte .esi .eax, .storeByte .eax .edi, .add 1 .edi, .add 1 .esi, .sub 1 counter]

/-- What `memcpy` and `memset` do in front of their `rep`: `%ecx` is left with the
words and `%edx` with the bytes behind them. -/
def splitCounter {Label : Type} : List (Instruction Label) :=
  [.loadDs .edx, .storeEs .edx, .mov .ecx .edx, .shr 2 .ecx, .and 0x3 .edx, .cld]

def memcpyBottom : List (Instruction MemcpyLabel) :=
  .test .edx .edx :: .jz .done :: (copyByte .edx ++ [.jmp .bottom])

def memcpyAligned : List (Instruction MemcpyLabel) :=
  splitCounter ++ .repMovsl :: memcpyBottom

def memcpyTop : List (Instruction MemcpyLabel) :=
  .test .ecx .ecx :: .jz .done :: .testImmediate 0x3 .edi :: .jz .aligned ::
    (copyByte .ecx ++ .jmp .top :: memcpyAligned)

def memcpyCode : MemcpyLabel → List (Instruction MemcpyLabel)
  | .top => memcpyTop
  | .aligned => memcpyAligned
  | .bottom => memcpyBottom
  | .done => []

/-- `memcpy`: the value returned and the memory. The registers that the
assembly is not given hold anything. -/
def memcpy (rounds : Nat) (machine : Machine) (dest src n : Word) : Option (Word × Memory) :=
  (run memcpyCode rounds memcpyTop { machine with esi := src, edi := dest, ecx := n }).map
    fun final => (dest, final.memory)

/-! ### `memmove` -/

inductive MemmoveLabel
  | go

def memmoveGo : List (Instruction MemmoveLabel) := [.repMovsb]

def memmoveTop : List (Instruction MemmoveLabel) :=
  [.loadDs .edx, .storeEs .edx, .cld, .cmp .edi .esi] ++ .jae .go ::
    ([.lea (-1) .esi .ecx .esi, .lea (-1) .edi .ecx .edi, .std] ++ memmoveGo)

def memmoveCode : MemmoveLabel → List (Instruction MemmoveLabel)
  | .go => memmoveGo

def memmove (rounds : Nat) (machine : Machine) (dest src n : Word) : Option (Word × Memory) :=
  (run memmoveCode rounds memmoveTop { machine with edi := dest, esi := src, ecx := n }).map
    fun final => (dest, final.memory)

/-! ### `memset` -/

inductive MemsetLabel
  | top | aligned | bottom | done

/-- The body of both byte loops of `memset`. -/
def setByte {Label : Type} (counter : Register) : List (Instruction Label) :=
  [.storeByte .eax .edi, .add 1 .edi, .sub 1 counter]

def memsetBottom : List (Instruction MemsetLabel) :=
  .test .edx .edx :: .jz .done :: (setByte .edx ++ [.jmp .bottom])

def memsetAligned : List (Instruction MemsetLabel) :=
  splitCounter ++ .repStosl :: memsetBottom

def memsetTop : List (Instruction MemsetLabel) :=
  .test .ecx .ecx :: .jz .done :: .testImmediate 0x3 .edi :: .jz .aligned ::
    (setByte .ecx ++ .jmp .top :: memsetAligned)

def memsetCode : MemsetLabel → List (Instruction MemsetLabel)
  | .top => memsetTop
  | .aligned => memsetAligned
  | .bottom => memsetBottom
  | .done => []

/-- `memset`. The assembly is given the low byte of `c` four times over. -/
def memset (rounds : Nat) (machine : Machine) (s c n : Word) : Option (Word × Memory) :=
  let c := c &&& 0xFF
  (run memsetCode rounds memsetTop
    { machine with eax := c <<< 24 ||| c <<< 16 ||| c <<< 8 ||| c, edi := s, ecx := n }).map
      fun final => (s, final.memory)

/-! ### Splitting the counter -/

theorem splitCounter_straight {Label : Type} :
    ∀ instruction ∈ (splitCounter : List (Instruction Label)), instruction.isJump = false := by
  simp [splitCounter, Instruction.isJump]

theorem splitCounter_spec {Label : Type} (machine : Machine) {final : Machine}
    (executed :
      (splitCounter : List (Instruction Label)).foldl Instruction.execute machine = final) :
    final.memory = machine.memory ∧ final.eax = machine.eax ∧ final.esi = machine.esi ∧
      final.edi = machine.edi ∧ final.df = false ∧
      final.ecx.toNat = machine.ecx.toNat / 4 ∧
      final.edx = BitVec.ofNat 32 (machine.ecx.toNat % 4) := by
  have words : (machine.ecx >>> 2).toNat = machine.ecx.toNat / 4 := by
    rw [BitVec.toNat_ushiftRight, Nat.shiftRight_eq_div_pow]
  have bytes : machine.ecx &&& 0x3 = BitVec.ofNat 32 (machine.ecx.toNat % 4) := by
    apply BitVec.eq_of_toNat_eq
    rw [BitVec.toNat_and, BitVec.toNat_ofNat, Nat.mod_eq_of_lt (a := machine.ecx.toNat % 4)
      (by omega)]
    exact Nat.and_two_pow_sub_one_eq_mod machine.ecx.toNat 2
  rw [← executed, ← words, ← bytes]
  exact ⟨rfl, rfl, rfl, rfl, rfl, rfl, rfl⟩

/-! ### The loops of `memcpy` -/

/-- One round of a byte loop. -/
theorem copyByte_spec {Label : Type} (machine : Machine) {counter : Register}
    (isCounter : counter = .ecx ∨ counter = .edx) {final : Machine}
    (executed :
      (copyByte counter : List (Instruction Label)).foldl Instruction.execute machine = final) :
    final.memory = copyRange machine.esi machine.edi 1 machine.memory ∧
      final.esi = machine.esi + 1 ∧ final.edi = machine.edi + 1 ∧
      final.get counter = machine.get counter - 1 := by
  have written : ∀ byte : Byte, Function.update machine.memory machine.edi
      ((machine.eax.extractLsb' 8 24 ++ byte : BitVec (24 + 8)).setWidth 8) =
        Function.update machine.memory machine.edi byte := by
    intro byte
    rw [setWidth_loadByte]
  rw [← executed, copyRange_one, ← written]
  obtain rfl | rfl := isCounter
  · exact ⟨rfl, rfl, rfl, rfl⟩
  · exact ⟨rfl, rfl, rfl, rfl⟩

theorem copyByte_straight {Label : Type} (counter : Register) :
    ∀ instruction ∈ (copyByte counter : List (Instruction Label)),
      instruction.isJump = false := by
  simp [copyByte, Instruction.isJump]

/-- A round of a byte loop and the rounds that follow. -/
theorem copyByte_ends {counter : Register} (isCounter : counter = .ecx ∨ counter = .edx)
    {count : Nat} {machine : Machine} {label : MemcpyLabel}
    {rest : List (Instruction MemcpyLabel)}
    (counted : machine.get counter = BitVec.ofNat 32 (count + 1)) (small : count + 1 < 2 ^ 32)
    (safe : RisingSafe machine.esi machine.edi (count + 1))
    (again : ∀ next : Machine, next.get counter = BitVec.ofNat 32 count →
      RisingSafe next.esi next.edi count →
        Ends memcpyCode (memcpyCode label) next fun final =>
          final.memory = copyRange next.esi next.edi count next.memory) :
    Ends memcpyCode (copyByte counter ++ .jmp label :: rest) machine fun final =>
      final.memory = copyRange machine.esi machine.edi (count + 1) machine.memory := by
  obtain ⟨next, executed⟩ : ∃ next, (copyByte counter : List (Instruction MemcpyLabel)).foldl
      Instruction.execute machine = next := ⟨_, rfl⟩
  obtain ⟨memory, esi, edi, counts⟩ := copyByte_spec machine isCounter executed
  have countsLeft : next.get counter = BitVec.ofNat 32 count := by
    rw [counts, counted, BitVec.ofNat_add]
    exact BitVec.add_sub_cancel _ _
  have safeLeft : RisingSafe next.esi next.edi count := by
    rw [esi, edi]
    exact safe.tail
  refine Ends.block (copyByte_straight counter) (Ends.jmp ?_)
  rw [executed]
  refine (again next countsLeft safeLeft).mono fun final copied => ?_
  rw [copied, esi, edi, memory]
  exact copyRange_behind small.le safe machine.memory

/-- The byte loop behind the words copies the bytes that `%edx` counts. -/
theorem memcpyBottom_ends {count : Nat} {machine : Machine}
    (counted : machine.get .edx = BitVec.ofNat 32 count) (small : count < 2 ^ 32)
    (safe : RisingSafe machine.esi machine.edi count) :
    Ends memcpyCode memcpyBottom machine fun final =>
      final.memory = copyRange machine.esi machine.edi count machine.memory := by
  refine Ends.countdown (fun count machine => RisingSafe machine.esi machine.edi count)
    (fun count machine final =>
      final.memory = copyRange machine.esi machine.edi count machine.memory)
    (fun machine => ?_) (fun count machine counted small safe again => ?_) counted small safe
  · exact Ends.nil (copyRange_zero _ _ _).symm
  · exact copyByte_ends (.inr rfl) counted small safe again

/-- From an aligned destination on, the words and then the bytes are copied. -/
theorem memcpyAligned_ends {machine : Machine}
    (safe : RisingSafe machine.esi machine.edi machine.ecx.toNat) :
    Ends memcpyCode memcpyAligned machine fun final =>
      final.memory =
        copyRange machine.esi machine.edi machine.ecx.toNat machine.memory := by
  have total : 4 * (machine.ecx.toNat / 4) + machine.ecx.toNat % 4 = machine.ecx.toNat :=
    Nat.div_add_mod _ _
  have below := machine.ecx.isLt
  apply Ends.block splitCounter_straight
  obtain ⟨split, isSplit⟩ : ∃ split, (splitCounter : List (Instruction MemcpyLabel)).foldl
      Instruction.execute machine = split := ⟨_, rfl⟩
  obtain ⟨memory, -, esi, edi, df, ecx, edx⟩ := splitCounter_spec machine isSplit
  have fits : 4 * split.ecx.toNat ≤ 2 ^ 32 := by omega
  have wordsSafe : RisingSafe split.esi split.edi (4 * split.ecx.toNat) := by
    rw [esi, edi]
    exact safe.mono (by omega)
  have copied := Machine.movs_iterate_rising df fits wordsSafe
  rw [esi, edi, memory, ecx] at copied
  rw [isSplit]
  apply Ends.cons
  rw [Instruction.execute, ecx, copied]
  have whole : copyRange (machine.esi + BitVec.ofNat 32 (4 * (machine.ecx.toNat / 4)))
      (machine.edi + BitVec.ofNat 32 (4 * (machine.ecx.toNat / 4))) (machine.ecx.toNat % 4)
      (copyRange machine.esi machine.edi (4 * (machine.ecx.toNat / 4)) machine.memory) =
        copyRange machine.esi machine.edi machine.ecx.toNat machine.memory := by
    rw [copyRange_add (by omega) (by rw [total]; exact safe), total]
  rw [← whole]
  exact memcpyBottom_ends edx (by omega) (RisingSafe.drop (by rw [total]; exact safe))

/-- The byte loop in front of the words, until the destination is aligned or no
byte is left. -/
theorem memcpyTop_ends {count : Nat} {machine : Machine}
    (counted : machine.get .ecx = BitVec.ofNat 32 count) (small : count < 2 ^ 32)
    (safe : RisingSafe machine.esi machine.edi count) :
    Ends memcpyCode memcpyTop machine fun final =>
      final.memory = copyRange machine.esi machine.edi count machine.memory := by
  refine Ends.countdown (fun count machine => RisingSafe machine.esi machine.edi count)
    (fun count machine final =>
      final.memory = copyRange machine.esi machine.edi count machine.memory)
    (fun machine => ?_) (fun count machine counted small safe again => ?_) counted small safe
  · exact Ends.nil (copyRange_zero _ _ _).symm
  · apply Ends.testImmediateJz
    · intro aligned
      have left : machine.ecx.toNat = count + 1 := toNat_of_eq_ofNat counted small
      rw [← left] at safe ⊢
      exact memcpyAligned_ends safe
    · intro unaligned
      exact copyByte_ends (.inl rfl) counted small safe again

/-- `memcpy` ends and returns its destination, with the range copied. -/
theorem endsWith_memcpy (machine : Machine) {dest src n : Word}
    (safe : RisingSafe src dest n.toNat) :
    EndsWith (fun rounds => memcpy rounds machine dest src n)
      (dest, copyRange src dest n.toNat machine.memory) := by
  have counted : n = BitVec.ofNat 32 n.toNat := by rw [BitVec.ofNat_toNat, BitVec.setWidth_eq]
  have copies : Ends memcpyCode memcpyTop { machine with esi := src, edi := dest, ecx := n }
      fun final => final.memory = copyRange src dest n.toNat machine.memory :=
    memcpyTop_ends counted n.isLt safe
  obtain ⟨final, ended, copied⟩ := copies
  have returned := ended.map fun final => (dest, final.memory)
  rw [copied] at returned
  exact returned

/-! ### The copy of `memmove` -/

theorem memmoveGo_rising {machine : Machine} (rising : machine.df = false)
    (safe : RisingSafe machine.esi machine.edi machine.ecx.toNat) :
    Ends memmoveCode memmoveGo machine fun final =>
      final.memory =
        copyRange machine.esi machine.edi machine.ecx.toNat machine.memory := by
  apply Ends.cons
  apply Ends.nil
  have whole : 1 * machine.ecx.toNat = machine.ecx.toNat := Nat.one_mul _
  have below := machine.ecx.isLt
  rw [Instruction.execute,
    Machine.movs_iterate_rising rising (by omega) (by rw [whole]; exact safe), whole]

theorem memmoveGo_falling {machine : Machine} {source destination : Word}
    (falling : machine.df = true)
    (safe : FallingSafe source destination machine.ecx.toNat)
    (atSource : machine.esi = source + machine.ecx - 1)
    (atDestination : machine.edi = destination + machine.ecx - 1) :
    Ends memmoveCode memmoveGo machine fun final =>
      final.memory = copyRange source destination machine.ecx.toNat machine.memory := by
  have counter : BitVec.ofNat 32 machine.ecx.toNat = machine.ecx := by
    rw [BitVec.ofNat_toNat, BitVec.setWidth_eq]
  rw [← counter] at atSource atDestination
  obtain ⟨copied, -⟩ := Machine.movsb_iterate_falling falling machine.ecx.isLt.le safe
    atSource atDestination (Nat.zero_add machine.ecx.toNat)
  rw [BitVec.add_zero, BitVec.add_zero] at copied
  apply Ends.cons
  apply Ends.nil
  exact copied

/-- `memmove` ends and returns its destination, with the range copied: from its
start on when the destination is not above the source, else from its end on. -/
theorem endsWith_memmove (machine : Machine) {dest src n : Word}
    (destFits : dest.toNat + n.toNat ≤ 2 ^ 32) (srcFits : src.toNat + n.toNat ≤ 2 ^ 32) :
    EndsWith (fun rounds => memmove rounds machine dest src n)
      (dest, copyRange src dest n.toNat machine.memory) := by
  have moves : Ends memmoveCode memmoveTop { machine with edi := dest, esi := src, ecx := n }
      fun final => final.memory = copyRange src dest n.toNat machine.memory := by
    apply Ends.block
    · simp [Instruction.isJump]
    · apply Ends.jae
      · intro noCarry
        have notBelow : ¬ src < dest := of_decide_eq_false noCarry
        exact memmoveGo_rising rfl (risingSafe_of_le srcFits (BitVec.not_lt.mp notBelow))
      · intro carry
        have below : src < dest := of_decide_eq_true carry
        have last : ∀ start : Word, start + n + -1 = start + n - 1 := fun start =>
          (BitVec.sub_eq_add_neg (start + n) 1).symm
        apply Ends.block
        · simp [Instruction.isJump]
        · exact memmoveGo_falling rfl (fallingSafe_of_lt destFits below) (last src) (last dest)
  obtain ⟨final, ended, copied⟩ := moves
  have returned := ended.map fun final => (dest, final.memory)
  rw [copied] at returned
  exact returned

/-! ### The loops of `memset` -/

theorem setByte_spec {Label : Type} (machine : Machine) {counter : Register}
    (isCounter : counter = .ecx ∨ counter = .edx) {final : Machine}
    (executed :
      (setByte counter : List (Instruction Label)).foldl Instruction.execute machine = final) :
    final.memory = fillRange machine.edi 1 (machine.eax.setWidth 8) machine.memory ∧
      final.eax = machine.eax ∧ final.edi = machine.edi + 1 ∧
      final.get counter = machine.get counter - 1 := by
  rw [← executed, fillRange_one]
  obtain rfl | rfl := isCounter
  · exact ⟨rfl, rfl, rfl, rfl⟩
  · exact ⟨rfl, rfl, rfl, rfl⟩

theorem setByte_straight {Label : Type} (counter : Register) :
    ∀ instruction ∈ (setByte counter : List (Instruction Label)), instruction.isJump = false := by
  simp [setByte, Instruction.isJump]

/-- A round of a byte loop and the rounds that follow. -/
theorem setByte_ends {counter : Register} (isCounter : counter = .ecx ∨ counter = .edx)
    {count : Nat} {machine : Machine} {label : MemsetLabel} {byte : Byte}
    {rest : List (Instruction MemsetLabel)}
    (counted : machine.get counter = BitVec.ofNat 32 (count + 1)) (small : count + 1 < 2 ^ 32)
    (repeats : Machine.Repeats machine.eax byte)
    (again : ∀ next : Machine, next.get counter = BitVec.ofNat 32 count →
      Machine.Repeats next.eax byte →
        Ends memsetCode (memsetCode label) next fun final =>
          final.memory = fillRange next.edi count byte next.memory) :
    Ends memsetCode (setByte counter ++ .jmp label :: rest) machine fun final =>
      final.memory = fillRange machine.edi (count + 1) byte machine.memory := by
  obtain ⟨next, executed⟩ : ∃ next, (setByte counter : List (Instruction MemsetLabel)).foldl
      Instruction.execute machine = next := ⟨_, rfl⟩
  obtain ⟨memory, eax, edi, counts⟩ := setByte_spec machine isCounter executed
  have countsLeft : next.get counter = BitVec.ofNat 32 count := by
    rw [counts, counted, BitVec.ofNat_add]
    exact BitVec.add_sub_cancel _ _
  have low : machine.eax.setWidth 8 = byte := repeats 0 (by decide)
  refine Ends.block (setByte_straight counter) (Ends.jmp ?_)
  rw [executed]
  refine (again next countsLeft (by rw [eax]; exact repeats)).mono fun final filled => ?_
  rw [filled, edi, memory, low]
  exact fillRange_behind small.le byte machine.memory

theorem memsetBottom_ends {count : Nat} {machine : Machine} {byte : Byte}
    (counted : machine.get .edx = BitVec.ofNat 32 count) (small : count < 2 ^ 32)
    (repeats : Machine.Repeats machine.eax byte) :
    Ends memsetCode memsetBottom machine fun final =>
      final.memory = fillRange machine.edi count byte machine.memory := by
  refine Ends.countdown (fun _ machine => Machine.Repeats machine.eax byte)
    (fun count machine final =>
      final.memory = fillRange machine.edi count byte machine.memory)
    (fun machine => ?_) (fun count machine counted small repeats again => ?_) counted small repeats
  · exact Ends.nil (fillRange_zero _ _ _).symm
  · exact setByte_ends (.inr rfl) counted small repeats again

/-- From an aligned destination on, the words and then the bytes are filled. -/
theorem memsetAligned_ends {machine : Machine} {byte : Byte}
    (repeats : Machine.Repeats machine.eax byte) :
    Ends memsetCode memsetAligned machine fun final =>
      final.memory = fillRange machine.edi machine.ecx.toNat byte machine.memory := by
  have total : 4 * (machine.ecx.toNat / 4) + machine.ecx.toNat % 4 = machine.ecx.toNat :=
    Nat.div_add_mod _ _
  have below := machine.ecx.isLt
  apply Ends.block splitCounter_straight
  obtain ⟨split, isSplit⟩ : ∃ split, (splitCounter : List (Instruction MemsetLabel)).foldl
      Instruction.execute machine = split := ⟨_, rfl⟩
  obtain ⟨memory, eax, -, edi, df, ecx, edx⟩ := splitCounter_spec machine isSplit
  rw [← eax] at repeats
  have fits : 4 * split.ecx.toNat ≤ 2 ^ 32 := by omega
  have filled := Machine.stosl_iterate df fits repeats
  rw [edi, memory, ecx] at filled
  rw [isSplit]
  apply Ends.cons
  rw [Instruction.execute, ecx, filled]
  have whole : fillRange (machine.edi + BitVec.ofNat 32 (4 * (machine.ecx.toNat / 4)))
      (machine.ecx.toNat % 4) byte
      (fillRange machine.edi (4 * (machine.ecx.toNat / 4)) byte machine.memory) =
        fillRange machine.edi machine.ecx.toNat byte machine.memory := by
    rw [fillRange_add (by omega), total]
  rw [← whole]
  exact memsetBottom_ends edx (by omega) repeats

theorem memsetTop_ends {count : Nat} {machine : Machine} {byte : Byte}
    (counted : machine.get .ecx = BitVec.ofNat 32 count) (small : count < 2 ^ 32)
    (repeats : Machine.Repeats machine.eax byte) :
    Ends memsetCode memsetTop machine fun final =>
      final.memory = fillRange machine.edi count byte machine.memory := by
  refine Ends.countdown (fun _ machine => Machine.Repeats machine.eax byte)
    (fun count machine final =>
      final.memory = fillRange machine.edi count byte machine.memory)
    (fun machine => ?_) (fun count machine counted small repeats again => ?_) counted small repeats
  · exact Ends.nil (fillRange_zero _ _ _).symm
  · apply Ends.testImmediateJz
    · intro aligned
      have left : machine.ecx.toNat = count + 1 := toNat_of_eq_ofNat counted small
      rw [← left]
      exact memsetAligned_ends repeats
    · intro unaligned
      exact setByte_ends (.inl rfl) counted small repeats again

theorem getLsbD_lowByte (c : Word) (bit : Nat) :
    (c &&& 0xFF).getLsbD bit = (decide (bit < 8) && c.getLsbD bit) := by
  have mask : (0xFF : Word) = (BitVec.allOnes 8).setWidth 32 := rfl
  rw [mask, BitVec.getLsbD_and, BitVec.getLsbD_setWidth, BitVec.getLsbD_allOnes]
  by_cases inside : bit < 8
  · have inWord : bit < 32 := by omega
    simp [inside, inWord]
  · simp [inside]

/-- The word that `memset` fills with has the low byte of `c` four times. -/
theorem repeats_memset (c : Word) :
    Machine.Repeats
      ((c &&& 0xFF) <<< 24 ||| (c &&& 0xFF) <<< 16 ||| (c &&& 0xFF) <<< 8 ||| (c &&& 0xFF))
      (c.setWidth 8) := by
  intro index inside
  ext bit small
  simp only [BitVec.getElem_setWidth, BitVec.getLsbD_ushiftRight, BitVec.getLsbD_or,
    BitVec.getLsbD_shiftLeft, getLsbD_lowByte]
  -- Of the four shifted copies only one has bits in the byte.
  interval_cases index
  all_goals grind

/-- `memset` ends and returns its destination, with the range filled. -/
theorem endsWith_memset (machine : Machine) (s c n : Word) :
    EndsWith (fun rounds => memset rounds machine s c n)
      (s, fillRange s n.toNat (c.setWidth 8) machine.memory) := by
  have counted : n = BitVec.ofNat 32 n.toNat := by rw [BitVec.ofNat_toNat, BitVec.setWidth_eq]
  have fills : Ends memsetCode memsetTop
      { machine with
        eax := (c &&& 0xFF) <<< 24 ||| (c &&& 0xFF) <<< 16 ||| (c &&& 0xFF) <<< 8 ||| (c &&& 0xFF)
        edi := s
        ecx := n }
      fun final => final.memory = fillRange s n.toNat (c.setWidth 8) machine.memory :=
    memsetTop_ends counted n.isLt (repeats_memset c)
  obtain ⟨final, ended, filled⟩ := fills
  have returned := ended.map fun final => (s, final.memory)
  rw [filled] at returned
  exact returned

/-! ### The routines byte by byte -/

/-- The `count` bytes from `dest` on are those that stood from `src` on, and no
other byte has changed. -/
structure Copied (before after : Memory) (dest src : Word) (count : Nat) : Prop where
  copied : ∀ index < count,
    after (dest + BitVec.ofNat 32 index) = before (src + BitVec.ofNat 32 index)
  unchanged : ∀ address : Word,
    address.toNat < dest.toNat ∨ dest.toNat + count ≤ address.toNat →
      after address = before address

/-- The `count` bytes from `dest` on are `byte`, and no other byte has changed. -/
structure Filled (before after : Memory) (dest : Word) (count : Nat) (byte : Byte) : Prop where
  filled : ∀ index < count, after (dest + BitVec.ofNat 32 index) = byte
  unchanged : ∀ address : Word,
    address.toNat < dest.toNat ∨ dest.toNat + count ≤ address.toNat →
      after address = before address

theorem copied_copyRange (memory : Memory) {dest src : Word} {count : Nat}
    (destFits : dest.toNat + count ≤ 2 ^ 32) :
    Copied memory (copyRange src dest count memory) dest src count where
  copied := fun _ inside => copyRange_inside (by omega) memory inside
  unchanged := fun _ outside => copyRange_outside destFits outside memory

theorem filled_fillRange (memory : Memory) {dest : Word} {count : Nat} (byte : Byte)
    (destFits : dest.toNat + count ≤ 2 ^ 32) :
    Filled memory (fillRange dest count byte memory) dest count byte where
  filled := fun _ inside => fillRange_inside (by omega) byte memory inside
  unchanged := fun _ outside => fillRange_outside destFits outside byte memory

/-- **The memory routines are bytewise.** From any registers, flags and memory
and for ranges that do not wrap, `memcpy` copies a range onto a disjoint one,
`memmove` copies a range onto any one, and `memset` fills a range with the low
byte of its argument. All of them end and change no other byte. -/
theorem routines_bytewise (machine : Machine) {dest src n : Word} (c : Word)
    (destFits : dest.toNat + n.toNat ≤ 2 ^ 32) (srcFits : src.toNat + n.toNat ≤ 2 ^ 32) :
    (src.toNat + n.toNat ≤ dest.toNat ∨ dest.toNat + n.toNat ≤ src.toNat →
      ∃ after, EndsWith (fun rounds => memcpy rounds machine dest src n) (dest, after) ∧
        Copied machine.memory after dest src n.toNat) ∧
    (∃ after, EndsWith (fun rounds => memmove rounds machine dest src n) (dest, after) ∧
      Copied machine.memory after dest src n.toNat) ∧
    ∃ after, EndsWith (fun rounds => memset rounds machine dest c n) (dest, after) ∧
      Filled machine.memory after dest n.toNat (c.setWidth 8) := by
  refine ⟨fun disjoint => ?_, ?_, ?_⟩
  · exact ⟨_, endsWith_memcpy machine (risingSafe_of_disjoint srcFits disjoint),
      copied_copyRange machine.memory destFits⟩
  · exact ⟨_, endsWith_memmove machine destFits srcFits,
      copied_copyRange machine.memory destFits⟩
  · exact ⟨_, endsWith_memset machine dest c n,
      filled_fillRange machine.memory _ destFits⟩

/-- Registers and flags that are all clear, and the low byte of each address in
memory. -/
def counting : Machine where
  eax := 0
  ecx := 0
  edx := 0
  esi := 0
  edi := 0
  ds := 0
  es := 0
  zf := false
  cf := false
  df := false
  memory := fun address => address.setWidth 8

example : ((memcpy 100 counting 0x2002 0x1001 11).map fun final =>
    (List.range 13).map fun index => final.2 (0x2001 + BitVec.ofNat 32 index)) =
      some [1, 1, 2, 3, 4, 5, 6, 7, 8, 9, 10, 11, 13] := by decide

theorem routines_bytewise_counting :
    (∃ after, EndsWith (fun rounds => memcpy rounds counting 0x2002 0x1001 11) (0x2002, after) ∧
      Copied counting.memory after 0x2002 0x1001 11) ∧
    (∃ after, EndsWith (fun rounds => memmove rounds counting 0x2002 0x1001 11) (0x2002, after) ∧
      Copied counting.memory after 0x2002 0x1001 11) ∧
    ∃ after, EndsWith (fun rounds => memset rounds counting 0x2002 0x7FF 11) (0x2002, after) ∧
      Filled counting.memory after 0x2002 11 0xFF := by
  obtain ⟨copies, moves, sets⟩ :=
    @routines_bytewise counting 0x2002 0x1001 11 0x7FF (by decide) (by decide)
  exact ⟨copies (by decide), moves, sets⟩

end MonolithicKernel.Lib
