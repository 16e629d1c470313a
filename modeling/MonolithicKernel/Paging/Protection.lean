import MonolithicKernel.Paging.Mappings
import MonolithicKernel.Screen.Isolation

/-!
Owns the protection that paging gives: which addresses user programs and the
kernel reach in every state of every run, and where; and the isolation of
processes, whose 4 MB change only while paging is set up for them or when the
kernel stores there.

Does not own who is set up when.
-/

namespace MonolithicKernel.Paging

open MonolithicKernel.Foundation
open PageWalk WordRanges X86
open Machine (storeWord)
open MonolithicKernel.Process (Pid Terminal)
open MonolithicKernel.Screen (Video Displays videoMemIndex terminalPage savedPage)

/-! ### Reach -/

/-- The mappings of a view, one kind of page after the other. -/
inductive Maps (view : View) (page : BitVec 20) : Mapping → Prop
  | user (inside : page.toNat / 1024 = 32) :
      Maps view page ⟨userFrame view.owner ++ tableIndex page, true, true⟩
  | screen (terminal : Terminal) (here : page.toNat = terminalPage terminal) :
      Maps view page ⟨screenFrame view.terminal terminal, true, true⟩
  | video (here : page.toNat = videoMemIndex) :
      Maps view page ⟨BitVec.ofNat 20 videoMemIndex, false, true⟩
  | saved (here : page.toNat = savedPage) :
      Maps view page ⟨BitVec.ofNat 20 (terminalPage view.terminal), false, true⟩
  | kernel (inside : page.toNat / 1024 = 1) : Maps view page ⟨page, false, false⟩

theorem tableIndex_eq_iff {page : BitVec 20} (low : page.toNat / 1024 = 0) {index : Nat}
    (small : index < 1024) : tableIndex page = BitVec.ofNat 10 index ↔ page.toNat = index := by
  rw [← BitVec.toNat_inj, toNat_tableIndex, BitVec.toNat_ofNat]
  omega

theorem directoryIndex_eq_iff {page : BitVec 20} {index : Nat} (small : index < 1024) :
    directoryIndex page = BitVec.ofNat 10 index ↔ page.toNat / 1024 = index := by
  rw [← BitVec.toNat_inj, toNat_directoryIndex, BitVec.toNat_ofNat]
  omega

/-- A page below 4 MB is mapped as its entry of the table says. -/
theorem expected_of_low {view : View} {page : BitVec 20} {index : Nat} (here : page.toNat = index)
    (small : index < 1024) : expected view page = expectedTable view.terminal (BitVec.ofNat 10 index) := by
  have low : page.toNat / 1024 = 0 := by omega
  rw [expected, if_pos ((directoryIndex_eq_iff (by decide)).mpr low),
    (tableIndex_eq_iff low small).mpr here]

theorem kernel_frame {page : BitVec 20} (inside : page.toNat / 1024 = 1) :
    1#10 ++ tableIndex page = page := by
  apply BitVec.eq_of_toNat_eq
  rw [toNat_append_eq, toNat_tableIndex, BitVec.toNat_ofNat]
  omega

theorem expectedTable_terminalPage (current terminal : Terminal) :
    expectedTable current (BitVec.ofNat 10 (terminalPage terminal)) =
      some ⟨screenFrame current terminal, true, true⟩ := by
  revert current terminal
  decide

theorem expected_eq_some_iff {view : View} {page : BitVec 20} {mapping : Mapping} :
    expected view page = some mapping ↔ Maps view page mapping := by
  constructor
  · intro mapped
    unfold expected expectedTable at mapped
    split_ifs at mapped with low video first second third saved kernel user <;> cases mapped
    · rw [directoryIndex_eq_iff (by decide)] at low
      exact .video ((tableIndex_eq_iff low (by decide)).mp video)
    · rw [directoryIndex_eq_iff (by decide)] at low
      exact .screen 0 ((tableIndex_eq_iff low (by decide)).mp first)
    · rw [directoryIndex_eq_iff (by decide)] at low
      exact .screen 1 ((tableIndex_eq_iff low (by decide)).mp second)
    · rw [directoryIndex_eq_iff (by decide)] at low
      exact .screen 2 ((tableIndex_eq_iff low (by decide)).mp third)
    · rw [directoryIndex_eq_iff (by decide)] at low
      exact .saved ((tableIndex_eq_iff low (by decide)).mp saved)
    · rw [directoryIndex_eq_iff (by decide)] at kernel
      rw [kernel_frame kernel]
      exact .kernel kernel
    · exact .user ((directoryIndex_eq_iff (by decide)).mp user)
  · intro maps
    cases maps with
    | user inside =>
        have user := (directoryIndex_eq_iff (by decide : 32 < 1024)).mpr inside
        rw [expected, if_neg (by rw [user]; decide), if_neg (by rw [user]; decide), if_pos user]
    | screen terminal here =>
        rw [expected_of_low here (by unfold terminalPage videoMemIndex; omega)]
        exact expectedTable_terminalPage view.terminal terminal
    | video here =>
        rw [expected_of_low here (by decide)]
        rfl
    | saved here =>
        rw [expected_of_low here (by decide)]
        rfl
    | kernel inside =>
        have kernel := (directoryIndex_eq_iff (by decide : 1 < 1024)).mpr inside
        rw [expected, if_neg (by rw [kernel]; decide), if_pos kernel, kernel_frame inside]

/-- Where an access goes: what user programs reach, and behind it what only the
kernel does. The kernel's own 4 MB are read-only, so the kernel can write them
as long as the processor lets it ignore that. -/
inductive Reach (view : View) (writeProtect : Bool) (access : Access) (address physical : Word) :
    Prop
  | user (lower : 0x08000000 ≤ address.toNat) (upper : address.toNat < 0x08400000)
      (target : physical.toNat =
        (userFrame view.owner).toNat * 0x400000 + (address.toNat - 0x08000000))
  | screen (terminal : Terminal) (here : address.toNat / 4096 = terminalPage terminal)
      (target : physical.toNat =
        (screenFrame view.terminal terminal).toNat * 4096 + address.toNat % 4096)
  | video (supervisor : access.user = false) (here : address.toNat / 4096 = videoMemIndex)
      (target : physical = address)
  | saved (supervisor : access.user = false) (here : address.toNat / 4096 = savedPage)
      (target : physical.toNat = terminalPage view.terminal * 4096 + address.toNat % 4096)
  | kernel (supervisor : access.user = false) (inside : address.toNat / 0x400000 = 1)
      (unprotected : access.write = true → writeProtect = false) (target : physical = address)

theorem permits_user (frame : BitVec 20) (writeProtect : Bool) (access : Access) :
    Mapping.Permits ⟨frame, true, true⟩ writeProtect access :=
  ⟨fun _ => rfl, fun _ _ => rfl⟩

theorem permits_supervisor_iff {frame : BitVec 20} {writable writeProtect : Bool} {access : Access} :
    Mapping.Permits ⟨frame, false, writable⟩ writeProtect access ↔
      access.user = false ∧ (access.write = true → writeProtect = true → writable = true) := by
  unfold Mapping.Permits
  cases access.user <;> simp

theorem physical_eq_iff {frame : BitVec 20} {user writable : Bool} {address physical : Word} :
    Mapping.physical ⟨frame, user, writable⟩ address = physical ↔
      physical.toNat = frame.toNat * 4096 + address.toNat % 4096 := by
  rw [← BitVec.toNat_inj, toNat_physical]
  exact eq_comm

/-- The offset in a large page, in two steps and in one. -/
theorem user_address {address frame : Nat} (inside : address / 4096 / 1024 = 32) :
    (frame * 2 ^ 10 + address / 4096 % 1024) * 4096 + address % 4096 =
      frame * 0x400000 + (address - 0x08000000) := by
  omega

theorem terminalPage_mod (terminal : Terminal) :
    terminalPage terminal % 2 ^ 20 = terminalPage terminal := by
  revert terminal
  decide

theorem Represents.translate_iff {layout : Layout} {view : View} {kernel : PagedKernel}
    (represents : Represents layout view kernel) (access : Access) (address physical : Word) :
    kernel.mmu.translate access address = some physical ↔
      Reach view kernel.mmu.writeProtect access address physical := by
  have reached : kernel.mmu.translate access address = some physical ↔
      ∃ mapping, Maps view (pageOf address) mapping ∧
        mapping.Permits kernel.mmu.writeProtect access ∧ mapping.physical address = physical := by
    rw [Mmu.translate, represents.lookup, Option.bind_eq_some_iff]
    apply exists_congr
    intro mapping
    rw [expected_eq_some_iff, Option.ite_none_right_eq_some, Option.some.injEq]
  have page := toNat_pageOf address
  rw [reached]
  constructor
  · intro mapped
    obtain ⟨⟨frame, forUser, writable⟩, maps, permits, target⟩ := mapped
    rw [physical_eq_iff] at target
    cases maps with
    | user inside =>
        rw [toNat_append_eq, toNat_tableIndex, page] at target
        rw [page] at inside
        exact .user (by omega) (by omega) (target.trans (user_address inside))
    | screen terminal here => exact .screen terminal (page.symm.trans here) target
    | video here =>
        have supervisor := (permits_supervisor_iff.mp permits).1
        refine .video supervisor (page.symm.trans here) (BitVec.eq_of_toNat_eq ?_)
        rw [BitVec.toNat_ofNat] at target
        unfold videoMemIndex at target here
        omega
    | saved here =>
        have supervisor := (permits_supervisor_iff.mp permits).1
        rw [BitVec.toNat_ofNat] at target
        refine .saved supervisor (page.symm.trans here) (target.trans ?_)
        rw [terminalPage_mod]
    | kernel inside =>
        obtain ⟨supervisor, unprotected⟩ := permits_supervisor_iff.mp permits
        refine .kernel supervisor (by omega) ?_ (BitVec.eq_of_toNat_eq (by omega))
        intro write
        cases protect : kernel.mmu.writeProtect with
        | false => rfl
        | true => cases unprotected write protect
  · intro reach
    cases reach with
    | user lower upper target =>
        refine ⟨_, .user (by rw [page]; omega), permits_user .., physical_eq_iff.mpr ?_⟩
        rw [toNat_append_eq, toNat_tableIndex, page, target]
        exact (user_address (by omega)).symm
    | screen terminal here target =>
        exact ⟨_, .screen terminal (page.trans here), permits_user .., physical_eq_iff.mpr target⟩
    | video supervisor here target =>
        refine ⟨_, .video (page.trans here), permits_supervisor_iff.mpr ⟨supervisor, fun _ _ => rfl⟩,
          physical_eq_iff.mpr ?_⟩
        rw [target, BitVec.toNat_ofNat]
        unfold videoMemIndex at here ⊢
        omega
    | saved supervisor here target =>
        refine ⟨_, .saved (page.trans here), permits_supervisor_iff.mpr ⟨supervisor, fun _ _ => rfl⟩,
          physical_eq_iff.mpr ?_⟩
        rw [target, BitVec.toNat_ofNat, terminalPage_mod]
    | kernel supervisor inside unprotected target =>
        refine ⟨_, .kernel (by omega), permits_supervisor_iff.mpr ⟨supervisor, ?_⟩,
          physical_eq_iff.mpr ?_⟩
        · intro write protect
          rw [unprotected write] at protect
          cases protect
        · rw [target]
          omega

/-- **Reach.** In every state of every run, an access goes through exactly where the
view of the run lets it: user programs have 4 MB at 0x08000000, in the frame of
the process that was set up last, and the three text screens. -/
theorem reach_of_run {layout : Layout} {memory : Memory} (cleared : Cleared layout memory)
    (writeProtect : Bool) (ops : List Op) {final : PagedKernel}
    (ran : Step.run (step layout) (start layout writeProtect memory) ops = some final)
    (access : Access) (address physical : Word) :
    final.mmu.translate access address = some physical ↔
      Reach (viewOf ops) final.mmu.writeProtect access address physical :=
  ((represents_start cleared writeProtect).run ran).translate_iff access address physical

/-- After a process was set up, the kernel and user programs reach what they should. -/
theorem reach_of_setUp :
    ∃ final, Step.run (step sampleLayout) (start sampleLayout false fun _ => 0)
        [.setPagingForProcess 2] = some final ∧
      ∀ access address physical, final.mmu.translate access address = some physical ↔
        Reach ⟨some 2, 0⟩ final.mmu.writeProtect access address physical :=
  ⟨_, rfl, fun access address physical => reach_of_run (cleared_zero sampleLayout) false
    [.setPagingForProcess 2] rfl access address physical⟩

/-! ### Screens -/

/-- The tables have the page map that the screens are drawn through. -/
theorem frame_of_displays {video : Video} (displays : Displays video) {view : View}
    (shown : view.terminal = video.currentTerminal) {page : BitVec 20} {mapping : Mapping}
    (mapped : expected view page = some mapping) (low : page.toNat < 1024) :
    mapping.frame.toNat = video.pageTable page.toNat := by
  cases expected_eq_some_iff.mp mapped with
  | user inside => omega
  | screen terminal here =>
      rw [here, displays.terminalPages, ← shown, screenFrame]
      split_ifs
      · rfl
      · rw [BitVec.toNat_ofNat, terminalPage_mod]
  | video here =>
      rw [here, displays.kernelPage]
      rfl
  | saved here =>
      rw [here, displays.savedPage, ← shown, BitVec.toNat_ofNat, terminalPage_mod]
  | kernel inside => omega

/-- **The page map of the screens.** Whatever is drawn and whatever else happens to
memory, as long as the same terminal is on display the tables map the pages below 4
MB to the physical pages through which the screens are drawn. -/
theorem pageMap_of_run {layout : Layout} {memory : Memory} (cleared : Cleared layout memory)
    (writeProtect : Bool) (ops : List Op) {final : PagedKernel}
    (ran : Step.run (step layout) (start layout writeProtect memory) ops = some final)
    (shown : Nat → UInt8) (drawn : List Screen.Op)
    (same : final.currentTerminal = (drawn.foldl Video.step (Video.start shown)).currentTerminal)
    (page : BitVec 20) (low : page.toNat < 1024) (mapping : Mapping)
    (mapped : final.mmu.lookup page = some mapping) :
    mapping.frame.toNat = (drawn.foldl Video.step (Video.start shown)).pageTable page.toNat := by
  have represents := (represents_start cleared writeProtect).run ran
  rw [represents.lookup] at mapped
  exact frame_of_displays (Screen.displays_run (Screen.displays_start shown) drawn).1
    (represents.currentTerminal.symm.trans same) mapped low

/-- Terminal 1 comes on display in both. -/
theorem pageMap_of_switch :
    ∃ final, Step.run (step sampleLayout) (start sampleLayout false fun _ => 0)
        [.switchTerminal 1] = some final ∧
      final.mmu.lookup 0xBA = some ⟨0xB8, true, true⟩ ∧
      (0xB8 : BitVec 20).toNat =
        ([.switchTerminal 1 true].foldl Video.step (Video.start fun _ => 0)).pageTable 0xBA := by
  have cleared := cleared_zero sampleLayout
  have ran : ∃ final, Step.run (step sampleLayout) (start sampleLayout false fun _ => 0)
      [.switchTerminal 1] = some final := ⟨_, rfl⟩
  obtain ⟨final, ran⟩ := ran
  have represents := (represents_start cleared false).run ran
  have mapped : final.mmu.lookup 0xBA = some ⟨0xB8, true, true⟩ := by
    rw [represents.lookup]
    decide
  have same : final.currentTerminal =
      ([.switchTerminal 1 true].foldl Video.step (Video.start fun _ => 0)).currentTerminal :=
    represents.currentTerminal.trans rfl
  exact ⟨final, ran, mapped, pageMap_of_run cleared false _ ran (fun _ => 0)
    [.switchTerminal 1 true] same 0xBA (by decide) _ mapped⟩

/-! ### Isolation -/

/-- A byte of the 4 MB of a process. -/
def InFrame (pid : Pid) (physical : Word) : Prop := physical.toNat / 0x400000 = 2 + pid.val

instance decidableInFrame (pid : Pid) (physical : Word) : Decidable (InFrame pid physical) :=
  inferInstanceAs (Decidable (_ = _))

/-- Paging is set up for a process: the first page of user programs is the first
of its frame. -/
def SetUpFor (pid : Pid) (kernel : PagedKernel) : Prop :=
  kernel.mmu.walk 0x08000#20 = some ⟨userFrame (some pid) ++ 0#10, true, true⟩

/-- User programs store while paging is set up for others, and the kernel stores elsewhere. -/
def Spares (pid : Pid) (kernel : PagedKernel) : Op → Prop
  | .userStore _ _ => ¬ SetUpFor pid kernel
  | .kernelStore physical _ => ¬ InFrame pid physical
  | .pointerStore address _ => ∀ physical,
      kernel.mmu.translate ⟨false, true⟩ address = some physical → ¬ InFrame pid physical
  | _ => True

theorem Represents.setUpFor {layout : Layout} {view : View} {kernel : PagedKernel} {pid : Pid}
    (represents : Represents layout view kernel) (owner : view.owner = some pid) :
    SetUpFor pid kernel := by
  rw [SetUpFor, represents.walk, expected, owner]
  rfl

theorem toNat_userFrame_eq_iff {owner : Option Pid} {pid : Pid} :
    (userFrame owner).toNat = 2 + pid.val ↔ owner = some pid := by
  revert owner pid
  decide

theorem toNat_screenFrame_lt (current terminal : Terminal) :
    (screenFrame current terminal).toNat < 1024 := by
  revert current terminal
  decide

/-- The tables are not in the frames of processes. -/
theorem InFrame.pageOf_ne {pid : Pid} {physical : Word} (inside : InFrame pid physical)
    {table : BitVec 20} (inKernel : directoryIndex table = 1) : pageOf physical ≠ table := by
  intro same
  have number : (directoryIndex table).toNat = 1 := by
    rw [inKernel]
    rfl
  rw [← same, toNat_directoryIndex, toNat_pageOf] at number
  unfold InFrame at inside
  omega

/-- A user program reaches the frame of another process nowhere. -/
theorem Reach.not_inFrame {view : View} {writeProtect : Bool} {access : Access}
    {address physical : Word} {pid : Pid} (user : access.user = true)
    (reach : Reach view writeProtect access address physical) (other : view.owner ≠ some pid) :
    ¬ InFrame pid physical := by
  unfold InFrame
  cases reach with
  | user lower upper target =>
      have frame := mt toNat_userFrame_eq_iff.mp other
      omega
  | screen terminal here target =>
      have small := toNat_screenFrame_lt view.terminal terminal
      omega
  | video supervisor here target => rw [user] at supervisor; cases supervisor
  | saved supervisor here target => rw [user] at supervisor; cases supervisor
  | kernel supervisor inside unprotected target => rw [user] at supervisor; cases supervisor

/-- One operation that spares a process leaves its memory alone. -/
theorem Represents.frame_kept {layout : Layout} {view : View} {kernel next : PagedKernel} {op : Op}
    (represents : Represents layout view kernel) (taken : Paging.step layout kernel op = some next)
    {pid : Pid} (spares : Spares pid kernel op) {physical : Word} (inside : InFrame pid physical) :
    next.mmu.memory physical = kernel.mmu.memory physical := by
  have notDirectory := inside.pageOf_ne layout.directoryInKernel
  have notTable := inside.pageOf_ne layout.tableInKernel
  cases op with
  | setPagingForProcess set =>
      cases taken
      exact storeWord_of_pageOf_ne notDirectory ..
  | switchTerminal termId =>
      cases taken
      split_ifs
      · rfl
      · exact (storeWord_of_pageOf_ne notTable ..).trans
          ((storeWord_of_pageOf_ne notTable ..).trans (storeWord_of_pageOf_ne notTable ..))
  | touch page write =>
      cases taken
      apply mark_of_pageOf_ne
      · rwa [represents.directory]
      · intro frame user writable isTable
        rw [represents.directory, represents.tables.directory] at isTable
        unfold expectedDirectory at isTable
        split_ifs at isTable
        cases isTable
        exact notTable
  | userStore address byte =>
      obtain ⟨target, reached, rfl⟩ := Option.map_eq_some_iff.mp taken
      have reach := (represents.translate_iff ..).mp reached
      have other : view.owner ≠ some pid := fun owner => spares (represents.setUpFor owner)
      apply Function.update_of_ne
      rintro rfl
      exact reach.not_inFrame rfl other inside
  | kernelStore target byte =>
      obtain ⟨-, rfl⟩ := storeOutside_eq_some taken
      apply Function.update_of_ne
      rintro rfl
      exact spares inside
  | pointerStore address byte =>
      obtain ⟨target, reached, stored⟩ := Option.bind_eq_some_iff.mp taken
      obtain ⟨-, rfl⟩ := storeOutside_eq_some stored
      apply Function.update_of_ne
      rintro rfl
      exact spares _ reached inside

/-- **Isolation of processes.** From any state of any run on, the 4 MB of a process keep
their contents for as long as user programs store only while paging is set up for
other processes, and the kernel stores elsewhere. -/
theorem frame_isolated {layout : Layout} {memory : Memory} (cleared : Cleared layout memory)
    (writeProtect : Bool) (before ops : List Op) {middle final : PagedKernel}
    (reached : Step.run (step layout) (start layout writeProtect memory) before = some middle)
    (ran : Step.run (step layout) middle ops = some final) (pid : Pid)
    (spared : Step.AllSteps (step layout) (Spares pid) middle ops) (physical : Word)
    (inside : InFrame pid physical) :
    final.mmu.memory physical = middle.mmu.memory physical := by
  have represents := (represents_start cleared writeProtect).run reached
  generalize before.foldl View.step ⟨none, 0⟩ = view at represents
  clear reached
  induction ops generalizing view middle with
  | nil =>
      cases ran
      rfl
  | cons op ops inductionHypothesis =>
      obtain ⟨next, taken, rest⟩ := (Step.run_cons_eq_some _).mp ran
      obtain ⟨here, later⟩ := spared next taken
      have kept := represents.frame_kept taken here inside
      exact (inductionHypothesis rest later _ (represents.step taken)).trans kept

/-- Process 1 stores a byte, and process 0 keeps its memory. -/
theorem frame_isolated_oneStore :
    ∃ middle final, Step.run (step sampleLayout) (start sampleLayout false fun _ => 0)
        [.setPagingForProcess 1] = some middle ∧
      Step.run (step sampleLayout) middle [.userStore 0x08000000 7] = some final ∧
      final.mmu.memory 0x800000 = middle.mmu.memory 0x800000 := by
  have cleared := cleared_zero sampleLayout
  have reached : ∃ middle, Step.run (step sampleLayout) (start sampleLayout false fun _ => 0)
      [.setPagingForProcess 1] = some middle := ⟨_, rfl⟩
  obtain ⟨middle, reached⟩ := reached
  have represents : Represents sampleLayout ⟨some 1, 0⟩ middle :=
    (represents_start cleared false).run reached
  have target : middle.mmu.translate ⟨true, true⟩ 0x08000000 = some 0xC00000 :=
    (represents.translate_iff ..).mpr (.user (by decide) (by decide) rfl)
  have taken : Paging.step sampleLayout middle (.userStore 0x08000000 7) =
      some { middle with mmu.memory := Function.update middle.mmu.memory 0xC00000 7 } := by
    rw [Paging.step, target]
    rfl
  have ran : Step.run (Paging.step sampleLayout) middle [.userStore 0x08000000 7] =
      some { middle with mmu.memory := Function.update middle.mmu.memory 0xC00000 7 } := by
    rw [Step.run_cons, taken]
    rfl
  have spared : ¬ SetUpFor 0 middle := by
    rw [SetUpFor, represents.walk]
    decide
  exact ⟨middle, _, reached, ran, frame_isolated cleared false _ _ reached ran 0
    (fun _ _ => ⟨spared, trivial⟩) 0x800000 (by decide)⟩

end MonolithicKernel.Paging
