import Linux011.Mm.Undo
import Linux011.Mm.Runs
import Linux011.Proc.Fork

/-!
# A fork that runs out of memory

`copy_process` returns `-EAGAIN` when it gets no page for the task structure
or when `copy_mem` gets no page for a page table.  In the second case counts
have been raised and entries of the parent protected; what is left afterwards
is the state before the call but for write protection.
-/

namespace Linux011.Proc

open Linux011.Mm

/-- What holds when `sys_fork` calls `copy_process(nr, ...)` in task
`parentNr`. -/
structure ForkReady (layout : Layout) (holds : Nat → Nat) (system : System)
    (nr parentNr : Nat) (parent : TaskStruct) : Prop where
  valid : Valid layout system.memory holds
  isParent : system.task parentNr = some parent
  parentSlot : parentNr < 64
  childSlot : 1 ≤ nr ∧ nr < 64
  free : system.task nr = none
  window : parent.dataSegment.base = windowBase parentNr
  fits : parent.dataSegment.limit ≤ 0x4000000
  /-- The first task has the first 640 kB only. -/
  first : parentNr = 0 → parent.dataSegment.limit ≤ 0xA0 * 4096
  /-- The page tables of `head.s`, which the first task runs on. -/
  kernelTables : ∀ dir, dir < 16 → (system.memory.pde dir).present = true →
    (system.memory.pde dir).page ≠ 0 ∧ (system.memory.pde dir).page < lowMem
  /-- The window of a free slot has no page tables left. -/
  empty : ∀ dir, nr * 16 ≤ dir → dir < nr * 16 + 16 →
    (system.memory.pde dir).present = false
  /-- `find_empty_process` has just made the pid. -/
  positive : 0 < system.lastPid

theorem ForkReady.different {layout : Layout} {holds : Nat → Nat}
    {system : System} {nr parentNr : Nat} {parent : TaskStruct}
    (ready : ForkReady layout holds system nr parentNr parent) :
    parentNr ≠ nr := by
  rintro rfl
  have free := ready.free
  rw [ready.isParent] at free
  cases free

/-- A failed `copy_process` has left everything as it was. -/
structure ForkUndone (system : System) (nr parentNr : Nat)
    (next : System) : Prop where
  slot : next.task nr = none
  memMap : ∀ index, next.memory.memMap index = system.memory.memMap index
  files : ∀ f, (next.fileTable f).fCount = (system.fileTable f).fCount
  inodes : ∀ inode, next.iCount inode = system.iCount inode
  window : ∀ dir, nr * 16 ≤ dir → dir < nr * 16 + 16 →
    (next.memory.pde dir).present = false
  parent : ∀ dir index, parentNr * 16 ≤ dir → dir < parentNr * 16 + 16 →
    index < 1024 → (system.memory.pde dir).present = true →
      next.memory.pde dir = system.memory.pde dir ∧
        ∀ entry, system.memory.phys (system.memory.pde dir).page index =
          entry → entry.present = true →
            Word.target (next.memory.phys (next.memory.pde dir).page index) =
              some entry.page

variable {layout : Layout} {holds : Nat → Nat} {system next : System}
  {nr parentNr : Nat} {parent : TaskStruct}

/-- A failing `copy_mem` has freed what its copy made. -/
theorem copyMem_failed {memory final : Mm.State} {p made : TaskStruct}
    (run : copyMem nr parent p memory = .ok (false, made, final)) :
    ∃ middle, copyPageTables parent.dataSegment.base (windowBase nr)
        parent.dataSegment.limit memory = .ok (false, middle) ∧
      freePageTables (windowBase nr) parent.dataSegment.limit middle =
        .ok final := by
  unfold copyMem at run
  dsimp only at run
  split at run
  · cases run
  split at run
  · cases run
  obtain ⟨⟨copied, middle⟩, copy, rest⟩ := of_bind_ok run
  cases copied with
  | true => simp [pure, Except.pure] at rest
  | false =>
      obtain ⟨freed, free, last⟩ := of_bind_ok rest
      simp only [pure, Except.pure, Except.ok.injEq, Prod.mk.injEq, true_and]
        at last
      rw [← last.2]
      exact ⟨middle, copy, free⟩

/-- The page taken for the task structure, given back after the undone
copy. -/
theorem pageReturned {memory taken undone final : Mm.State} {page : Nat}
    (valid : Valid layout memory holds)
    (getting : Taken layout memory holds page taken)
    (undoing : Undone layout taken (take holds page)
      (fun dir => nr * 16 ≤ dir ∧ dir < nr * 16 + 16) undone)
    (freeing : freePage page undone = .ok final) :
    Undone layout memory holds
      (fun dir => nr * 16 ≤ dir ∧ dir < nr * 16 + 16) final := by
  obtain ⟨freed, freedValid⟩ :=
    freePage_held undoing.valid (take_pos holds page)
  rw [give_take] at freedValid
  rw [freed, Except.ok.injEq] at freeing
  subst freeing
  have takenPde : taken.pde = memory.pde := congrArg View.dirs getting.view
  have takenEntries : taken.view.entries = memory.view.entries := by
    rw [getting.view]
    rfl
  have takenMap : taken.memMap =
      (memory.view.setCount page 1).memMap :=
    congrArg View.memMap getting.view
  have zero : memory.memMap (mapNr page) = 0 := by
    have count := valid.exact.count page getting.managed
    rw [getting.unmapped, getting.notTable, getting.unheld] at count
    exact UInt8.toNat_inj.mp count
  refine ⟨freedValid, ?_, undoing.absent, ?_, ?_, ?_⟩
  · funext index
    show (if index = mapNr page then (0 : UInt8) else undone.memMap index) =
      memory.memMap index
    split <;> rename_i here
    · rw [here, zero]
    · rw [undoing.memMap, takenMap]
      show (if index = mapNr page then (1 : UInt8)
        else memory.memMap index) = memory.memMap index
      rw [if_neg here]
  · intro dir outside
    show undone.pde dir = memory.pde dir
    rw [undoing.remain dir outside, takenPde]
  · intro slot
    show undone.view.mappings slot = memory.view.mappings slot
    rw [undoing.mappings slot]
    unfold View.mappings
    rw [takenEntries]
  · intro frame notZero reserved
    show undone.phys frame = memory.phys frame
    rw [undoing.reserved frame notZero reserved]
    apply getting.others
    rintro rfl
    exact reserved getting.managed

/-- The page tables of the parent, seen through an undone copy. -/
theorem parent_kept {final : Mm.State}
    (ready : ForkReady layout holds system nr parentNr parent)
    (undoing : Undone layout system.memory holds
      (fun dir => nr * 16 ≤ dir ∧ dir < nr * 16 + 16) final)
    (dir index : Nat) (fromBase : parentNr * 16 ≤ dir)
    (below : dir < parentNr * 16 + 16) (inTable : index < 1024)
    (table : (system.memory.pde dir).present = true) :
    final.pde dir = system.memory.pde dir ∧
      ∀ entry, system.memory.phys (system.memory.pde dir).page index =
        entry → entry.present = true →
          Word.target (final.phys (final.pde dir).page index) =
            some entry.page := by
  have different := ready.different
  have samePde : final.pde dir = system.memory.pde dir :=
    undoing.remain dir (by omega)
  refine ⟨samePde, ?_⟩
  rintro entry rfl isPresent
  by_cases isFirst : parentNr = 0
  · obtain ⟨notZero, low⟩ := ready.kernelTables dir (by omega) table
    have kept := undoing.reserved _ notZero fun managed => by
      have := managed.lowMem_le
      omega
    rw [samePde, kept]
    exact Word.target_eq_some.mpr ⟨isPresent, rfl⟩
  · have parentSlot := ready.parentSlot
    have slot : (dir, index) ∈ userSlots :=
      mem_userSlots.mpr ⟨mem_userDirs.mpr ⟨by omega, by omega⟩, inTable⟩
    have before := State.pte_eq slot table
    have after : final.pte dir index =
        final.phys (final.pde dir).page index :=
      State.pte_eq slot (by rw [samePde]; exact table)
    rw [← after, ← before]
    rw [← before] at isPresent
    refine (undoing.mappings (dir, index)).trans ?_
    exact Word.target_eq_some.mpr ⟨isPresent, rfl⟩

theorem copyProcess_failed {registers : Registers}
    (ready : ForkReady layout holds system nr parentNr parent)
    (failed : copyProcess nr parent registers system = .ok (-11, next)) :
    ForkUndone system nr parentNr next := by
  have keptBy {final : Mm.State}
      (undoing : Undone layout system.memory holds
        (fun dir => nr * 16 ≤ dir ∧ dir < nr * 16 + 16) final)
      (memory : next.memory = final) (slot : next.task nr = none)
      (files : next.fileTable = system.fileTable)
      (inodes : next.iCount = system.iCount) :
      ForkUndone system nr parentNr next := by
    subst memory
    exact
      { slot := slot
        memMap := congrFun undoing.memMap
        files := fun f => by rw [files]
        inodes := congrFun inodes
        window := fun dir fromBase below =>
          undoing.absent dir ⟨fromBase, below⟩
        parent := parent_kept ready undoing }
  unfold copyProcess at failed
  cases found : getFreePage system.memory with
  | mk result taken =>
      rw [found] at failed
      cases result with
      | none =>
          have same := getFreePage_none found
          subst same
          simp only [Except.ok.injEq, Prod.mk.injEq, true_and] at failed
          subst failed
          refine keptBy ?_ rfl ready.free rfl rfl
          exact
            { valid := ready.valid
              memMap := rfl
              absent := fun dir window => ready.empty dir window.1 window.2
              remain := fun _ _ => rfl
              mappings := fun _ => rfl
              reserved := fun _ _ _ => rfl }
      | some page =>
          have getting := getFreePage_some ready.valid found
          have takenPde : taken.pde = system.memory.pde :=
            congrArg View.dirs getting.view
          obtain ⟨⟨copied, made, final⟩, copy, rest⟩ := of_bind_ok failed
          cases copied with
          | true =>
              simp only [if_true, pure, Except.pure, Except.ok.injEq,
                Prod.mk.injEq] at rest
              have positive := ready.positive
              have returned : system.lastPid = -11 := rest.1
              omega
          | false =>
              obtain ⟨middle, copying, freeing⟩ := copyMem_failed copy
              rw [ready.window] at copying
              obtain ⟨undone, free, undoing⟩ := copyPageTables_undone
                getting.valid ready.childSlot ready.parentSlot ready.different
                ready.fits ready.first
                (by rw [takenPde]; exact ready.empty) copying
              rw [freeing, Except.ok.injEq] at free
              subst free
              obtain ⟨returned, freed, last⟩ := of_bind_ok rest
              simp only [pure, Except.pure, Except.ok.injEq, Prod.mk.injEq,
                true_and] at last
              subst last
              exact keptBy (pageReturned ready.valid getting undoing freed)
                rfl (System.setTask_same _ nr none) rfl rfl

/-- Running out of page tables is never a panic. -/
theorem copyProcess_returns {registers : Registers} {page : Nat}
    {taken middle : Mm.State}
    (ready : ForkReady layout holds system nr parentNr parent)
    (sameBase : parent.codeSegment.base = parent.dataSegment.base)
    (limits : parent.codeSegment.limit ≤ parent.dataSegment.limit)
    (found : getFreePage system.memory = (some page, taken))
    (copy : copyPageTables (windowBase parentNr) (windowBase nr)
      parent.dataSegment.limit taken = .ok (false, middle)) :
    ∃ next, copyProcess nr parent registers system = .ok (-11, next) := by
  have getting := getFreePage_some ready.valid found
  have takenPde : taken.pde = system.memory.pde :=
    congrArg View.dirs getting.view
  obtain ⟨undone, free, undoing⟩ := copyPageTables_undone
    getting.valid ready.childSlot ready.parentSlot ready.different
    ready.fits ready.first (by rw [takenPde]; exact ready.empty) copy
  have returned :=
    (freePage_held undoing.valid (take_pos holds page)).1
  have copied (p : TaskStruct) : copyMem nr parent p taken =
      .ok (false, setBase (windowBase nr) p, undone) := by
    unfold copyMem
    dsimp only
    rw [if_neg (by simp [sameBase]), if_neg (Nat.not_lt.mpr limits),
      ready.window]
    exact bind_ok copy (bind_ok free rfl)
  refine ⟨{ (({ system with memory := taken }.setTask nr
    (some (newTask nr page parent registers system))).setTask nr none) with
      memory := undone.setMap (mapNr page) 0 }, ?_⟩
  unfold copyProcess
  rw [found]
  exact bind_ok (copied _) (bind_ok returned rfl)

section OnePage

/-- A machine whose main memory is a single page. -/
def onePage : MemoryLimits where
  startMem := 0xfff000
  endMem := 0x1000000
  low := by decide
  ordered := by decide
  high := sixteenMegabytes.high

/-- The first task before its fork, on that machine. -/
def lonelyTask : System where
  memory := boot onePage zeroMemory
  task := fun nr => if nr = 0 then some (initTask 5) else none
  lastPid := 1
  jiffies := 0
  fileTable := fun _ => ⟨0, 0, 0, none, 0⟩
  iCount := fun _ => 0

theorem lonelyTask_memory : lonelyTask.memory = boot onePage zeroMemory :=
  rfl

theorem initTask_limit (page : Nat) :
    (initTask page).dataSegment.limit = 0xA0000 := rfl

theorem lonelyTask_ready :
    ForkReady onePage.layout (fun _ => 0) lonelyTask 1 0 (initTask 5) where
  valid := boot_valid onePage zeroMemory
  isParent := rfl
  parentSlot := by decide
  childSlot := by decide
  free := rfl
  window := by
    rw [windowBase_eq_zero.mpr rfl]
    rfl
  fits := by
    rw [initTask_limit]
    omega
  first := by
    rw [initTask_limit]
    omega
  kernelTables := by
    intro dir below isPresent
    have directory : lonelyTask.memory.pde dir =
        if dir < 4 then Word.user (dir + 1) else 0#32 := rfl
    rw [directory] at isPresent ⊢
    split <;> rename_i isTable
    · rw [Word.page_user (by omega)]
      unfold lowMem
      omega
    · rw [if_neg isTable] at isPresent
      simp at isPresent
  empty := by
    intro dir fromBase below
    show ((boot onePage zeroMemory).pde dir).present = false
    rw [boot_pde (mem_userDirs.mpr ⟨by omega, by omega⟩)]
    rfl
  positive := by decide

/-- Once the page is taken, there is no page for a page table. -/
theorem onePage_exhausted {memory : Mm.State} {frame : Nat}
    {taken : Mm.State}
    (getting : Taken onePage.layout memory (fun _ => 0) frame taken) :
    getFreePage taken = (none, taken) := by
  cases found : getFreePage taken with
  | mk result rest =>
      cases result with
      | none => rw [getFreePage_none found]
      | some second =>
          have again := getFreePage_some getting.valid found
          have unheld := again.unheld
          have only : second = frame := by
            have first := getting.managed
            have last := again.managed
            have start : onePage.layout.first = 4095 := rfl
            have stop : onePage.layout.last = 4096 := rfl
            unfold Layout.Managed at first last
            omega
          rw [only] at unheld
          simp [take] at unheld

theorem lonelyTask_fails (registers : Registers) :
    ∃ next, copyProcess 1 (initTask 5) registers lonelyTask =
      .ok (-11, next) := by
  have ready := lonelyTask_ready
  have managed : onePage.layout.Managed 4095 := by
    unfold Layout.Managed
    decide
  have unused : lonelyTask.memory.view.count 4095 = 0 := by
    have free : (boot onePage zeroMemory).memMap (mapNr 4095) = 0 :=
      (memInit_free onePage zeroMemory (by decide)).mpr managed
    unfold View.count
    rw [State.view_memMap, lonelyTask_memory, free]
    rfl
  have available := getFreePage_isSome managed unused
  cases found : getFreePage lonelyTask.memory with
  | mk result taken =>
      rw [found] at available
      cases result with
      | none => cases available
      | some page =>
          have getting := getFreePage_some ready.valid found
          have takenPde : taken.pde = lonelyTask.memory.pde :=
            congrArg View.dirs getting.view
          refine copyProcess_returns ready rfl (le_refl _) found
            (?_ : copyPageTables _ _ _ taken = .ok (false, taken))
          rw [copyPageTables_window (by decide) (by decide)]
          have rounds :
              ((initTask 5).dataSegment.limit + 0x3fffff) / 2 ^ 22 = 1 := by
            rw [initTask_limit]
            omega
          rw [rounds]
          simp only [copyTables]
          rw [takenPde, if_neg (by simp [ready.empty]),
            if_neg (by decide), onePage_exhausted getting]

theorem copyProcess_failed_lonelyTask :
    ∃ next, copyProcess 1 (initTask 5) (initTask 5).tss.registers lonelyTask =
        .ok (-11, next) ∧ ForkUndone lonelyTask 1 0 next := by
  obtain ⟨next, failed⟩ := lonelyTask_fails (initTask 5).tss.registers
  exact ⟨next, failed, copyProcess_failed lonelyTask_ready failed⟩

end OnePage

end Linux011.Proc
