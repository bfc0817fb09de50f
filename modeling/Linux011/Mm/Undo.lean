import Linux011.Mm.Fork

/-!
# A copy of page tables taken back

`free_page_tables` after a `copy_page_tables` that ran out of memory.  The
copy has raised counts and protected entries up to the page table it could
not get; the teardown of the same directory entries takes back exactly the
mappings and tables the copy made, so `mem_map` is what it was.
-/

namespace Linux011.Mm

open RefCount

variable {layout : Layout} {state middle next : State} {holds : Nat → Nat}

/-- The `mem_map` entries of the frames `mem_init` did not mark free stay. -/
def ReservedStay (layout : Layout) (state next : State) : Prop :=
  ∀ nr, ¬ layout.Managed (lowMem + nr) → next.memMap nr = state.memMap nr

namespace ReservedStay

theorem refl (layout : Layout) (state : State) :
    ReservedStay layout state state :=
  fun _ _ => rfl

theorem trans (first : ReservedStay layout state middle)
    (second : ReservedStay layout middle next) :
    ReservedStay layout state next := by
  intro nr reserved
  rw [second nr reserved, first nr reserved]

theorem of_sameMap (same : next.memMap = state.memMap) :
    ReservedStay layout state next :=
  fun nr _ => congrFun same nr

theorem of_setMap {frame : Nat} {value : UInt8}
    (managed : layout.Managed frame)
    (counted : next.memMap = (state.setMap (mapNr frame) value).memMap) :
    ReservedStay layout state next := by
  intro nr reserved
  have different : nr ≠ mapNr frame := by
    intro same
    apply reserved
    have low := managed.lowMem_le
    have back : lowMem + nr = frame := by
      unfold mapNr at same
      omega
    rw [back]
    exact managed
  rw [counted]
  simp [State.setMap, different]

end ReservedStay

theorem getFreePage_reservedStay {frame : Nat}
    (valid : Valid layout state holds)
    (found : getFreePage state = (some frame, next)) :
    ReservedStay layout state next := by
  have taken := getFreePage_some valid found
  exact .of_setMap taken.managed (congrArg View.memMap taken.view)

section Copying

theorem copyEntry_reservedStay (valid : Valid layout state holds)
    {fromDir toDir nr : Nat} (copyable : Copyable fromDir toDir nr)
    (inRange : nr < 1024) (sourceTable : (state.pde fromDir).present = true)
    (target : Nat) :
    ReservedStay layout state
      (copyEntry (state.pde fromDir).page target nr state) := by
  unfold copyEntry
  dsimp only
  by_cases wordPresent :
      (state.phys (state.pde fromDir).page nr).present = true
  · rw [if_neg (by simp [wordPresent])]
    have copyPresent := (Word.present_protect _).trans wordPresent
    have test := Word.lowMem_lt_iff copyPresent
    rw [Word.page_protect] at test
    split <;> rename_i counted
    · have high := test.mp counted
      rcases copyable with ⟨isUser, _⟩ | ⟨rfl, kernelPage⟩
      · have slot : (fromDir, nr) ∈ userSlots :=
          mem_userSlots.mpr ⟨isUser, inRange⟩
        have entry := State.pte_eq slot sourceTable
        have maps : state.view.mappings (fromDir, nr) =
            some (state.pte fromDir nr).page :=
          Word.target_eq_some.mpr
            ⟨(congrArg Word.present entry).trans wordPresent, rfl⟩
        rw [← entry] at high ⊢
        have managed : layout.Managed (state.pte fromDir nr).page :=
          valid.exact.managed_of_mapped slot maps high
        rw [mapNr_protect high]
        exact .of_setMap managed rfl
      · have low := valid.identity nr kernelPage
        unfold lowMem at low
        omega
    · exact .of_sameMap rfl
  · rw [if_pos wordPresent]
    exact .refl layout state

theorem copyEntries_reservedStay (valid : Valid layout state holds)
    {fromDir toDir count : Nat}
    (copyable : ∀ nr, nr < count → Copyable fromDir toDir nr)
    (targetDirs : toDir ∈ userDirs) (inRange : count ≤ 1024)
    (sourceTable : (state.pde fromDir).present = true)
    (targetTable : (state.pde toDir).present = true)
    (different : fromDir ≠ toDir)
    (empty : ∀ index, (state.pte toDir index).present = false) :
    ReservedStay layout state
      (copyEntries (state.pde fromDir).page (state.pde toDir).page count
        state) := by
  induction count with
  | zero => exact .refl layout state
  | succ nr induction =>
      have before := fun index (below : index < nr) =>
        copyable index (by omega)
      obtain ⟨forked, samePde, _⟩ := copyEntries_spec valid before targetDirs
        (by omega) sourceTable targetTable different empty
      have last := copyEntry_reservedStay forked.valid
        (copyable nr (Nat.lt_succ_self nr)) (by omega)
        (by rw [samePde]; exact sourceTable) (state.pde toDir).page
      rw [samePde] at last
      exact (induction before (by omega)).trans last

theorem copyTable_reservedStay (valid : Valid layout state holds)
    {fromDir toDir count table : Nat}
    (copyable : ∀ nr, nr < count → Copyable fromDir toDir nr)
    (targetDirs : toDir ∈ userDirs) (inRange : count ≤ 1024)
    (sourceTable : (state.pde fromDir).present = true)
    (noTable : (state.pde toDir).present = false)
    (found : getFreePage state = (some table, middle)) :
    ReservedStay layout state
      (copyEntries (state.pde fromDir).page table count
        (middle.setWord 0 toDir (Word.user table))) := by
  have taken := getFreePage_some valid found
  have different : fromDir ≠ toDir := by
    rintro rfl
    rw [sourceTable] at noTable
    cases noTable
  obtain ⟨enteredValid, _, _⟩ := installed targetDirs noTable taken
  have enteredPde := installed_pde taken targetDirs noTable
  have enteredPte := installed_pte taken targetDirs noTable
  have fromPde : (middle.setWord 0 toDir (Word.user table)).pde fromDir =
      state.pde fromDir := by
    rw [enteredPde, if_neg different]
  have toPde : (middle.setWord 0 toDir (Word.user table)).pde toDir =
      Word.user table := by
    rw [enteredPde, if_pos rfl]
  have copied := copyEntries_reservedStay enteredValid copyable targetDirs
    inRange (by rw [fromPde]; exact sourceTable) (by rw [toPde]; simp)
    different
    (by
      intro index
      rw [enteredPte, State.pte_eq_zero noTable]
      simp)
  rw [fromPde, toPde, Word.page_user taken.managed.small] at copied
  have opened : ReservedStay layout middle
      (middle.setWord 0 toDir (Word.user table)) := .of_sameMap rfl
  exact ((getFreePage_reservedStay valid found).trans opened).trans copied

theorem copyTables_reservedStay (valid : Valid layout state holds)
    {entries fromDir toDir size : Nat} {copied : Bool}
    (entriesLe : entries ≤ 1024)
    (copyable : ∀ round, round < size → ∀ nr, nr < entries →
      Copyable (fromDir + round) (toDir + round) nr)
    (low : 16 ≤ toDir) (high : toDir + size ≤ 1024)
    (run : copyTables entries fromDir toDir size state =
      .ok (copied, next)) :
    ReservedStay layout state next := by
  induction size generalizing fromDir toDir state with
  | zero =>
      simp only [copyTables, Except.ok.injEq, Prod.mk.injEq] at run
      rw [← run.2]
      exact .refl layout state
  | succ size induction =>
      have shifted : ∀ round, round < size → ∀ nr, nr < entries →
          Copyable (fromDir + 1 + round) (toDir + 1 + round) nr := by
        intro round inRounds nr inEntries
        have := copyable (round + 1) (by omega) nr inEntries
        rwa [show fromDir + 1 + round = fromDir + (round + 1) by omega,
          show toDir + 1 + round = toDir + (round + 1) by omega]
      have firstRound : ∀ nr, nr < entries → Copyable fromDir toDir nr :=
        fun nr inEntries => copyable 0 (by omega) nr inEntries
      have targetDirs : toDir ∈ userDirs :=
        mem_userDirs.mpr ⟨low, by omega⟩
      unfold copyTables at run
      by_cases occupied : (state.pde toDir).present = true
      · rw [if_pos occupied] at run
        cases run
      · rw [if_neg occupied] at run
        by_cases sourceTable : (state.pde fromDir).present = true
        · rw [if_neg (by simp [sourceTable])] at run
          cases found : getFreePage state with
          | mk result middle =>
              rw [found] at run
              cases result with
              | none =>
                  have same := getFreePage_none found
                  simp only [Except.ok.injEq, Prod.mk.injEq] at run
                  rw [← run.2, same]
                  exact .refl layout state
              | some table =>
                  have noTable : (state.pde toDir).present = false := by
                    simpa using occupied
                  have forked := copyTable_spec valid firstRound targetDirs
                    entriesLe sourceTable noTable found
                  have rest := induction forked.valid shifted (by omega)
                    (by omega) run
                  exact (copyTable_reservedStay valid firstRound targetDirs
                    entriesLe sourceTable noTable found).trans rest
        · rw [if_pos sourceTable] at run
          exact induction valid shifted (by omega) (by omega) run

end Copying

section Freeing

theorem freeEntry_reservedStay (valid : Valid layout state holds)
    {dir nr : Nat} (member : (dir, nr) ∈ userSlots)
    (isPresent : (state.pde dir).present = true)
    (run : freeEntry (state.pde dir).page nr state = .ok next) :
    ReservedStay layout state next := by
  unfold freeEntry at run
  rw [← State.pte_eq member isPresent] at run
  by_cases entryPresent : (state.pte dir nr).present = true
  · have maps : state.view.mappings (dir, nr) =
        some (state.pte dir nr).page :=
      Word.target_eq_some.mpr ⟨entryPresent, rfl⟩
    rw [if_pos entryPresent, freePage_mapped valid member maps] at run
    simp only [bind, Except.bind, pure, Except.pure, Except.ok.injEq] at run
    rw [← run]
    intro index reserved
    show dropCount state.memMap (state.pte dir nr).page index =
      state.memMap index
    unfold dropCount
    split <;> rename_i here
    · have back : lowMem + index = (state.pte dir nr).page := by
        have same := here.2
        unfold mapNr at same
        omega
      have managed := valid.exact.managed_of_mapped member maps here.1
      exact (reserved (back ▸ managed)).elim
    · rfl
  · rw [if_neg entryPresent] at run
    simp only [bind, Except.bind, pure, Except.pure, Except.ok.injEq] at run
    rw [← run]
    exact .of_sameMap rfl

theorem freeEntries_reservedStay (valid : Valid layout state holds)
    {dir count : Nat} (member : dir ∈ userDirs)
    (isPresent : (state.pde dir).present = true) (inRange : count ≤ 1024)
    (run : freeEntries (state.pde dir).page count state = .ok next) :
    ReservedStay layout state next := by
  induction count generalizing next with
  | zero =>
      simp only [freeEntries, Except.ok.injEq] at run
      rw [← run]
      exact .refl layout state
  | succ nr induction =>
      obtain ⟨middle, first, swept⟩ :=
        freeEntries_spec valid member isPresent (by omega : nr ≤ 1024)
      unfold freeEntries at run
      rw [first] at run
      have last : ReservedStay layout middle next :=
        freeEntry_reservedStay swept.valid
        (mem_userSlots.mpr ⟨member, by omega⟩ : (dir, nr) ∈ userSlots)
        (by rw [swept.pde]; exact isPresent)
        (by rw [swept.pde]; exact run)
      exact (induction (by omega) first).trans last

theorem freeTable_reservedStay (valid : Valid layout state holds)
    {dir : Nat} (member : dir ∈ userDirs)
    (run : freeTable dir state = .ok next) :
    ReservedStay layout state next := by
  unfold freeTable at run
  by_cases isPresent : (state.pde dir).present = true
  · obtain ⟨middle, first, swept⟩ :=
      freeEntries_spec valid member isPresent (le_refl 1024)
    have managed := valid.table_managed member isPresent
    rw [if_neg (by simp [isPresent])] at run
    simp only [first, bind, Except.bind] at run
    have names : middle.view.tables dir = some (middle.pde dir).page :=
      State.view_tables (by rw [swept.pde]; exact isPresent)
    rw [swept.pde] at names
    have used := Exact.tableCount_pos member names
    have total := swept.valid.exact.count _ managed
    rw [freePage_managed swept.valid managed (by omega)] at run
    simp only [pure, Except.pure, Except.ok.injEq] at run
    have last : ReservedStay layout middle next := by
      rw [← run]
      exact .of_setMap managed rfl
    exact (freeEntries_reservedStay valid member isPresent (le_refl 1024)
      first).trans last
  · rw [if_pos isPresent, Except.ok.injEq] at run
    rw [← run]
    exact .refl layout state

theorem freeTables_reservedStay (valid : Valid layout state holds)
    {dir size : Nat} (low : 16 ≤ dir) (high : dir + size ≤ 1024)
    (run : freeTables dir size state = .ok next) :
    ReservedStay layout state next := by
  induction size generalizing dir state with
  | zero =>
      simp only [freeTables, Except.ok.injEq] at run
      rw [← run]
      exact .refl layout state
  | succ size induction =>
      have member : dir ∈ userDirs := mem_userDirs.mpr ⟨low, by omega⟩
      obtain ⟨middle, first, tornDown⟩ := freeTable_spec valid member
      unfold freeTables at run
      rw [first] at run
      exact (freeTable_reservedStay valid member first).trans
        (induction tornDown.valid (by omega) (by omega) run)

end Freeing

/-- What is left of a copy into the directory entries of `window` that has
been torn down again. -/
structure Undone (layout : Layout) (state : State) (holds : Nat → Nat)
    (window : Nat → Prop) (next : State) : Prop where
  valid : Valid layout next holds
  memMap : next.memMap = state.memMap
  absent : ∀ dir, window dir → (next.pde dir).present = false
  remain : ∀ dir, ¬ window dir → next.pde dir = state.pde dir
  mappings : ∀ slot, next.view.mappings slot = state.view.mappings slot
  reserved : ∀ frame, frame ≠ 0 → ¬ layout.Managed frame →
    next.phys frame = state.phys frame

theorem Inherited.sameTarget {source target : Nat → Prop} {dir index : Nat}
    {word : Word} (inherited : Inherited state source target dir index word)
    (outside : ¬ target dir) :
    Word.target word = Word.target (state.pte dir index) := by
  rcases inherited with same | again | ⟨_, isTarget, _⟩
  · rw [same]
  · rw [again, Word.target_protect]
  · exact (outside isTarget).elim

/-- Two exact states with the same mappings and tables count alike. -/
theorem memMap_eq_of_sameUses (valid : Valid layout state holds)
    (nextValid : Valid layout next holds)
    (mappings : next.view.mappings = state.view.mappings)
    (tables : next.view.tables = state.view.tables)
    (reserved : ReservedStay layout state next) :
    next.memMap = state.memMap := by
  funext nr
  by_cases managed : layout.Managed (lowMem + nr)
  · have before := valid.exact.count _ managed
    have after := nextValid.exact.count _ managed
    have sameMaps : next.view.mapCount (lowMem + nr) =
        state.view.mapCount (lowMem + nr) := by
      unfold View.mapCount
      rw [mappings]
    have sameTables : next.view.tableCount (lowMem + nr) =
        state.view.tableCount (lowMem + nr) := by
      unfold View.tableCount
      rw [tables]
    have back : mapNr (lowMem + nr) = nr := by
      unfold mapNr
      omega
    unfold View.count at before after
    rw [back] at before after
    apply UInt8.toNat_inj.mp
    show (next.view.memMap nr).toNat = (state.view.memMap nr).toNat
    omega
  · exact reserved nr managed

/-- `free_page_tables` takes back all that `copy_page_tables` did, wherever
the copy stopped. -/
theorem copyPageTables_undone (valid : Valid layout state holds)
    {parent child size : Nat} {copied : Bool}
    (isTask : 1 ≤ child ∧ child < 64) (isParent : parent < 64)
    (different : parent ≠ child) (fits : size ≤ 0x4000000)
    (first : parent = 0 → size ≤ 0xA0 * 4096)
    (empty : ∀ dir, child * 16 ≤ dir → dir < child * 16 + 16 →
      (state.pde dir).present = false)
    (copy : copyPageTables (windowBase parent) (windowBase child) size state =
      .ok (copied, middle)) :
    ∃ next, freePageTables (windowBase child) size middle = .ok next ∧
      Undone layout state holds
        (fun dir => child * 16 ≤ dir ∧ dir < child * 16 + 16) next := by
  rw [copyPageTables_window isParent isTask.2] at copy
  unfold freePageTables
  have notZero : windowBase child ≠ 0 := by
    rw [Ne, windowBase_eq_zero]
    omega
  rw [windowBase_aligned, if_neg (by simp), if_neg notZero,
    dirIndex_windowBase isTask.2]
  obtain ⟨rounds, roundsEq⟩ :
      ∃ rounds, (size + 0x3fffff) / 2 ^ 22 = rounds := ⟨_, rfl⟩
  rw [roundsEq] at copy ⊢
  have few : rounds ≤ 16 := by omega
  have single : parent = 0 → rounds ≤ 1 := by
    intro isKernel
    have := first isKernel
    omega
  have entriesLe : (if parent = 0 then 0xA0 else 1024) ≤ 1024 := by
    split <;> omega
  have copyable : ∀ round, round < rounds → ∀ nr,
      (nr < if parent = 0 then 0xA0 else 1024) →
        Copyable (parent * 16 + round) (child * 16 + round) nr := by
    intro round inRounds nr inEntries
    exact copyable_window isParent (by omega)
      (fun isKernel => by have := single isKernel; omega) inEntries
  have spec := copyTables_spec valid entriesLe copyable (by omega) (by omega)
    (by omega)
  rw [copy] at spec
  have forked : Forked layout state holds
      (fun dir => parent * 16 ≤ dir ∧ dir < parent * 16 + rounds)
      (fun dir => child * 16 ≤ dir ∧ dir < child * 16 + rounds) middle := spec
  obtain ⟨next, free, tornDown⟩ := freeTables_spec forked.valid
    (by omega : 16 ≤ child * 16) (by omega : child * 16 + rounds ≤ 1024)
  have absent (dir : Nat) (window : child * 16 ≤ dir ∧ dir < child * 16 + 16) :
      (next.pde dir).present = false := by
    by_cases freed : dir < child * 16 + rounds
    · exact tornDown.absent dir ⟨window.1, freed⟩
    · rw [tornDown.remain dir (by omega), forked.pde dir (by omega)]
      exact empty dir window.1 window.2
  have remain (dir : Nat)
      (outside : ¬ (child * 16 ≤ dir ∧ dir < child * 16 + 16)) :
      next.pde dir = state.pde dir := by
    rw [tornDown.remain dir (by omega), forked.pde dir (by omega)]
  have mappings : next.view.mappings = state.view.mappings := by
    funext slot
    show Word.target (next.pte slot.1 slot.2) =
      Word.target (state.pte slot.1 slot.2)
    by_cases window : child * 16 ≤ slot.1 ∧ slot.1 < child * 16 + 16
    · rw [State.pte_eq_zero (absent slot.1 window),
        State.pte_eq_zero (empty slot.1 window.1 window.2)]
    · rw [tornDown.entries slot.1 slot.2 (by omega)]
      exact (forked.entries slot.1 slot.2).sameTarget (by omega)
  have tables : next.view.tables = state.view.tables := by
    funext dir
    show Word.target (next.pde dir) = Word.target (state.pde dir)
    by_cases window : child * 16 ≤ dir ∧ dir < child * 16 + 16
    · simp [Word.target, absent dir window, empty dir window.1 window.2]
    · rw [remain dir window]
  have counted := copyTables_reservedStay valid entriesLe copyable (by omega)
    (by omega) copy
  have freed := freeTables_reservedStay forked.valid (by omega) (by omega)
    free
  refine ⟨next, free, tornDown.valid, ?_, absent, remain, congrFun mappings,
    ?_⟩
  · exact memMap_eq_of_sameUses valid tornDown.valid mappings tables
      (counted.trans freed)
  · intro frame notZero reserved
    rw [tornDown.pages frame notZero fun managed =>
      (reserved managed).elim]
    exact forked.keeps frame notZero fun managed => (reserved managed).elim

end Linux011.Mm
