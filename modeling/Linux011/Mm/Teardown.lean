import Linux011.Mm.Operations

/-!
# Tearing down an address space

`free_page_tables` on the window of a task.  Every present entry it meets is
counted in `mem_map`, so none of its calls to `free_page` can panic; what
other windows map stays where it was.
-/

namespace Linux011.Mm

open RefCount

variable {layout : Layout} {state : State} {holds : Nat → Nat}

/-- `free_page` on a page some user entry maps. -/
theorem freePage_mapped (valid : Valid layout state holds)
    {slot : Nat × Nat} {frame : Nat} (member : slot ∈ userSlots)
    (maps : state.view.mappings slot = some frame) :
    freePage frame state =
      .ok { state with memMap := dropCount state.memMap frame } := by
  rcases valid.exact.frames slot member frame maps with managed | low
  · have mapped := Exact.mapCount_pos member maps
    have total := valid.exact.count frame managed
    rw [freePage_managed valid managed (by omega)]
    unfold State.setMap dropCount
    congr 2
    funext nr
    by_cases same : nr = mapNr frame
    · simp [same, managed.lowMem_le]
    · simp [same]
  · rw [freePage_low low]
    have same : dropCount state.memMap frame = state.memMap := by
      funext nr
      unfold dropCount
      rw [if_neg (by omega)]
    rw [same]

/-- The state after the first entries of a page table have been freed. -/
structure Swept (layout : Layout) (state : State) (holds : Nat → Nat)
    (dir count : Nat) (next : State) : Prop where
  valid : Valid layout next holds
  pde : next.pde = state.pde
  cleared : ∀ other index, next.pte other index =
    if other = dir ∧ index < count then 0#32 else state.pte other index
  others : ∀ frame, frame ≠ (state.pde dir).page →
    next.phys frame = state.phys frame

theorem freeEntry_spec (valid : Valid layout state holds) {dir nr : Nat}
    (member : (dir, nr) ∈ userSlots)
    (isPresent : (state.pde dir).present = true) :
    ∃ next, freeEntry (state.pde dir).page nr state = .ok next ∧
      Valid layout next holds ∧ next.pde = state.pde ∧
      (∀ other index, next.pte other index =
        if other = dir ∧ index = nr then 0#32 else state.pte other index) ∧
      ∀ frame, frame ≠ (state.pde dir).page →
        next.phys frame = state.phys frame := by
  have entry := State.pte_eq member isPresent
  have managed :=
    valid.table_managed (mem_userSlots.mp member).1 isPresent
  have samePde :
      (state.setWord (state.pde dir).page nr 0#32).pde = state.pde :=
    State.setWord_pde (Valid.managed_ne_zero managed)
  have sameView := valid.view_setWord member isPresent 0#32
  have clearedPte := valid.pte_setWord member isPresent 0#32
  have kernel : (state.setWord (state.pde dir).page nr 0#32).phys
      (state.pde 0).page = state.phys (state.pde 0).page :=
    State.setWord_frame (valid.managed_ne_kernel managed)
  unfold freeEntry
  rw [← entry]
  by_cases entryPresent : (state.pte dir nr).present = true
  · have maps : state.view.mappings (dir, nr) =
        some (state.pte dir nr).page :=
      Word.target_eq_some.mpr ⟨entryPresent, rfl⟩
    have exact := valid.exact.drop member maps
    rw [if_pos entryPresent, freePage_mapped valid member maps]
    refine ⟨_, rfl, ?_, samePde, clearedPte, ?_⟩
    · refine valid.of_exact ?_ rfl (congrFun samePde 0) kernel
      rw [← sameView] at exact
      exact exact
    · exact fun frame different => State.setWord_frame different
  · rw [if_neg entryPresent]
    refine ⟨_, rfl, ?_, samePde, clearedPte, ?_⟩
    · refine valid.of_exact ?_ rfl (congrFun samePde 0) kernel
      rw [sameView]
      apply valid.exact.restamp
      · show Word.target 0#32 = Word.target (state.pte dir nr)
        simp [Word.target, entryPresent]
      · intro isWritable
        simp [Word.writable] at isWritable
    · exact fun frame different => State.setWord_frame different

theorem freeEntries_spec (valid : Valid layout state holds) {dir : Nat}
    (member : dir ∈ userDirs) (isPresent : (state.pde dir).present = true)
    {count : Nat} (inRange : count ≤ 1024) :
    ∃ next, freeEntries (state.pde dir).page count state = .ok next ∧
      Swept layout state holds dir count next := by
  induction count with
  | zero =>
      exact ⟨state, rfl, valid, rfl, by simp, fun _ _ => rfl⟩
  | succ nr induction =>
      obtain ⟨middle, run, swept⟩ := induction (by omega)
      have slot : (dir, nr) ∈ userSlots :=
        mem_userSlots.mpr ⟨member, by omega⟩
      obtain ⟨next, last, nextValid, nextPde, nextPte, nextPhys⟩ :=
        freeEntry_spec swept.valid slot (by rw [swept.pde]; exact isPresent)
      rw [swept.pde] at last nextPde nextPhys
      refine ⟨next, ?_, nextValid, nextPde, ?_, ?_⟩
      · unfold freeEntries
        rw [run]
        exact last
      · intro other index
        rw [nextPte, swept.cleared]
        by_cases sameDir : other = dir
        · by_cases here : index = nr
          · simp [sameDir, here]
          · simp only [sameDir, here, true_and, if_false]
            by_cases before : index < nr
            · simp [before, Nat.lt_succ_of_lt before]
            · rw [if_neg before, if_neg (by omega)]
        · simp [sameDir]
      · intro frame different
        rw [nextPhys frame different, swept.others frame different]

/-- The state after the page tables of the directory entries in `gone` have
been freed. -/
structure TornDown (layout : Layout) (state : State) (holds : Nat → Nat)
    (gone : Nat → Prop) (next : State) : Prop where
  valid : Valid layout next holds
  absent : ∀ dir, gone dir → (next.pde dir).present = false
  remain : ∀ dir, ¬ gone dir → next.pde dir = state.pde dir
  entries : ∀ dir index, ¬ gone dir →
    next.pte dir index = state.pte dir index
  pages : ∀ frame, frame ≠ 0 →
    (layout.Managed frame → state.view.tableCount frame = 0) →
      next.phys frame = state.phys frame
  tables : ∀ frame, state.view.tableCount frame = 0 →
    next.view.tableCount frame = 0

theorem freeTable_spec (valid : Valid layout state holds) {dir : Nat}
    (member : dir ∈ userDirs) :
    ∃ next, freeTable dir state = .ok next ∧
      TornDown layout state holds (fun other => other = dir) next := by
  unfold freeTable
  by_cases isPresent : (state.pde dir).present = true
  · have names := State.view_tables isPresent
    have managed := valid.table_managed member isPresent
    obtain ⟨middle, run, swept⟩ :=
      freeEntries_spec valid member isPresent (le_refl 1024)
    have sameDirs : middle.view.dirs = state.view.dirs := swept.pde
    have middleNames : middle.view.tables dir =
        some (state.pde dir).page := by
      unfold View.tables
      rw [sameDirs]
      exact names
    have used := Exact.tableCount_pos member middleNames
    have total := swept.valid.exact.count _ managed
    have exact := swept.valid.exact.uninstall member middleNames
    have unmapped :=
      swept.valid.exact.apart (state.pde dir).page (by omega)
    have single := swept.valid.exact.single (state.pde dir).page
    have one : middle.memMap (mapNr (state.pde dir).page) = 1 := by
      have counted : (middle.memMap (mapNr (state.pde dir).page)).toNat =
          (1 : UInt8).toNat := by
        show middle.view.count (state.pde dir).page = 1
        omega
      exact UInt8.toNat_inj.mp counted
    have freed := freePage_managed swept.valid managed (by omega)
    rw [one] at freed
    have emptied (index : Nat) : middle.pte dir index = 0#32 := by
      rw [swept.cleared]
      by_cases inRange : index < 1024
      · simp [inRange]
      · simp [State.pte, mem_userSlots, inRange]
    have sameView : (middle.setWord 0 dir 0#32).view =
        middle.view.setDir dir 0#32 :=
      swept.valid.view_uninstall emptied
    have nextPde (other : Nat) :
        (middle.setWord 0 dir 0#32).pde other =
          if other = dir then 0#32 else state.pde other := by
      rw [State.setWord_zero_pde, swept.pde]
    have nextPte (other index : Nat) (different : other ≠ dir) :
        (middle.setWord 0 dir 0#32).pte other index =
          state.pte other index := by
      have same := congrFun (congrFun
        (congrArg View.entries sameView) other) index
      rw [show (middle.setWord 0 dir 0#32).pte other index =
        middle.pte other index from same, swept.cleared]
      simp [different]
    have notKernel : dir ≠ 0 := by
      intro zero
      subst zero
      simp [mem_userDirs] at member
    rw [if_neg (by simp [isPresent])]
    simp only [run, freed, bind, Except.bind, pure, Except.pure]
    refine ⟨_, rfl, ?_, ?_, ?_, ?_, ?_, ?_⟩
    · apply swept.valid.of_exact
      · have counted :
            ((middle.setMap (mapNr (state.pde dir).page) (1 - 1)).setWord
              0 dir 0#32).view =
              (middle.setWord 0 dir 0#32).view.setCount
                (state.pde dir).page 0 := rfl
        rw [counted, sameView]
        exact exact
      · rfl
      · show (middle.setWord 0 dir 0#32).pde 0 = middle.pde 0
        rw [nextPde, if_neg (Ne.symm notKernel), swept.pde]
      · exact State.setWord_frame swept.valid.kernelTable.1
    · rintro other rfl
      show ((middle.setWord 0 other 0#32).pde other).present = false
      rw [nextPde]
      simp
    · intro other different
      exact (nextPde other).trans (if_neg different)
    · intro other index different
      exact nextPte other index different
    · intro frame notZero notTable
      have different : frame ≠ (state.pde dir).page := by
        rintro rfl
        have := notTable managed
        have := Exact.tableCount_pos member names
        omega
      exact (State.setWord_frame notZero).trans
        (swept.others frame different)
    · intro frame unusedTable
      have moved := View.setDir_tableCount middle.view 0#32 member frame
      rw [Word.target_zero, weight_none] at moved
      have before : middle.view.tableCount frame =
          state.view.tableCount frame := by
        unfold View.tableCount View.tables
        rw [sameDirs]
      show (middle.setWord 0 dir 0#32).view.tableCount frame = 0
      rw [sameView]
      omega
  · refine ⟨state, by rw [if_pos isPresent], valid, ?_, fun _ _ => rfl,
      fun _ _ _ => rfl, fun _ _ _ => rfl, fun _ unused => unused⟩
    rintro other rfl
    simpa using isPresent

theorem TornDown.trans {gone further : Nat → Prop} {middle next : State}
    (first : TornDown layout state holds gone middle)
    (second : TornDown layout middle holds further next) :
    TornDown layout state holds (fun dir => gone dir ∨ further dir) next where
  valid := second.valid
  absent := by
    intro dir either
    by_cases again : further dir
    · exact second.absent dir again
    · rw [second.remain dir again]
      exact first.absent dir (either.resolve_right again)
  remain := by
    intro dir neither
    rw [second.remain dir fun isFurther => neither (.inr isFurther)]
    exact first.remain dir fun isGone => neither (.inl isGone)
  entries := by
    intro dir index neither
    rw [second.entries dir index fun isFurther => neither (.inr isFurther)]
    exact first.entries dir index fun isGone => neither (.inl isGone)
  pages := by
    intro frame notZero notTable
    rw [second.pages frame notZero fun managed =>
      first.tables frame (notTable managed)]
    exact first.pages frame notZero notTable
  tables := fun frame unused => second.tables frame (first.tables frame unused)

/-- The page table of a directory entry that goes is free afterwards. -/
theorem TornDown.freed {gone : Nat → Prop} {next : State}
    (torn : TornDown layout state holds gone next)
    (valid : Valid layout state holds) {dir : Nat} (member : dir ∈ userDirs)
    (isPresent : (state.pde dir).present = true) (isGone : gone dir) :
    next.view.count (state.pde dir).page = 0 := by
  have names := State.view_tables isPresent
  have managed := valid.table_managed member isPresent
  have used := Exact.tableCount_pos member names
  have single := valid.exact.single (state.pde dir).page
  have noTable : next.view.tableCount (state.pde dir).page = 0 := by
    by_contra isTable
    obtain ⟨other, inDirs, isOther⟩ :=
      refs_pos_iff.mp (Nat.pos_of_ne_zero isTable)
    by_cases otherGone : gone other
    · have isThere := (Word.target_eq_some.mp isOther).1
      have absent := torn.absent other otherGone
      exact absurd (isThere.symm.trans absent) (by decide)
    · have same : state.view.tables other = some (state.pde dir).page := by
        rw [← isOther]
        exact congrArg Word.target (torn.remain other otherGone).symm
      rw [valid.exact.table_unique inDirs member same names] at otherGone
      exact otherGone isGone
  have unmapped : next.view.mapCount (state.pde dir).page = 0 := by
    by_contra isMapped
    obtain ⟨slot, inSlots, maps⟩ :=
      refs_pos_iff.mp (Nat.pos_of_ne_zero isMapped)
    by_cases slotGone : gone slot.1
    · have empty : next.pte slot.1 slot.2 = 0#32 :=
        State.pte_eq_zero (torn.absent slot.1 slotGone)
      have isThere := (Word.target_eq_some.mp maps).1
      exact absurd (isThere.symm.trans (congrArg Word.present empty)) (by decide)
    · have same : state.view.mappings slot = some (state.pde dir).page := by
        rw [← maps]
        exact congrArg Word.target (torn.entries slot.1 slot.2 slotGone).symm
      exact valid.exact.table_not_mapped member inSlots names same
  rw [torn.valid.exact.count _ managed]
  omega

theorem freeTables_spec (valid : Valid layout state holds) {dir size : Nat}
    (low : 16 ≤ dir) (high : dir + size ≤ 1024) :
    ∃ next, freeTables dir size state = .ok next ∧
      TornDown layout state holds
        (fun other => dir ≤ other ∧ other < dir + size) next := by
  induction size generalizing dir state with
  | zero =>
      exact ⟨state, rfl, valid, fun _ _ => by omega, fun _ _ => rfl,
        fun _ _ _ => rfl, fun _ _ _ => rfl, fun _ unused => unused⟩
  | succ size induction =>
      obtain ⟨middle, run, first⟩ :=
        freeTable_spec valid (mem_userDirs.mpr ⟨low, by omega⟩)
      obtain ⟨next, rest, second⟩ :=
        induction first.valid (by omega : 16 ≤ dir + 1) (by omega)
      refine ⟨next, ?_, ?_⟩
      · unfold freeTables
        rw [run]
        exact rest
      · have both := first.trans second
        have sameRange : (fun other =>
            other = dir ∨ dir + 1 ≤ other ∧ other < dir + 1 + size) =
              fun other => dir ≤ other ∧ other < dir + (size + 1) := by
          funext other
          apply propext
          omega
        rwa [sameRange] at both

/-- The base of a task's window in the linear address space. -/
def windowBase (nr : Nat) : Nat := nr * 0x4000000

theorem windowBase_aligned (nr : Nat) : windowBase nr % 0x400000 = 0 := by
  unfold windowBase
  omega

theorem windowBase_eq_zero {nr : Nat} : windowBase nr = 0 ↔ nr = 0 := by
  unfold windowBase
  omega

theorem dirIndex_windowBase {nr : Nat} (isTask : nr < 64) :
    dirIndex (windowBase nr) = nr * 16 := by
  unfold dirIndex windowBase
  omega

/-- `free_page_tables` on a window frees exactly the page tables of its first
`size` bytes. -/
theorem freePageTables_spec (valid : Valid layout state holds)
    {nr size : Nat} (isTask : 1 ≤ nr ∧ nr < 64) (fits : size ≤ 0x4000000) :
    ∃ next, freePageTables (windowBase nr) size state = .ok next ∧
      TornDown layout state holds
        (fun dir => nr * 16 ≤ dir ∧
          dir < nr * 16 + (size + 0x3fffff) / 2 ^ 22) next := by
  unfold freePageTables
  have notZero : windowBase nr ≠ 0 := by
    rw [Ne, windowBase_eq_zero]
    omega
  rw [windowBase_aligned, if_neg (by simp), if_neg notZero,
    dirIndex_windowBase isTask.2]
  exact freeTables_spec valid (by omega) (by omega)

end Linux011.Mm
