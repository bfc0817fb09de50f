import Linux011.Mm.Accounting

/-!
# Address spaces in physical memory

The view of a physical state: its user page tables read through the page
directory.  Page tables are ordinary frames, so a word stored in one of them
is seen at one virtual entry only because no two directory entries share a
table and no user page is one; both facts come from `Exact`.
-/

namespace Linux011.Mm

open RefCount

namespace State

/-- The page-table entry of a user page, zero where there is no table. -/
def pte (state : State) (dir index : Nat) : Word :=
  if (dir, index) ∈ userSlots ∧ (state.pde dir).present = true then
    state.phys (state.pde dir).page index
  else 0#32

def view (state : State) : View :=
  { memMap := state.memMap, dirs := state.pde, entries := state.pte }

@[simp] theorem setWord_same (state : State) (frame index : Nat)
    (word : Word) : (state.setWord frame index word).phys frame index = word := by
  simp [setWord]

theorem setWord_frame {state : State} {frame index other : Nat} {word : Word}
    (different : other ≠ frame) :
    (state.setWord frame index word).phys other = state.phys other := by
  funext otherIndex
  simp [setWord, different]

theorem setWord_comm {state : State} {frame index otherFrame other : Nat}
    {word value : Word} (different : frame ≠ otherFrame) :
    (state.setWord frame index word).setWord otherFrame other value =
      (state.setWord otherFrame other value).setWord frame index word := by
  unfold setWord
  congr 1
  funext atFrame atIndex
  dsimp only
  by_cases here : atFrame = otherFrame
  · simp [here, Ne.symm different]
  · simp [here]

theorem setWord_index {state : State} {frame index other : Nat} {word : Word}
    (different : other ≠ index) :
    (state.setWord frame index word).phys frame other =
      state.phys frame other := by
  simp [setWord, different]

@[simp] theorem fillPage_same (state : State) (frame : Nat)
    (content : Nat → Word) :
    (state.fillPage frame content).phys frame = content := by
  simp [fillPage]

theorem fillPage_frame {state : State} {frame other : Nat}
    {content : Nat → Word} (different : other ≠ frame) :
    (state.fillPage frame content).phys other = state.phys other := by
  simp [fillPage, different]

theorem setWord_pde {state : State} {frame index : Nat} {word : Word}
    (notDirectory : frame ≠ 0) :
    (state.setWord frame index word).pde = state.pde := by
  funext dir
  exact congrFun (setWord_frame (Ne.symm notDirectory)) dir

theorem fillPage_pde {state : State} {frame : Nat} {content : Nat → Word}
    (notDirectory : frame ≠ 0) :
    (state.fillPage frame content).pde = state.pde := by
  funext dir
  exact congrFun (fillPage_frame (Ne.symm notDirectory)) dir

theorem setWord_zero_pde (state : State) (dir other : Nat) (word : Word) :
    (state.setWord 0 dir word).pde other =
      if other = dir then word else state.pde other := by
  simp [pde, setWord]

@[simp] theorem view_setMap (state : State) (frame : Nat) (value : UInt8) :
    (state.setMap (mapNr frame) value).view =
      state.view.setCount frame value := rfl

theorem view_memMap (state : State) : state.view.memMap = state.memMap := rfl

theorem pte_eq_zero {state : State} {dir index : Nat}
    (absent : (state.pde dir).present = false) :
    state.pte dir index = 0#32 := by
  simp [pte, absent]

theorem pte_eq {state : State} {dir index : Nat}
    (member : (dir, index) ∈ userSlots)
    (isPresent : (state.pde dir).present = true) :
    state.pte dir index = state.phys (state.pde dir).page index := by
  simp [pte, member, isPresent]

theorem view_tables {state : State} {dir : Nat}
    (isPresent : (state.pde dir).present = true) :
    state.view.tables dir = some (state.pde dir).page := by
  simp [View.tables, view, Word.target, isPresent]

end State

/-- An exact state: `mem_map` counts the user page tables, `HIGH_MEMORY` lies
above the managed frames, and the table that maps the first 640 kB for the
kernel is in place. -/
structure Valid (layout : Layout) (state : State) (holds : Nat → Nat) :
    Prop where
  exact : Exact layout state.view holds
  high : layout.last * 4096 ≤ state.highMemory
  kernelTable : (state.pde 0).page ≠ 0 ∧ (state.pde 0).page < lowMem
  identity : ∀ index, index < 0xA0 →
    Word.page (state.phys (state.pde 0).page index) < lowMem

namespace Valid

variable {layout : Layout} {state : State} {holds : Nat → Nat}

theorem table_managed (valid : Valid layout state holds) {dir : Nat}
    (member : dir ∈ userDirs) (isPresent : (state.pde dir).present = true) :
    layout.Managed (state.pde dir).page := by
  have used := Exact.tableCount_pos member (State.view_tables isPresent)
  exact valid.exact.owned _ (by omega)

theorem managed_ne_zero {frame : Nat} (managed : layout.Managed frame) :
    frame ≠ 0 := by
  have := managed.lowMem_le
  unfold lowMem at this
  omega

theorem managed_ne_kernel (valid : Valid layout state holds) {frame : Nat}
    (managed : layout.Managed frame) : (state.pde 0).page ≠ frame := by
  have := managed.lowMem_le
  have := valid.kernelTable.2
  omega

/-- Storing in a user page table is storing in one virtual entry. -/
theorem view_setWord (valid : Valid layout state holds) {dir index : Nat}
    (member : (dir, index) ∈ userSlots) (isPresent : (state.pde dir).present = true)
    (word : Word) :
    (state.setWord (state.pde dir).page index word).view =
      state.view.setEntry dir index word := by
  have inDirs := (mem_userSlots.mp member).1
  have notZero := managed_ne_zero (valid.table_managed inDirs isPresent)
  have samePde : (state.setWord (state.pde dir).page index word).pde =
      state.pde := State.setWord_pde notZero
  have sameEntries :
      (state.setWord (state.pde dir).page index word).pte =
        (state.view.setEntry dir index word).entries := by
    funext otherDir otherIndex
    unfold State.pte
    rw [samePde]
    by_cases user : (otherDir, otherIndex) ∈ userSlots ∧
        (state.pde otherDir).present = true
    · rw [if_pos user]
      by_cases sameDir : otherDir = dir
      · subst sameDir
        by_cases sameIndex : otherIndex = index
        · subst sameIndex
          simp
        · rw [State.setWord_index sameIndex]
          simp [View.setEntry, sameIndex, State.view, State.pte, user.1, user.2]
      · have differentTable :
            (state.pde otherDir).page ≠ (state.pde dir).page := by
          intro same
          apply sameDir
          exact valid.exact.table_unique (mem_userSlots.mp user.1).1 inDirs
            (State.view_tables user.2) (same ▸ State.view_tables isPresent)
        rw [State.setWord_frame differentTable]
        simp [View.setEntry, sameDir, State.view, State.pte, user.1, user.2]
    · rw [if_neg user]
      have different : ¬ (otherDir = dir ∧ otherIndex = index) := by
        rintro ⟨rfl, rfl⟩
        exact user ⟨member, isPresent⟩
      simp [View.setEntry, different, State.view, State.pte, user]
  unfold State.view at sameEntries ⊢
  rw [samePde, sameEntries]
  rfl

theorem pte_setWord (valid : Valid layout state holds) {dir index : Nat}
    (member : (dir, index) ∈ userSlots) (isPresent : (state.pde dir).present = true)
    (word : Word) (other otherIndex : Nat) :
    (state.setWord (state.pde dir).page index word).pte other otherIndex =
      if other = dir ∧ otherIndex = index then word
      else state.pte other otherIndex :=
  congrFun (congrFun (congrArg View.entries
    (valid.view_setWord member isPresent word)) other) otherIndex

/-- Writing a page that is no page table leaves every address space as it
was. -/
theorem view_fillPage {frame : Nat}
    (managed : layout.Managed frame)
    (notTable : state.view.tableCount frame = 0) (content : Nat → Word) :
    (state.fillPage frame content).view = state.view := by
  have samePde : (state.fillPage frame content).pde = state.pde :=
    State.fillPage_pde (managed_ne_zero managed)
  have sameEntries : (state.fillPage frame content).pte = state.pte := by
    funext dir index
    unfold State.pte
    rw [samePde]
    by_cases user : (dir, index) ∈ userSlots ∧ (state.pde dir).present = true
    · rw [if_pos user, if_pos user]
      have different : (state.pde dir).page ≠ frame := by
        intro same
        have used := Exact.tableCount_pos (mem_userSlots.mp user.1).1
          (State.view_tables user.2)
        rw [same] at used
        omega
      rw [State.fillPage_frame different]
    · rw [if_neg user, if_neg user]
  unfold State.view
  rw [samePde, sameEntries]
  rfl

/-- An empty frame entered in the directory adds no page. -/
theorem view_install (valid : Valid layout state holds) {dir frame : Nat}
    (absent : (state.pde dir).present = false)
    (managed : layout.Managed frame)
    (empty : ∀ index, state.phys frame index = 0#32) :
    (state.setWord 0 dir (Word.user frame)).view =
      state.view.setDir dir (Word.user frame) := by
  have notZero := managed_ne_zero managed
  have dirs : (state.setWord 0 dir (Word.user frame)).pde =
      fun other => if other = dir then Word.user frame
        else state.pde other :=
    funext fun other => State.setWord_zero_pde state dir other _
  have entries : (state.setWord 0 dir (Word.user frame)).pte =
      state.pte := by
    funext other index
    unfold State.pte
    rw [dirs]
    by_cases same : other = dir
    · subst same
      simp only [if_true, Word.present_user, Word.page_user managed.small]
      rw [State.setWord_frame notZero, empty]
      simp [absent]
    · simp only [same, if_false]
      by_cases user : (other, index) ∈ userSlots ∧
          (state.pde other).present = true
      · rw [if_pos user, if_pos user, State.setWord_frame
          (managed_ne_zero
            (valid.table_managed (mem_userSlots.mp user.1).1 user.2))]
      · rw [if_neg user, if_neg user]
  unfold State.view
  rw [dirs, entries]
  rfl

/-- A directory entry whose table is empty can be cleared. -/
theorem view_uninstall (valid : Valid layout state holds) {dir : Nat}
    (empty : ∀ index, state.pte dir index = 0#32) :
    (state.setWord 0 dir 0#32).view = state.view.setDir dir 0#32 := by
  have dirs : (state.setWord 0 dir 0#32).pde =
      fun other => if other = dir then 0#32 else state.pde other :=
    funext fun other => State.setWord_zero_pde state dir other _
  have entries : (state.setWord 0 dir 0#32).pte = state.pte := by
    funext other index
    by_cases same : other = dir
    · subst same
      rw [empty index]
      apply State.pte_eq_zero
      simp [dirs]
    · unfold State.pte
      rw [dirs]
      simp only [same, if_false]
      by_cases user : (other, index) ∈ userSlots ∧
          (state.pde other).present = true
      · rw [if_pos user, if_pos user, State.setWord_frame
          (managed_ne_zero
            (valid.table_managed (mem_userSlots.mp user.1).1 user.2))]
      · rw [if_neg user, if_neg user]
  unfold State.view
  rw [dirs, entries]
  rfl

/-- Stores outside the kernel's own tables keep the kernel mapping. -/
theorem of_exact (valid : Valid layout state holds) {next : State}
    {nextHolds : Nat → Nat} (exact : Exact layout next.view nextHolds)
    (high : next.highMemory = state.highMemory)
    (directory : next.pde 0 = state.pde 0)
    (table : next.phys (state.pde 0).page = state.phys (state.pde 0).page) :
    Valid layout next nextHolds := by
  refine ⟨exact, ?_, ?_, ?_⟩
  · rw [high]
    exact valid.high
  · rw [directory]
    exact valid.kernelTable
  · intro index inRange
    rw [directory, table]
    exact valid.identity index inRange

end Valid

end Linux011.Mm
