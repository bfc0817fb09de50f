import Linux011.Mm.Sharing

/-!
# Runs of memory management

The operations of `mm/memory.c` as the rest of the kernel may call them, in
any order and for any tasks, from the state `setup_paging` and `mem_init`
leave.  `Valid` holds in every state such a run reaches; the exactness of
`mem_map` and the isolation of copied pages are read off it.
-/

namespace Linux011.Mm

open RefCount

/-- `setup_paging`: four page tables that map 16 MB to themselves. -/
def setupPaging (state : State) : State :=
  { state with
    phys := fun frame index =>
      if frame = 0 then if index < 4 then Word.user (index + 1) else 0#32
      else if frame < 5 then
        if index < 1024 then Word.user ((frame - 1) * 1024 + index) else 0#32
      else state.phys frame index }

/-- What `main` hands to `mem_init`. -/
structure MemoryLimits where
  startMem : Nat
  endMem : Nat
  low : 0x100000 ≤ startMem
  ordered : startMem ≤ endMem
  high : endMem ≤ 0x1000000

def MemoryLimits.layout (limits : MemoryLimits) : Layout where
  first := limits.startMem / 4096
  last := limits.startMem / 4096 + (limits.endMem - limits.startMem) / 4096
  lowMem_le_first := by
    have := limits.low
    unfold lowMem
    omega
  last_le := by
    have := limits.low
    have := limits.ordered
    have := limits.high
    unfold lowMem pagingPages
    omega

/-- The state `main` starts the first task in. -/
def boot (limits : MemoryLimits) (before : State) : State :=
  memInit limits.startMem limits.endMem (setupPaging before)

/-- `mem_init` marks exactly the managed frames free. -/
theorem memInit_free (limits : MemoryLimits) (before : State) {frame : Nat}
    (inMap : lowMem ≤ frame ∧ frame < lowMem + pagingPages) :
    (boot limits before).memMap (mapNr frame) = 0 ↔
      limits.layout.Managed frame := by
  have low := limits.low
  unfold boot memInit Layout.Managed MemoryLimits.layout mapNr lowMem
    pagingPages at *
  dsimp only
  split
  · simp
    omega
  · rw [if_pos (by omega)]
    simp [used]
    omega

theorem boot_pde {limits : MemoryLimits} {before : State} {dir : Nat}
    (member : dir ∈ userDirs) : (boot limits before).pde dir = 0#32 := by
  rw [mem_userDirs] at member
  unfold boot memInit setupPaging State.pde
  simp
  omega

theorem boot_pte (limits : MemoryLimits) (before : State)
    (dir index : Nat) : (boot limits before).pte dir index = 0#32 := by
  unfold State.pte
  split <;> rename_i user
  · obtain ⟨member, isPresent⟩ := user
    rw [boot_pde (mem_userSlots.mp member).1] at isPresent
    simp at isPresent
  · rfl

theorem boot_valid (limits : MemoryLimits) (before : State) :
    Valid limits.layout (boot limits before) fun _ => 0 := by
  have unmapped (slot : Nat × Nat) :
      (boot limits before).view.mappings slot = none := by
    show Word.target ((boot limits before).pte slot.1 slot.2) = none
    rw [boot_pte, Word.target_zero]
  have noMappings (frame : Nat) :
      (boot limits before).view.mapCount frame = 0 :=
    refs_eq_zero_iff.mpr fun slot _ => by simp [unmapped slot]
  have noTables (frame : Nat) :
      (boot limits before).view.tableCount frame = 0 := by
    refine refs_eq_zero_iff.mpr fun dir member => ?_
    show Word.target ((boot limits before).pde dir) ≠ some frame
    rw [boot_pde member]
    simp
  refine ⟨?_, ?_, ?_, ?_⟩
  · refine ⟨?_, ?_, ?_, ?_, ?_, ?_, ?_, ?_⟩
    · intro frame managed
      have inMap : lowMem ≤ frame ∧ frame < lowMem + pagingPages :=
        ⟨managed.lowMem_le, managed.lt_pages⟩
      have free := (memInit_free limits before inMap).mpr managed
      rw [noMappings, noTables]
      unfold View.count
      rw [State.view_memMap, free]
      rfl
    · simp [noTables]
    · simp [noTables]
    · simp [noTables]
    · intro nr inRange unmanaged free
      have back : mapNr (lowMem + nr) = nr := by
        unfold mapNr
        omega
      rw [State.view_memMap] at free
      apply unmanaged
      have inMap : lowMem ≤ lowMem + nr ∧ lowMem + nr < lowMem + pagingPages :=
        ⟨by omega, by omega⟩
      apply (memInit_free limits before inMap).mp
      rw [back]
      exact free
    · simp [unmapped]
    · simp [unmapped]
    · simp [unmapped]
  · have low := limits.low
    have ordered := limits.ordered
    show limits.layout.last * 4096 ≤ limits.endMem
    unfold MemoryLimits.layout
    dsimp only
    omega
  · have first : (boot limits before).pde 0 = Word.user 1 := rfl
    rw [first, Word.page_user (by decide)]
    decide
  · intro index inRange
    have first : (boot limits before).pde 0 = Word.user 1 := rfl
    rw [first, Word.page_user (by decide)]
    have entry : (boot limits before).phys 1 index = Word.user index := by
      unfold boot memInit setupPaging
      simp
      omega
    rw [entry, Word.page_user (by omega)]
    unfold lowMem
    omega

/-- A state together with the pages the kernel holds: what `get_free_page`
has returned and `free_page` or `put_page` has not yet taken back. -/
structure System where
  state : State
  holds : Nat → Nat

/-- A user-mode store through a present entry: a fault on a read-only entry
runs `do_wp_page` first, the CPU marks the entry, and the word changes. -/
def userStore (address : Nat) (value : Word) (state : State) :
    Except Fault State := do
  let table := (state.pde (dirIndex address)).page
  let index := tableIndex address
  let state ←
    if (state.phys table index).writable then .ok state
    else doWpPage address state
  let entry := state.phys table index
  return (state.setWord table index (Word.stored entry)).setWord
    entry.page (address / 4 % 1024) value

inductive Op where
  | getFreePage
  | freePage (frame : Nat)
  /-- The kernel writes to a page it holds, as `bread_page` does. -/
  | fill (frame : Nat) (content : Nat → Word)
  | putPage (frame address : Nat)
  | copyPageTables (parent child size : Nat)
  | freePageTables (nr size : Nat)
  | doWpPage (address : Nat)
  | writeVerify (address : Nat)
  | getEmptyPage (address : Nat)
  | tryToShare (address p current : Nat)
  | doNoPage (tasks : Nat → Option Task) (current : Nat) (mine : Task)
      (iCount address : Nat) (load : Nat → Word)
  | userStore (nr address : Nat) (value : Word)

/-- The entry of an address, zero where there is no page table. -/
def State.entryAt (state : State) (address : Nat) : Word :=
  state.pte (dirIndex address) (tableIndex address)

/-- When the kernel makes a call: windows are those of tasks 1..63 (0 only as
the source of the first fork), a page is freed or placed by its holder, a
page is placed where there is none, and faults name the page they hit. -/
def Op.Allowed (system : System) : Op → Prop
  | getFreePage => True
  | freePage frame => 0 < system.holds frame
  | fill frame _ => 0 < system.holds frame
  | putPage frame address =>
      0 < system.holds frame ∧ dirIndex address ∈ userDirs ∧
        (system.state.entryAt address).present = false
  | copyPageTables parent child size =>
      parent < 64 ∧ 1 ≤ child ∧ child < 64 ∧ parent ≠ child ∧
        size ≤ 0x4000000 ∧ (parent = 0 → size ≤ 0xA0 * 4096)
  | freePageTables nr size => 1 ≤ nr ∧ nr < 64 ∧ size ≤ 0x4000000
  | doWpPage address =>
      dirIndex address ∈ userDirs ∧
        (system.state.entryAt address).present = true
  | writeVerify address => dirIndex address ∈ userDirs
  | getEmptyPage address =>
      dirIndex address ∈ userDirs ∧
        (system.state.entryAt address).present = false
  | tryToShare address p current =>
      address < 0x4000000 ∧ 1 ≤ p ∧ p < 64 ∧ 1 ≤ current ∧ current < 64
  | doNoPage tasks current mine _ address _ =>
      Windowed tasks ∧ mine.startCode = windowBase current ∧
        Fault.At current address ∧
        (system.state.entryAt address).present = false
  | userStore nr address _ =>
      Fault.At nr address ∧
        (system.state.entryAt address).present = true

/-- A call, with the holds it leaves. -/
def Op.perform (system : System) : Op → Except Fault System
  | getFreePage =>
      match Mm.getFreePage system.state with
      | (none, state) => .ok { system with state }
      | (some frame, state) => .ok ⟨state, take system.holds frame⟩
  | freePage frame => do
      let state ← Mm.freePage frame system.state
      return ⟨state, give system.holds frame⟩
  | fill frame content =>
      .ok { system with state := system.state.fillPage frame content }
  | putPage frame address =>
      match Mm.putPage frame address system.state with
      | (true, state) => .ok ⟨state, give system.holds frame⟩
      | (false, state) => .ok { system with state }
  | copyPageTables parent child size => do
      let (_, state) ← Mm.copyPageTables (windowBase parent)
        (windowBase child) size system.state
      return { system with state }
  | freePageTables nr size => do
      let state ← Mm.freePageTables (windowBase nr) size system.state
      return { system with state }
  | doWpPage address => do
      let state ← Mm.doWpPage address system.state
      return { system with state }
  | writeVerify address => do
      let state ← Mm.writeVerify address system.state
      return { system with state }
  | getEmptyPage address => do
      let state ← Mm.getEmptyPage address system.state
      return { system with state }
  | tryToShare address p current => do
      let (_, state) ← Mm.tryToShare address (windowBase p)
        (windowBase current) system.state
      return { system with state }
  | doNoPage tasks current mine iCount address load => do
      let state ← Mm.doNoPage tasks current mine iCount address load
        system.state
      return { system with state }
  | userStore _ address value => do
      let state ← Mm.userStore address value system.state
      return { system with state }

/-- The states of all runs.  After `oom()` the others go on; a panic halts
the machine. -/
inductive Reachable (limits : MemoryLimits) (before : State) :
    System → Prop where
  | boot : Reachable limits before ⟨boot limits before, fun _ => 0⟩
  | step {system next : System} (op : Op)
      (reached : Reachable limits before system)
      (allowed : op.Allowed system)
      (done : op.perform system = .ok next) : Reachable limits before next
  | oom {system : System} {state : State} (op : Op)
      (reached : Reachable limits before system)
      (allowed : op.Allowed system)
      (failed : op.perform system = .error (.oom state)) :
      Reachable limits before { system with state }

section Stores

variable {layout : Layout} {state : State} {holds : Nat → Nat}

/-- The page a user entry lets its task read. -/
def State.reads (state : State) (slot : Nat × Nat) : Option (Nat → Word) :=
  (state.view.mappings slot).map state.phys

theorem setWord_eq_fillPage (state : State) (frame index : Nat)
    (word : Word) :
    state.setWord frame index word =
      state.fillPage frame fun other =>
        if other = index then word else state.phys frame other := by
  unfold State.setWord State.fillPage
  congr 1
  funext otherFrame otherIndex
  by_cases same : otherFrame = frame
  · subst same
    simp
  · simp [same]

/-- A store through a writable entry, with what it leaves alone. -/
theorem writableStore (valid : Valid layout state holds)
    {dir index : Nat} (offset : Nat) (value : Word)
    (member : (dir, index) ∈ userSlots)
    (entryPresent : (state.pte dir index).present = true)
    (isWritable : (state.pte dir index).writable = true) {next : State}
    (stored : next =
      (state.setWord (state.pde dir).page index
        (Word.stored (state.pte dir index))).setWord
          (state.pte dir index).page offset value) :
    Valid layout next holds ∧
      ∀ slot ∈ userSlots, slot ≠ (dir, index) →
        next.reads slot = state.reads slot := by
  have inDirs := (mem_userSlots.mp member).1
  have isPresent : (state.pde dir).present = true := by
    by_contra absent
    rw [State.pte_eq_zero (by simpa using absent)] at entryPresent
    simp at entryPresent
  have tableManaged := valid.table_managed inDirs isPresent
  have maps : state.view.mappings (dir, index) =
      some (state.pte dir index).page :=
    Word.target_eq_some.mpr ⟨entryPresent, rfl⟩
  obtain ⟨managed, alone⟩ := valid.exact.exclusive _ member _ maps isWritable
  have mapped := Exact.mapCount_pos member maps
  have notTable : state.view.tableCount (state.pte dir index).page = 0 := by
    by_contra isTable
    have := valid.exact.apart (state.pte dir index).page (by omega)
    omega
  let marked := state.setWord (state.pde dir).page index
    (Word.stored (state.pte dir index))
  have markedView : marked.view = state.view.setEntry dir index
      (Word.stored (state.pte dir index)) :=
    valid.view_setWord member isPresent _
  have markedPde : marked.pde = state.pde :=
    State.setWord_pde (Valid.managed_ne_zero tableManaged)
  have markedTables : marked.view.tableCount (state.pte dir index).page =
      0 := by
    rw [markedView]
    exact notTable
  have nextEq : next = marked.fillPage (state.pte dir index).page
      (fun other => if other = offset then value
        else marked.phys (state.pte dir index).page other) :=
    stored.trans (setWord_eq_fillPage marked _ _ _)
  have nextView : next.view = marked.view := by
    rw [nextEq]
    exact Valid.view_fillPage managed markedTables _
  constructor
  · apply valid.of_exact
    · rw [nextView, markedView]
      apply valid.exact.restamp (Word.target_stored _)
      exact fun _ => .inl isWritable
    · rw [nextEq]
      rfl
    · rw [nextEq, State.fillPage_pde (Valid.managed_ne_zero managed),
        markedPde]
    · rw [nextEq, State.fillPage_frame (valid.managed_ne_kernel managed)]
      exact State.setWord_frame (valid.managed_ne_kernel tableManaged)
  · intro slot slotMember different
    have sameMapping : next.view.mappings slot =
        state.view.mappings slot := by
      rw [nextView, markedView, View.setEntry_mappings, if_neg different]
    unfold State.reads
    rw [sameMapping]
    cases slotMaps : state.view.mappings slot with
    | none => rfl
    | some frame =>
        have otherPage : frame ≠ (state.pte dir index).page := by
          rintro rfl
          exact different (refs_le_one_iff.mp (le_of_eq alone) slot slotMember
            _ member slotMaps maps)
        have otherTable : frame ≠ (state.pde dir).page := by
          rintro rfl
          exact valid.exact.table_not_mapped inDirs slotMember
            (State.view_tables isPresent) slotMaps
        simp only [Option.map_some, Option.some.injEq]
        rw [nextEq, State.fillPage_frame otherPage]
        exact State.setWord_frame otherTable

/-- Splitting an entry changes nothing another entry reads. -/
theorem Owned.reads
    {dir index : Nat} {word : Word} {next : State}
    (owned : Owned layout state holds dir index word next)
    {slot : Nat × Nat} (slotMember : slot ∈ userSlots)
    (different : slot ≠ (dir, index)) :
    next.reads slot = state.reads slot := by
  have sameMapping : next.view.mappings slot =
      state.view.mappings slot := by
    have changed := View.setEntry_mappings state.view dir index word slot
    rw [if_neg different] at changed
    rw [← changed]
    unfold View.mappings
    rw [owned.entries]
  unfold State.reads
  rw [sameMapping]
  cases slotMaps : state.view.mappings slot with
  | none => rfl
  | some frame =>
      simp only [Option.map_some, Option.some.injEq]
      by_cases zero : frame = 0
      · rw [zero]
        exact owned.pde
      · apply owned.keeps frame zero
        intro _
        have := Exact.mapCount_pos slotMember slotMaps
        omega

theorem doWpPage_spec (valid : Valid layout state holds) {address : Nat}
    (isUser : dirIndex address ∈ userDirs)
    (entryPresent : (state.entryAt address).present = true) :
    match doWpPage address state with
    | .ok next => ∃ word, Owned layout state holds (dirIndex address)
        (tableIndex address) word next
    | .error (.oom next) => next = state
    | .error (.panic _) => False :=
  unWpPage_spec valid (address_slot isUser) entryPresent

theorem writeVerify_spec (valid : Valid layout state holds) {address : Nat}
    (isUser : dirIndex address ∈ userDirs) :
    match writeVerify address state with
    | .ok next => next = state ∨ ∃ word, Owned layout state holds
        (dirIndex address) (tableIndex address) word next
    | .error (.oom next) => next = state
    | .error (.panic _) => False := by
  have member := address_slot isUser
  unfold writeVerify
  dsimp only
  by_cases isPresent : (state.pde (dirIndex address)).present = true
  · rw [if_neg (by simp [isPresent]), ← State.pte_eq member isPresent]
    by_cases readOnly : (state.pte (dirIndex address)
          (tableIndex address)).present = true ∧
        ¬ (state.pte (dirIndex address)
          (tableIndex address)).writable = true
    · rw [if_pos readOnly]
      have spec := unWpPage_spec valid member readOnly.1
      revert spec
      cases unWpPage (state.pde (dirIndex address)).page
          (tableIndex address) state with
      | ok next => exact fun spec => .inr spec
      | error fault =>
          cases fault with
          | oom next => exact id
          | panic message => exact id
    · rw [if_neg readOnly]
      exact .inl rfl
  · rw [if_pos isPresent]
    exact .inl rfl

theorem userStore_spec (valid : Valid layout state holds)
    {address : Nat} {value : Word} (isUser : dirIndex address ∈ userDirs)
    (entryPresent : (state.entryAt address).present = true) :
    match userStore address value state with
    | .ok next => Valid layout next holds ∧
        ∀ slot ∈ userSlots, slot ≠ (dirIndex address, tableIndex address) →
          next.reads slot = state.reads slot
    | .error (.oom next) => next = state
    | .error (.panic _) => False := by
  have member := address_slot isUser
  have isPresent : (state.pde (dirIndex address)).present = true := by
    by_contra absent
    unfold State.entryAt at entryPresent
    rw [State.pte_eq_zero (by simpa using absent)] at entryPresent
    simp at entryPresent
  unfold userStore
  dsimp only
  rw [← State.pte_eq member isPresent]
  by_cases isWritable : (state.pte (dirIndex address)
      (tableIndex address)).writable = true
  · rw [if_pos isWritable]
    simp only [bind, Except.bind, pure, Except.pure]
    rw [← State.pte_eq member isPresent]
    exact writableStore valid _ value member entryPresent isWritable rfl
  · rw [if_neg isWritable]
    have split := doWpPage_spec valid isUser entryPresent
    revert split
    cases doWpPage address state with
    | error fault =>
        intro split
        cases fault with
        | oom next => exact split
        | panic message => exact split
    | ok middle =>
        rintro ⟨word, owned⟩
        have entry : middle.pte (dirIndex address) (tableIndex address) =
            word := by
          have same := congrFun (congrFun owned.entries (dirIndex address))
            (tableIndex address)
          rwa [View.setEntry_same] at same
        have middlePresent : (middle.pde (dirIndex address)).present =
            true := by
          rw [owned.pde]
          exact isPresent
        have middleEntry := State.pte_eq member middlePresent
        rw [owned.pde] at middleEntry
        simp only [bind, Except.bind, pure, Except.pure]
        rw [← middleEntry]
        have done := writableStore owned.valid (address / 4 % 1024) value member
          (by rw [entry]; exact owned.present)
          (by rw [entry]; exact owned.writable) rfl
        rw [owned.pde] at done
        refine ⟨done.1, ?_⟩
        intro slot slotMember different
        rw [done.2 slot slotMember different]
        exact owned.reads slotMember different

end Stores

section Invariant

variable {layout : Layout} {system : System}

/-- What a call may end in, from a valid state. -/
def Sound (layout : Layout) (holds : Nat → Nat) :
    Except Fault System → Prop
  | .ok next => Valid layout next.state next.holds
  | .error (.oom next) => Valid layout next holds
  | .error (.panic message) => message ≠ "trying to free free page"

/-- A call that leaves the holds alone is sound if the memory function is. -/
theorem Sound.lift {holds : Nat → Nat} {result : Except Fault State}
    {rest : Nat → Nat} (spec : match result with
      | .ok next => Valid layout next rest
      | .error (.oom next) => Valid layout next holds
      | .error (.panic message) => message ≠ "trying to free free page") :
    Sound layout holds (do
      let state ← result
      return ⟨state, rest⟩) := by
  cases result with
  | ok next => exact spec
  | error fault =>
      cases fault with
      | oom next => exact spec
      | panic message => exact spec

theorem fault_dirs {current address : Nat}
    (at_ : Fault.At current address) :
    dirIndex address ∈ userDirs ∧ dirIndex address / 16 = current := by
  obtain ⟨isTask, above, below⟩ := at_
  rw [mem_userDirs]
  unfold dirIndex
  unfold windowBase at above below
  omega

/-- One call keeps the account: the step of every run. -/
theorem perform_sound (valid : Valid layout system.state system.holds)
    {op : Op} (allowed : op.Allowed system) :
    Sound layout system.holds (op.perform system) := by
  cases op with
  | getFreePage =>
      simp only [Op.perform]
      cases found : getFreePage system.state with
      | mk result next =>
          cases result with
          | none =>
              have same := getFreePage_none found
              subst same
              exact valid
          | some frame => exact (getFreePage_some valid found).valid
  | freePage frame =>
      obtain ⟨freed, freedValid⟩ := freePage_held valid allowed
      apply Sound.lift
      rw [freed]
      exact freedValid
  | fill frame content => exact (fillHeld valid allowed content).1
  | putPage frame address =>
      obtain ⟨held, isUser, absent⟩ := allowed
      simp only [Op.perform]
      cases put : putPage frame address system.state with
      | mk done next =>
          cases done with
          | true => exact (putPage_true valid isUser absent held put).1
          | false =>
              have same := putPage_false put
              subst same
              exact valid
  | copyPageTables parent child size =>
      obtain ⟨isParent, low, high, different, fits, first⟩ := allowed
      have spec := copyPageTables_spec valid ⟨low, high⟩ isParent different
        fits first
      simp only [Op.perform]
      revert spec
      cases copyPageTables (windowBase parent) (windowBase child) size
          system.state with
      | ok result => exact fun spec => spec.valid
      | error fault =>
          cases fault with
          | oom next => exact fun spec => spec.elim
          | panic message =>
              intro spec
              show message ≠ _
              rw [spec]
              decide
  | freePageTables nr size =>
      obtain ⟨low, high, fits⟩ := allowed
      obtain ⟨next, run, torn⟩ :=
        freePageTables_spec valid ⟨low, high⟩ fits
      apply Sound.lift
      rw [run]
      exact torn.valid
  | doWpPage address =>
      have spec := doWpPage_spec valid allowed.1 allowed.2
      apply Sound.lift
      revert spec
      cases doWpPage address system.state with
      | ok next => exact fun ⟨_, owned⟩ => owned.valid
      | error fault =>
          cases fault with
          | oom next =>
              rintro rfl
              exact valid
          | panic message => exact fun spec => spec.elim
  | writeVerify address =>
      have spec := writeVerify_spec valid allowed
      apply Sound.lift
      revert spec
      cases writeVerify address system.state with
      | ok next =>
          rintro (rfl | ⟨_, owned⟩)
          · exact valid
          · exact owned.valid
      | error fault =>
          cases fault with
          | oom next =>
              rintro rfl
              exact valid
          | panic message => exact fun spec => spec.elim
  | getEmptyPage address =>
      have spec := getEmptyPage_spec valid allowed.1 allowed.2
      apply Sound.lift
      revert spec
      cases getEmptyPage address system.state with
      | ok next => exact fun spec => spec.1
      | error fault =>
          cases fault with
          | oom next => exact fun spec => spec.1
          | panic message => exact fun spec => spec.elim
  | tryToShare address p current =>
      obtain ⟨inside, lowP, highP, lowC, highC⟩ := allowed
      have spec := tryToShare_spec valid inside ⟨lowP, highP⟩ ⟨lowC, highC⟩
      simp only [Op.perform]
      revert spec
      cases tryToShare address (windowBase p) (windowBase current)
          system.state with
      | ok result =>
          obtain ⟨flag, next⟩ := result
          cases flag with
          | true => exact fun spec => spec.valid
          | false =>
              rintro rfl
              exact valid
      | error fault =>
          cases fault with
          | oom next =>
              rintro rfl
              exact valid
          | panic message =>
              rintro ⟨spec, _⟩
              show message ≠ _
              rw [spec]
              decide
  | doNoPage tasks current mine iCount address load =>
      obtain ⟨windowed, own, at_, absent⟩ := allowed
      have spec := @doNoPage_spec layout system.state system.holds valid
        tasks windowed current iCount address mine load own at_ absent
      apply Sound.lift
      revert spec
      cases doNoPage tasks current mine iCount address load system.state with
      | ok next => exact fun spec => spec.1
      | error fault =>
          cases fault with
          | oom next => exact fun spec => spec.1
          | panic message => exact fun spec => spec.elim
  | userStore nr address value =>
      have spec := @userStore_spec layout system.state system.holds valid
        address value (fault_dirs allowed.1).1 allowed.2
      apply Sound.lift
      revert spec
      cases userStore address value system.state with
      | ok next => exact fun spec => spec.1
      | error fault =>
          cases fault with
          | oom next =>
              rintro rfl
              exact valid
          | panic message => exact fun spec => spec.elim

/-- Every reachable state is valid. -/
theorem reachable_valid {limits : MemoryLimits} {before : State}
    (reached : Reachable limits before system) :
    Valid limits.layout system.state system.holds := by
  induction reached with
  | boot => exact boot_valid limits before
  | step op _ allowed done induction =>
      have sound := perform_sound induction allowed
      rwa [done] at sound
  | oom op _ allowed failed induction =>
      have sound := perform_sound induction allowed
      rwa [failed] at sound

end Invariant

/-- Copy-on-write isolation: a counted page that two tasks map is counted
more than once and writable for nobody, and a store by one task leaves what
the others read as it was. -/
structure Isolated (system : System) : Prop where
  shared : ∀ frame, lowMem ≤ frame →
    ∀ first ∈ userSlots, ∀ second ∈ userSlots,
      first.1 / 16 ≠ second.1 / 16 →
      system.state.view.mappings first = some frame →
      system.state.view.mappings second = some frame →
        1 < (system.state.memMap (mapNr frame)).toNat ∧
        ∀ slot ∈ userSlots, system.state.view.mappings slot = some frame →
          (system.state.pte slot.1 slot.2).writable = false
  stores : ∀ nr address value,
    (Op.userStore nr address value).Allowed system →
      match userStore address value system.state with
      | .ok next | .error (.oom next) =>
          ∀ slot ∈ userSlots, slot.1 / 16 ≠ nr →
            next.reads slot = system.state.reads slot
      | .error (.panic _) => False

theorem copyOnWrite_isolates {limits : MemoryLimits} {before : State}
    {system : System} (reached : Reachable limits before system) :
    Isolated system := by
  have valid := reachable_valid reached
  constructor
  · intro frame high first inFirst second inSecond windows mapsFirst mapsSecond
    have different : first ≠ second := by
      rintro rfl
      exact windows rfl
    have shared : 2 ≤ system.state.view.mapCount frame :=
      two_le_refs inFirst inSecond different mapsFirst mapsSecond
    have managed : limits.layout.Managed frame := by
      rcases valid.exact.frames first inFirst frame mapsFirst with managed | low
      · exact managed
      · omega
    have total := valid.exact.count frame managed
    constructor
    · show 1 < system.state.view.count frame
      omega
    · intro slot slotMember slotMaps
      by_contra isWritable
      have writable : (system.state.pte slot.1 slot.2).writable = true := by
        simpa using isWritable
      have alone := valid.exact.exclusive slot slotMember frame slotMaps
        writable
      omega
  · intro nr address value allowed
    obtain ⟨isUser, window⟩ := fault_dirs allowed.1
    have spec := @userStore_spec limits.layout system.state system.holds
      valid address value isUser allowed.2
    revert spec
    cases userStore address value system.state with
    | ok next =>
        intro spec slot slotMember otherTask
        refine spec.2 slot slotMember ?_
        rintro rfl
        exact otherTask window
    | error fault =>
        cases fault with
        | oom next =>
            rintro rfl slot _ _
            rfl
        | panic message => exact id

def sixteenMegabytes : MemoryLimits where
  startMem := 0x400000
  endMem := 0x1000000
  low := by decide
  ordered := by decide
  high := by decide

def zeroMemory : State where
  memMap := fun _ => 0
  highMemory := 0
  phys := fun _ _ => 0#32

/-- A page for the first task, then a fork into the second window. -/
theorem copyOnWrite_isolates_afterFork : ∃ system,
    Reachable sixteenMegabytes zeroMemory system ∧ Isolated system := by
  have loaded := Reachable.step (.getEmptyPage 0x4000000)
    (@Reachable.boot sixteenMegabytes zeroMemory)
    ⟨mem_userDirs.mpr (by decide), by
      unfold State.entryAt
      rw [boot_pte]
      rfl⟩ rfl
  have forked := Reachable.step (.copyPageTables 1 2 0x1000) loaded
    ⟨by decide, by decide, by decide, by decide, by decide, by decide⟩ rfl
  exact ⟨_, forked, copyOnWrite_isolates forked⟩

/-- `mem_map` counts the uses of every page `mem_init` marked free, so a page
in use is never handed out and never freed once too often. -/
structure Counted (limits : MemoryLimits) (before : State)
    (system : System) : Prop where
  exact : ∀ frame, lowMem ≤ frame → frame < lowMem + pagingPages →
    (boot limits before).memMap (mapNr frame) = 0 →
      (system.state.memMap (mapNr frame)).toNat =
        system.state.view.mapCount frame +
          system.state.view.tableCount frame + system.holds frame
  fresh : ∀ frame next, getFreePage system.state = (some frame, next) →
    system.state.view.mapCount frame = 0 ∧
      system.state.view.tableCount frame = 0 ∧ system.holds frame = 0
  freed : ∀ op : Op, op.Allowed system →
    op.perform system ≠ .error (.panic "trying to free free page")

theorem memMap_exact {limits : MemoryLimits} {before : State}
    {system : System} (reached : Reachable limits before system) :
    Counted limits before system := by
  have valid := reachable_valid reached
  refine ⟨?_, ?_, ?_⟩
  · intro frame low high free
    exact valid.exact.count frame
      ((memInit_free limits before ⟨low, high⟩).mp free)
  · intro frame next found
    have taken := getFreePage_some valid found
    exact ⟨taken.unmapped, taken.notTable, taken.unheld⟩
  · intro op allowed panics
    have sound := perform_sound valid allowed
    rw [panics] at sound
    exact sound rfl

theorem memMap_exact_afterAllocation : ∃ system,
    Reachable sixteenMegabytes zeroMemory system ∧
      system.holds 4095 = 1 ∧ Counted sixteenMegabytes zeroMemory system := by
  have taken := Reachable.step .getFreePage
    (@Reachable.boot sixteenMegabytes zeroMemory) trivial rfl
  exact ⟨_, taken, rfl, memMap_exact taken⟩

end Linux011.Mm
