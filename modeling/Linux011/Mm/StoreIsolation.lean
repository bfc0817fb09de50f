import Linux011.Mm.KernelCallSteps

/-!
# Stores of system calls and copy-on-write

Between the `verify_area` of a call and its stores the pages of the area are
its caller's alone, as long as page sharing keeps away from them.
-/

namespace Linux011.Mm

open Bytes Machines

variable {layout : Layout} {kernel next : Kernel} {nr offset : Nat}
  {space : Space}

/-! ## The property -/

/-- The task is about to store a byte. -/
structure Kernel.Storing (kernel : Kernel) (nr : Nat) (space : Space)
    (offset : Nat) (value : Byte) : Prop where
  isCurrent : kernel.current = some nr
  isSpace : kernel.space nr = some space
  loaded : kernel.loading nr = none
  looked : (kernel.script nr).looks = []
  checked : (kernel.script nr).area = none
  first : ∃ rest, (kernel.script nr).puts = .store offset value :: rest
  inSegment : offset < space.limit

/-- No other entry maps the page of the address, and a store there changes
nothing that is read at another one. -/
structure Alone (state : State) (address : Nat) (value : Byte) : Prop where
  counted : lowMem ≤ (state.entryAt address).page
  unmapped : ∀ slot ∈ userSlots,
    slot ≠ (dirIndex address, tableIndex address) →
      state.view.mappings slot ≠ some (state.entryAt address).page
  unread : ∀ other, dirIndex other ∈ userDirs →
    (dirIndex other, tableIndex other) ≠
      (dirIndex address, tableIndex address) →
        (kernelStore address value state).userByte other =
          state.userByte other

/-- The page a call stores to, if it is there, is mapped by no other task. -/
def StoresAlone (kernel : Kernel) : Prop :=
  ∀ nr space offset value, kernel.Storing nr space offset value →
    (kernel.memory.entryAt
      (space.paging.startCode + offset)).present = true →
        Alone kernel.memory (space.paging.startCode + offset) value

theorem alone_of_writable {state : State} {holds : Nat → Nat}
    (valid : Valid layout state holds) {address : Nat}
    (inside : Fault.At nr address)
    (isPresent : (state.entryAt address).present = true)
    (isWritable : (state.entryAt address).writable = true) (value : Byte) :
    Alone state address value := by
  have member := address_slot inside.isUser
  have maps := maps_of_present isPresent
  obtain ⟨managed, single⟩ :=
    valid.exact.exclusive _ member _ maps isWritable
  have unmapped (slot : Nat × Nat) (inSlots : slot ∈ userSlots)
      (different : slot ≠ (dirIndex address, tableIndex address)) :
      state.view.mappings slot ≠ some (state.entryAt address).page := by
    intro same
    have one := RefCount.refs_le_one_iff.mp (le_of_eq single)
    exact different (one slot inSlots _ member same maps)
  refine ⟨managed.lowMem_le, unmapped, ?_⟩
  intro other otherUser different
  have stored := kernelStore_spec valid inside.isUser isPresent managed value
  have otherSlot := address_slot otherUser
  have apart : ¬ (dirIndex other = dirIndex address ∧
      tableIndex other = tableIndex address) :=
    fun same => different (Prod.ext same.1 same.2)
  have entry : (kernelStore address value state).entryAt other =
      state.entryAt other :=
    (stored.entries (dirIndex other) (tableIndex other)).trans (if_neg apart)
  unfold State.userByte
  rw [entry]
  by_cases isThere : (state.entryAt other).present = true
  · have otherMaps := maps_of_present isThere
    rw [Word.target_eq_some.mpr ⟨isThere, rfl⟩, Option.map_some,
      Option.map_some]
    congr 1
    refine State.byte_congr (stored.frames _ ?_ ?_) _
    · intro dir inDirs isTable
      exact valid.exact.table_not_mapped inDirs otherSlot isTable otherMaps
    · intro same
      exact unmapped _ otherSlot different (otherMaps.trans (congrArg some same))
  · unfold Word.target
    rw [if_neg isThere]
    rfl

/-! ## The condition -/

/-- The address the next step of a call refers to. -/
def Script.reference (script : Script) : Option Nat :=
  match script.looks, script.area, script.puts with
  | .load offset :: _, _, _ => some offset
  | [], none, .store offset _ :: _ => some offset
  | _, _, _ => none

/-- The task has still to store to the page, and nothing left to verify. -/
def Kernel.Owed (kernel : Kernel) (nr offset : Nat) : Prop :=
  (kernel.script nr).area = none ∧
    ∃ other value, .store other value ∈ (kernel.script nr).puts ∧
      other / 4096 = offset / 4096

/-- The task whose page a reference of the task in slot `nr` would share. -/
def Kernel.sharer (kernel : Kernel) (iCount nr offset : Nat)
    (space : Space) : Option Nat :=
  let tmp := (space.paging.startCode + offset) / 4096 * 4096 -
    space.paging.startCode
  if (kernel.memory.entryAt (space.paging.startCode + offset)).present = true ∨
      space.paging.executable = none ∨ space.paging.endData ≤ tmp ∨
        iCount < 2 then
    none
  else shareSource kernel.tasks nr space.paging tmp kernel.memory 63

/-- A call that stores without `verify_area` does so to pages that are its
caller's alone, the size of an area does not overflow, and no page is shared
that a call of either task is going to store to. -/
def Careful (kernel : Kernel) : Action → Prop
  | .call nr call => call.script.area = none →
      ∀ space offset value, kernel.space nr = some space →
        .store offset value ∈ call.script.puts → offset < space.limit →
          Unshared kernel.memory (space.paging.startCode + offset)
  | .proceed iCount _ => ∀ nr space, kernel.current = some nr →
      kernel.space nr = some space →
        (∀ address size, (kernel.script nr).area = some (address, size) →
          address % 4096 + size < 2 ^ 31) ∧
        ∀ offset p, (kernel.script nr).reference = some offset →
          kernel.sharer iCount nr offset space = some p →
            ¬ kernel.Owed p offset ∧ ¬ kernel.Owed nr offset
  | _ => True

/-! ## The invariant -/

structure Secure (layout : Layout) (kernel : Kernel) : Prop where
  valid : Valid layout kernel.memory kernel.holds
  tables : KernelTables layout kernel.memory
  spaces : ∀ nr space, kernel.space nr = some space →
    space.paging.startCode = windowBase nr ∧ nr < 64 ∧
      space.limit ≤ 0x4000000 ∧ (nr = 0 → space.limit ≤ 0xA0 * 4096)
  idle : ∀ nr, kernel.space nr = none ∨ nr = 0 →
    (kernel.script nr).Idle ∧ kernel.loading nr = none
  loading : ∀ nr page address, kernel.loading nr = some (page, address) →
    Fault.At nr address ∧ 0 < kernel.holds page ∧
      (kernel.memory.entryAt address).present = false
  apart : ∀ nr other page address otherAddress,
    kernel.loading nr = some (page, address) →
      kernel.loading other = some (page, otherAddress) → nr = other
  current : ∀ nr, kernel.current = some nr → 1 ≤ nr
  unshared : ∀ nr space offset value, kernel.space nr = some space →
    (kernel.script nr).area = none →
      .store offset value ∈ (kernel.script nr).puts → offset < space.limit →
        Unshared kernel.memory (windowBase nr + offset)

theorem Secure.inside (secure : Secure layout kernel) (isTask : 1 ≤ nr)
    (isSpace : kernel.space nr = some space)
    (inSegment : offset < space.limit) :
    Fault.At nr (windowBase nr + offset) := by
  obtain ⟨_, inTable, fits, _⟩ := secure.spaces nr space isSpace
  exact ⟨⟨isTask, inTable⟩, Nat.le_add_right _ _,
    Nat.add_lt_add_left (lt_of_lt_of_le inSegment fits) _⟩

theorem Fault.At.unique {address other : Nat} (first : Fault.At nr address)
    (second : Fault.At other address) : nr = other := by
  obtain ⟨_, above, below⟩ := first
  obtain ⟨_, otherAbove, otherBelow⟩ := second
  unfold windowBase at above below otherAbove otherBelow
  omega

/-- A task with a store to make is one of 1 to 63. -/
theorem Secure.storing (secure : Secure layout kernel) {value : Byte}
    (isStore : .store offset value ∈ (kernel.script nr).puts) : 1 ≤ nr := by
  by_contra isZero
  have isIdle := (secure.idle nr (.inr (by omega))).1
  rw [isIdle.2.2] at isStore
  cases isStore

/-- A change of memory. -/
theorem Secure.setMemory (secure : Secure layout kernel) {memory : State}
    {holds : Nat → Nat} {about : Nat → Prop}
    (moved : Moved layout kernel.memory about memory holds)
    (held : ∀ nr page address, kernel.loading nr = some (page, address) →
      0 < holds page)
    (loading : ∀ nr page address, kernel.loading nr = some (page, address) →
      ¬ about address)
    (stores : ∀ nr space offset value, kernel.space nr = some space →
      (kernel.script nr).area = none →
        .store offset value ∈ (kernel.script nr).puts →
          offset < space.limit → about (windowBase nr + offset) →
            Unshared memory (windowBase nr + offset)) :
    Secure layout { kernel with memory, holds } where
  valid := moved.valid
  tables := secure.tables.stay moved.kernel
  spaces := secure.spaces
  idle := secure.idle
  loading := by
    intro nr page address isLoading
    obtain ⟨inside, _, absent⟩ := secure.loading nr page address isLoading
    refine ⟨inside, held nr page address isLoading, ?_⟩
    exact (moved.kept nr address inside
      (loading nr page address isLoading)).1.trans absent
  apart := secure.apart
  current := secure.current
  unshared := by
    intro nr space offset value isSpace checked isStore inSegment
    by_cases here : about (windowBase nr + offset)
    · exact stores nr space offset value isSpace checked isStore inSegment here
    · have inside := secure.inside (secure.storing isStore) isSpace inSegment
      exact (moved.kept nr _ inside here).unshared
        (secure.unshared nr space offset value isSpace checked isStore
          inSegment)

/-- An operation that is about no page in use. -/
theorem Secure.aside (secure : Secure layout kernel) {memory : State}
    (moved : Moved layout kernel.memory (fun _ => False) memory
      kernel.holds) : Secure layout { kernel with memory } :=
  secure.setMemory moved
    (fun nr page address isLoading =>
      (secure.loading nr page address isLoading).2.1)
    (fun _ _ _ _ => id) fun _ _ _ _ _ _ _ _ impossible => impossible.elim

/-- A call that goes on, or a new one. -/
theorem Secure.setScript (secure : Secure layout kernel) {script : Script}
    (isTask : 1 ≤ nr) (isSpace : kernel.space nr = some space)
    (stores : script.area = none → ∀ offset value,
      .store offset value ∈ script.puts → offset < space.limit →
        Unshared kernel.memory (windowBase nr + offset)) :
    Secure layout (kernel.setScript nr script) where
  valid := secure.valid
  tables := secure.tables
  spaces := secure.spaces
  idle := by
    intro other nothing
    have notHere : other ≠ nr := by
      rintro rfl
      rcases nothing with noTask | zero
      · exact nomatch isSpace.symm.trans noTask
      · omega
    obtain ⟨isIdle, isLoaded⟩ := secure.idle other nothing
    unfold Kernel.setScript
    dsimp only
    rw [if_neg notHere]
    exact ⟨isIdle, isLoaded⟩
  loading := secure.loading
  apart := secure.apart
  current := secure.current
  unshared := by
    intro other otherSpace offset value otherIs checked isStore inSegment
    unfold Kernel.setScript at checked isStore
    dsimp only at checked isStore
    split at checked <;> rename_i here
    · subst here
      rw [if_pos rfl] at isStore
      have same := Option.some.inj (isSpace.symm.trans otherIs)
      subst same
      exact stores checked offset value isStore inSegment
    · rw [if_neg here] at isStore
      exact secure.unshared other otherSpace offset value otherIs checked
        isStore inSegment

theorem Secure.setCurrent (secure : Secure layout kernel)
    {current : Option Nat} (isTask : ∀ nr, current = some nr → 1 ≤ nr) :
    Secure layout { kernel with current } where
  valid := secure.valid
  tables := secure.tables
  spaces := secure.spaces
  idle := secure.idle
  loading := secure.loading
  apart := secure.apart
  current := isTask
  unshared := secure.unshared

theorem Secure.sleep (secure : Secure layout kernel) :
    Secure layout { kernel with current := none } :=
  secure.setCurrent fun _ impossible => nomatch impossible

/-! ## The steps -/

/-- `do_exit`. -/
theorem Secure.exit (secure : Secure layout kernel) (isTask : 1 ≤ nr)
    (done : kernel.exit nr = some next) : Secure layout next := by
  unfold Kernel.exit at done
  cases isSpace : kernel.space nr with
  | none =>
      rw [isSpace] at done
      cases done
  | some space =>
      obtain ⟨start, inTable, fits, _⟩ := secure.spaces nr space isSpace
      obtain ⟨memory, freed, moved⟩ :=
        freeWindow_moved secure.valid ⟨isTask, inTable⟩ fits
      rw [isSpace] at done
      dsimp only at done
      rw [start, freed] at done
      cases done
      have spaces (other : Nat) : (kernel.setSpace nr none).space other =
          if other = nr then none else kernel.space other := rfl
      have scripts (other : Nat) : (kernel.setScript nr .idle).script other =
          if other = nr then .idle else kernel.script other := rfl
      have loadings (other : Nat) : (kernel.setLoading nr none).loading other =
          if other = nr then none else kernel.loading other := rfl
      refine
        { valid := moved.valid
          tables := secure.tables.stay moved.kernel
          spaces := ?_, idle := ?_, loading := ?_, apart := ?_
          current := fun _ impossible => nomatch impossible
          unshared := ?_ }
      · intro other otherSpace otherIs
        refine secure.spaces other otherSpace ?_
        have is := (spaces other).symm.trans otherIs
        split at is
        · cases is
        · exact is
      · intro other nothing
        by_cases here : other = nr
        · have isScript := (scripts other).trans (if_pos here)
          have isLoading := (loadings other).trans (if_pos here)
          refine ⟨?_, isLoading⟩
          show ((kernel.setScript nr .idle).script other).Idle
          rw [isScript]
          exact ⟨rfl, rfl, rfl⟩
        · obtain ⟨isIdle, isLoaded⟩ := secure.idle other (by
            rcases nothing with noTask | zero
            · exact .inl (((spaces other).trans (if_neg here)).symm.trans
                noTask)
            · exact .inr zero)
          have isScript := (scripts other).trans (if_neg here)
          have isLoading := (loadings other).trans (if_neg here)
          refine ⟨?_, isLoading.trans isLoaded⟩
          show ((kernel.setScript nr .idle).script other).Idle
          rw [isScript]
          exact isIdle
      · intro other page address isLoading
        have is := (loadings other).symm.trans isLoading
        split at is <;> rename_i here
        · cases is
        · obtain ⟨inside, held, absent⟩ := secure.loading other page address is
          refine ⟨inside, held, ?_⟩
          exact (moved.kept other address inside fun own =>
            here (Fault.At.unique inside own)).1.trans absent
      · intro first second page address otherAddress isFirst isSecond
        have firstIs := (loadings first).symm.trans isFirst
        have secondIs := (loadings second).symm.trans isSecond
        split at firstIs
        · cases firstIs
        · split at secondIs
          · cases secondIs
          · exact secure.apart first second page address otherAddress firstIs
              secondIs
      · intro other otherSpace offset value otherIs checked isStore inSegment
        have is := (spaces other).symm.trans otherIs
        split at is <;> rename_i here
        · cases is
        · have isScript := (scripts other).trans (if_neg here)
          have otherChecked : (kernel.script other).area = none :=
            (congrArg Script.area isScript).symm.trans checked
          have otherStore :
              .store offset value ∈ (kernel.script other).puts := by
            rw [← isScript]
            exact isStore
          have inside := secure.inside (secure.storing otherStore) is inSegment
          exact (moved.kept other _ inside fun own =>
            here (Fault.At.unique inside own)).unshared
            (secure.unshared other otherSpace offset value is otherChecked
              otherStore inSegment)

/-- An operation on memory that may run out of pages. -/
theorem settle_secure {result : Except Fault State} (isTask : 1 ≤ nr)
    (ok : ∀ memory, result = .ok memory →
      Secure layout { kernel with memory })
    (oom : ∀ memory, result = .error (.oom memory) →
      Secure layout { kernel with memory })
    (done : kernel.settle nr result = some next) : Secure layout next := by
  cases result with
  | ok memory =>
      cases done
      exact ok memory rfl
  | error fault =>
      cases fault with
      | oom memory => exact (oom memory rfl).exit isTask done
      | panic message => cases done

/-- The page of a reference is missing and no page is being read. -/
structure Missing (kernel : Kernel) (nr : Nat) (space : Space)
    (offset : Nat) : Prop where
  isSpace : kernel.space nr = some space
  loaded : kernel.loading nr = none
  inSegment : offset < space.limit
  absent : (kernel.memory.entryAt
    (space.paging.startCode + offset)).present = false

/-- What is loading in the window of a task that waits for nothing is for
another page. -/
theorem Secure.notLoading (secure : Secure layout kernel)
    (loaded : kernel.loading nr = none) {address : Nat}
    (inside : Fault.At nr address) {other page otherAddress : Nat}
    (isLoading : kernel.loading other = some (page, otherAddress)) :
    otherAddress / 4096 ≠ address / 4096 := by
  intro samePage
  obtain ⟨otherInside, _, _⟩ :=
    secure.loading other page otherAddress isLoading
  have same : other = nr := by
    obtain ⟨_, above, below⟩ := inside
    obtain ⟨_, otherAbove, otherBelow⟩ := otherInside
    unfold windowBase at above below otherAbove otherBelow
    omega
  rw [same, loaded] at isLoading
  cases isLoading

theorem pageAddress {address : Nat} (inside : Fault.At nr address) :
    Fault.At nr (address / 4096 * 4096) ∧
      address / 4096 * 4096 / 4096 = address / 4096 := by
  obtain ⟨isTask, above, below⟩ := inside
  refine ⟨⟨isTask, ?_, by omega⟩, by omega⟩
  unfold windowBase at above ⊢
  omega

/-- Addresses of two windows on one page are in one window. -/
theorem samePage_window {other address further : Nat}
    (inside : Fault.At nr address) (otherInside : Fault.At other further)
    (samePage : further / 4096 = address / 4096) : other = nr := by
  obtain ⟨_, above, below⟩ := inside
  obtain ⟨_, otherAbove, otherBelow⟩ := otherInside
  unfold windowBase at above below otherAbove otherBelow
  omega

/-- A page to be read in, or none any more. -/
theorem Secure.setLoading (secure : Secure layout kernel) (isTask : 1 ≤ nr)
    (isSpace : kernel.space nr = some space) {loading : Option (Nat × Nat)}
    (fits : ∀ page address, loading = some (page, address) →
      Fault.At nr address ∧ 0 < kernel.holds page ∧
        (kernel.memory.entryAt address).present = false)
    (alone : ∀ page address, loading = some (page, address) →
      ∀ other otherAddress,
        kernel.loading other = some (page, otherAddress) → other = nr) :
    Secure layout (kernel.setLoading nr loading) where
  valid := secure.valid
  tables := secure.tables
  spaces := secure.spaces
  idle := by
    intro other nothing
    have notHere : other ≠ nr := by
      rintro rfl
      rcases nothing with noTask | zero
      · exact nomatch isSpace.symm.trans noTask
      · omega
    obtain ⟨isIdle, isLoaded⟩ := secure.idle other nothing
    exact ⟨isIdle, (if_neg notHere).trans isLoaded⟩
  loading := by
    intro other page address isLoading
    unfold Kernel.setLoading at isLoading
    dsimp only at isLoading
    split at isLoading <;> rename_i here
    · subst here
      exact fits page address isLoading
    · exact secure.loading other page address isLoading
  apart := by
    intro first second page address otherAddress isFirst isSecond
    unfold Kernel.setLoading at isFirst isSecond
    dsimp only at isFirst isSecond
    split at isFirst <;> split at isSecond <;> rename_i here there
    · rw [here, there]
    · rw [here]
      exact (alone page address isFirst second otherAddress isSecond).symm
    · rw [there]
      exact alone page otherAddress isSecond first address isFirst
    · exact secure.apart first second page address otherAddress isFirst
        isSecond
  current := secure.current
  unshared := secure.unshared

theorem take_held {holds : Nat → Nat} {page other : Nat}
    (held : 0 < holds other) : 0 < take holds page other := by
  unfold take
  split
  · omega
  · exact held

/-- A page is taken and read in while the task sleeps. -/
theorem Secure.load (secure : Secure layout kernel) {page address : Nat}
    {memory : State} (isSpace : kernel.space nr = some space)
    (inside : Fault.At nr address)
    (absent : (kernel.memory.entryAt address).present = false)
    (taken : Taken layout kernel.memory kernel.holds page memory)
    (content : Nat → Word) :
    Secure layout
      { kernel.setLoading nr (some (page, address)) with
        memory := memory.fillPage page content
        holds := take kernel.holds page
        current := none } := by
  have moved := (taken.moved.trans (fillHeld_moved taken.valid
    (take_pos kernel.holds page) content)).weaken
      (fun _ both => both.elim id id)
  have fresh (other otherAddress : Nat)
      (isLoading : kernel.loading other = some (page, otherAddress)) :
      False := by
    have held := (secure.loading other page otherAddress isLoading).2.1
    rw [taken.unheld] at held
    exact Nat.lt_irrefl 0 held
  have filled := secure.setMemory moved
    (fun other page address isLoading =>
      take_held (secure.loading other page address isLoading).2.1)
    (fun _ _ _ _ => id) fun _ _ _ _ _ _ _ _ impossible => impossible.elim
  refine (Secure.setLoading filled inside.isTask.1 isSpace ?_ ?_).sleep
  · intro other otherAddress same
    cases same
    exact ⟨inside, take_pos _ _,
      (moved.kept nr address inside id).1.trans absent⟩
  · intro other otherAddress same third thirdAddress isLoading
    cases same
    exact (fresh third thirdAddress isLoading).elim

/-- The page has been read. -/
theorem Secure.pageRead (secure : Secure layout kernel) {page address : Nat}
    (isSpace : kernel.space nr = some space)
    (isLoading : kernel.loading nr = some (page, address))
    (done : kernel.pageRead nr page address = some next) :
    Secure layout next := by
  obtain ⟨inside, held, absent⟩ := secure.loading nr page address isLoading
  have unloaded : Secure layout (kernel.setLoading nr none) := by
    refine Secure.setLoading secure inside.isTask.1 isSpace ?_ ?_
    · intro _ _ impossible
      cases impossible
    · intro _ _ impossible
      cases impossible
  have stillHeld (other otherPage otherAddress : Nat)
      (otherLoading : (kernel.setLoading nr none).loading other =
        some (otherPage, otherAddress)) :
      0 < give kernel.holds page otherPage := by
    unfold Kernel.setLoading at otherLoading
    dsimp only at otherLoading
    split at otherLoading <;> rename_i notHere
    · cases otherLoading
    · have different : otherPage ≠ page := by
        rintro rfl
        exact notHere (secure.apart other nr otherPage otherAddress address
          otherLoading isLoading)
      unfold give
      rw [if_neg different]
      exact (secure.loading other otherPage otherAddress otherLoading).2.1
  unfold Kernel.pageRead at done
  dsimp only at done
  cases put : putPage page address kernel.memory with
  | mk flag memory =>
      rw [show (kernel.setLoading nr none).memory = kernel.memory from rfl,
        put] at done
      cases flag with
      | true =>
          cases done
          obtain ⟨moved, entry⟩ :=
            putPage_moved secure.valid inside absent held put
          refine unloaded.setMemory moved stillHeld ?_ ?_
          · intro other otherPage otherAddress otherLoading
            exact unloaded.notLoading (if_pos rfl) inside otherLoading
          · intro other otherSpace further value _ _ _ _ here
            have unshared : Unshared memory address := by
              intro _
              rw [entry]
              exact Word.writable_user page
            exact unshared.samePage here
      | false =>
          have same := putPage_false put
          subst same
          dsimp only at done
          obtain ⟨memory, freed, moved⟩ := freePage_moved secure.valid held
          rw [freed] at done
          refine Secure.exit (unloaded.setMemory moved stillHeld
            (fun _ _ _ _ => id) ?_) inside.isTask.1 done
          exact fun _ _ _ _ _ _ _ _ impossible => impossible.elim

theorem Secure.windowed (secure : Secure layout kernel) :
    Windowed kernel.tasks := by
  intro nr p isTask
  unfold Kernel.tasks at isTask
  obtain ⟨space, isSpace, rfl⟩ := Option.map_eq_some_iff.mp isTask
  exact (secure.spaces nr space isSpace).1

/-- What `share_page` does for a missing page. -/
theorem Secure.shares (secure : Secure layout kernel) (isTask : 1 ≤ nr)
    (missing : Missing kernel nr space offset) {iCount : Nat}
    (loads : ¬ (space.paging.executable = none ∨ space.paging.endData ≤
      (space.paging.startCode + offset) / 4096 * 4096 -
        space.paging.startCode)) :
    match sharePage kernel.tasks nr space.paging iCount
      ((space.paging.startCode + offset) / 4096 * 4096 -
        space.paging.startCode) kernel.memory with
    | .ok (true, memory) => ∃ p,
        kernel.sharer iCount nr offset space = some p ∧ (1 ≤ p ∧ p < 64) ∧
          Moved layout kernel.memory
            (fun other => other / 4096 = (windowBase nr + offset) / 4096 ∨
              other / 4096 = (windowBase p + offset) / 4096)
            memory kernel.holds ∧
          (kernel.memory.entryAt (windowBase p + offset)).present = true
    | .ok (false, memory) => memory = kernel.memory
    | .error (.oom memory) => memory = kernel.memory
    | .error (.panic _) => False := by
  obtain ⟨start, inTable, fits, _⟩ := secure.spaces nr space missing.isSpace
  have inside := secure.inside isTask missing.isSpace missing.inSegment
  have absent := missing.absent
  unfold sharePage
  by_cases few : space.paging.executable = none ∨ iCount < 2
  · rw [if_pos few]
  · rw [if_neg few]
    have isSharer : kernel.sharer iCount nr offset space =
        shareSource kernel.tasks nr space.paging
          ((space.paging.startCode + offset) / 4096 * 4096 -
            space.paging.startCode) kernel.memory 63 := by
      unfold Kernel.sharer
      dsimp only
      rw [if_neg]
      rintro (isPresent | noProgram | beyond | fewer)
      · exact nomatch isPresent.symm.trans absent
      · exact loads (.inl noProgram)
      · exact loads (.inr beyond)
      · exact few (.inr fewer)
    rw [isSharer]
    rw [start] at absent ⊢
    obtain ⟨sameDir, sameTable, low⟩ := windowDir_sub inside
    have spec := shareWith_spec secure.valid secure.windowed ⟨isTask, inTable⟩
      start low (show 63 < 64 by decide)
    have source (memory : State) :=
      @shareWith_source layout kernel.memory memory kernel.holds secure.valid
        kernel.tasks secure.windowed nr space.paging
        ((windowBase nr + offset) / 4096 * 4096 - windowBase nr) 63
        ⟨isTask, inTable⟩ start low (by decide)
    revert spec source
    cases shareWith kernel.tasks nr space.paging
        ((windowBase nr + offset) / 4096 * 4096 - windowBase nr) 63
        kernel.memory with
    | error fault =>
        cases fault with
        | oom memory => exact fun spec _ => spec
        | panic message =>
            rintro ⟨_, isPresent⟩ _
            rw [sameDir, sameTable] at isPresent
            exact nomatch isPresent.symm.trans absent
    | ok result =>
        obtain ⟨flag, memory⟩ := result
        cases flag with
        | false => exact fun spec _ => spec
        | true =>
            intro _ source
            obtain ⟨p, isSource, _, isOther, page⟩ := source memory rfl
            have moved := page.moved inside isOther
            rw [Nat.add_sub_cancel_left] at moved
            refine ⟨p, isSource, isOther, moved, ?_⟩
            have sourceInside : Fault.At p (windowBase p + offset) :=
              ⟨isOther, Nat.le_add_right _ _, by
                have := missing.inSegment
                omega⟩
            obtain ⟨sourceDir, sourceTable, _⟩ := windowDir_sub sourceInside
            have sameOffset : (windowBase p + offset) / 4096 * 4096 -
                windowBase p = (windowBase nr + offset) / 4096 * 4096 -
                  windowBase nr := by
              unfold windowBase
              omega
            rw [sameOffset] at sourceDir sourceTable
            have isPresent := page.present
            rw [sourceDir, sourceTable] at isPresent
            exact isPresent

/-- `do_no_page`. -/
theorem Secure.pageIn (secure : Secure layout kernel) (isTask : 1 ≤ nr)
    (missing : Missing kernel nr space offset) {iCount : Nat}
    {load : Nat → Word}
    (alone : ∀ p, kernel.sharer iCount nr offset space = some p →
      ¬ kernel.Owed p offset ∧ ¬ kernel.Owed nr offset)
    (done : kernel.pageIn nr iCount load space
      (space.paging.startCode + offset) = some next) :
    Secure layout next := by
  obtain ⟨start, inTable, fits, _⟩ := secure.spaces nr space missing.isSpace
  have inside := secure.inside isTask missing.isSpace missing.inSegment
  obtain ⟨pageInside, samePage⟩ := pageAddress inside
  have absent := missing.absent
  rw [start] at absent
  have pageAbsent : (kernel.memory.entryAt
      ((windowBase nr + offset) / 4096 * 4096)).present = false := by
    rw [entryAt_samePage samePage]
    exact absent
  have held (other page address : Nat)
      (isLoading : kernel.loading other = some (page, address)) :=
    (secure.loading other page address isLoading).2.1
  unfold Kernel.pageIn at done
  dsimp only at done
  by_cases plain : space.paging.executable = none ∨ space.paging.endData ≤
      (space.paging.startCode + offset) / 4096 * 4096 - space.paging.startCode
  · rw [if_pos plain, start] at done
    have spec := getEmptyPage_moved secure.valid pageInside pageAbsent
    refine settle_secure isTask ?_ ?_ done
    · intro memory got
      rw [got] at spec
      obtain ⟨moved, _, isWritable⟩ := spec
      refine secure.setMemory moved held ?_ ?_
      · intro other page address isLoading
        rw [samePage]
        exact secure.notLoading missing.loaded inside isLoading
      · intro other otherSpace further value _ _ _ _ here
        have unshared : Unshared memory
            ((windowBase nr + offset) / 4096 * 4096) := fun _ => isWritable
        exact unshared.samePage here
    · intro memory out
      rw [out] at spec
      exact secure.aside spec
  · rw [if_neg plain] at done
    have shares := @Secure.shares layout kernel nr offset space secure isTask
      missing iCount plain
    revert shares done
    cases sharePage kernel.tasks nr space.paging iCount
        ((space.paging.startCode + offset) / 4096 * 4096 -
          space.paging.startCode) kernel.memory with
    | error fault =>
        cases fault with
        | panic message => exact fun _ impossible => impossible.elim
        | oom memory =>
            intro done same
            have same : memory = kernel.memory := same
            subst same
            exact secure.exit isTask done
    | ok result =>
        obtain ⟨flag, memory⟩ := result
        cases flag with
        | true =>
            rintro done ⟨p, isSource, isOther, moved, isPresent⟩
            cases done
            obtain ⟨notTheirs, notOwn⟩ := alone p isSource
            have sourceInside : Fault.At p (windowBase p + offset) :=
              ⟨isOther, Nat.le_add_right _ _, by
                have := missing.inSegment
                omega⟩
            refine secure.setMemory moved held ?_ ?_
            · rintro other page address isLoading (here | there)
              · exact secure.notLoading missing.loaded inside isLoading here
              · obtain ⟨_, _, isAbsent⟩ :=
                  secure.loading other page address isLoading
                rw [entryAt_samePage there, isPresent] at isAbsent
                cases isAbsent
            · rintro other otherSpace further value otherIs checked isStore
                inSegment (here | there)
              · have otherInside :=
                  secure.inside (secure.storing isStore) otherIs inSegment
                have same := samePage_window inside otherInside here
                subst same
                refine absurd ⟨checked, further, value, isStore, ?_⟩ notOwn
                unfold windowBase at here
                omega
              · have otherInside :=
                  secure.inside (secure.storing isStore) otherIs inSegment
                have same := samePage_window sourceInside otherInside there
                subst same
                refine absurd ⟨checked, further, value, isStore, ?_⟩ notTheirs
                unfold windowBase at there
                omega
        | false =>
            intro done same
            have same : memory = kernel.memory := same
            subst same
            dsimp only at done
            cases found : getFreePage kernel.memory with
            | mk got memory =>
                rw [found] at done
                cases got with
                | none =>
                    have same := getFreePage_none found
                    subst same
                    exact secure.exit isTask done
                | some page =>
                    have taken := getFreePage_some secure.valid found
                    rw [start] at done
                    cases done
                    exact secure.load missing.isSpace pageInside pageAbsent
                      taken load

/-- A reference of a call, `next` being the state where the page is there. -/
theorem Secure.reference (secure : Secure layout kernel) (isTask : 1 ≤ nr)
    (isSpace : kernel.space nr = some space) (loaded : kernel.loading nr = none)
    {iCount : Nat} {load : Nat → Word} {referred : Kernel}
    (alone : ∀ p, kernel.sharer iCount nr offset space = some p →
      ¬ kernel.Owed p offset ∧ ¬ kernel.Owed nr offset)
    (there : offset < space.limit → (kernel.memory.entryAt
      (space.paging.startCode + offset)).present = true →
        Secure layout referred)
    (done : Kernel.reference nr iCount load space offset referred kernel =
      some next) : Secure layout next := by
  unfold Kernel.reference at done
  by_cases outside : space.limit ≤ offset
  · rw [if_pos outside] at done
    exact secure.exit isTask done
  · have inSegment : offset < space.limit := Nat.lt_of_not_le outside
    rw [if_neg outside] at done
    by_cases isPresent : (kernel.memory.entryAt
        (space.paging.startCode + offset)).present = true
    · rw [if_pos isPresent] at done
      cases done
      exact there inSegment isPresent
    · rw [if_neg isPresent] at done
      exact secure.pageIn isTask
        ⟨isSpace, loaded, inSegment, eq_false_of_ne_true isPresent⟩ alone done

/-- What remained of its call does not matter to a task that exits. -/
theorem exit_setScript {script : Script} :
    Kernel.exit nr (kernel.setScript nr script) = Kernel.exit nr kernel := by
  unfold Kernel.exit
  cases isSpace : kernel.space nr with
  | none =>
      rw [show (kernel.setScript nr script).space nr = none from isSpace]
  | some space =>
      rw [show (kernel.setScript nr script).space nr = some space from isSpace]
      dsimp only
      have same : (((kernel.setScript nr script).setSpace nr none).setScript
          nr .idle).setLoading nr none = ((kernel.setSpace nr none).setScript
            nr .idle).setLoading nr none := by
        unfold Kernel.setScript Kernel.setSpace Kernel.setLoading
        congr 1
        funext other
        dsimp only
        split <;> rfl
      rewrite [same]
      rfl

/-- `verify_area` leaves the pages of its area to the caller. -/
theorem Secure.verify (secure : Secure layout kernel) (isTask : 1 ≤ nr)
    (isSpace : kernel.space nr = some space) {address size : Nat}
    (isArea : (kernel.script nr).area = some (address, size))
    (small : address % 4096 + size < 2 ^ 31)
    (done : (kernel.setScript nr (kernel.script nr).withoutArea).settle nr
      (verifyArea space.paging.startCode address size kernel.memory) =
        some next) : Secure layout next := by
  obtain ⟨start, inTable, fits, _⟩ := secure.spaces nr space isSpace
  have spec := @verifyPages_moved layout kernel.memory kernel.holds
    secure.valid secure.tables
    ((address / 4096 * 4096 + space.paging.startCode) % 2 ^ 32)
    (verifiedPages address size) (Nat.mod_lt _ (by decide))
    (by rw [start]; unfold windowBase; omega)
  have covered := (kernel.script nr).covered address size isArea
  have pages : verifiedPages address size =
      (address % 4096 + size + 4095) / 4096 := if_pos small
  unfold verifyArea at done
  revert spec done
  cases verifyPages
      ((address / 4096 * 4096 + space.paging.startCode) % 2 ^ 32)
      (verifiedPages address size) kernel.memory with
  | ok memory =>
      rintro done ⟨moved, unshared⟩
      cases done
      refine Secure.setScript (secure.aside moved) isTask isSpace ?_
      intro _ offset value isStore inSegment
      have within := covered offset value isStore
      have inside := secure.inside isTask isSpace inSegment
      have top := inside.below
      have wrapped :
          (address / 4096 * 4096 + space.paging.startCode) % 2 ^ 32 =
            address / 4096 * 4096 + windowBase nr := by
        rw [start]
        unfold windowBase at top ⊢
        omega
      refine unshared nr _ inside ?_ ?_
      · rw [wrapped]
        omega
      · rw [wrapped, pages]
        omega
  | error fault =>
      cases fault with
      | panic message => exact fun _ impossible => impossible.elim
      | oom memory =>
          intro done moved
          have sameExit := @exit_setScript { kernel with memory } nr
            (kernel.script nr).withoutArea
          exact (secure.aside moved).exit isTask (sameExit.symm.trans done)

/-- The state with one store less to make. -/
theorem Secure.afterPut (secure : Secure layout kernel) (isTask : 1 ≤ nr)
    (isSpace : kernel.space nr = some space)
    (checked : (kernel.script nr).area = none) {put : Put} {rest : List Put}
    (isPuts : (kernel.script nr).puts = put :: rest) :
    Secure layout (kernel.setScript nr (.withPuts rest)) := by
  refine secure.setScript isTask isSpace ?_
  intro _ offset value isStore inSegment
  refine secure.unshared nr space offset value isSpace checked ?_ inSegment
  rw [isPuts]
  exact List.mem_cons_of_mem put isStore

theorem Secure.afterLook (secure : Secure layout kernel) (isTask : 1 ≤ nr)
    (isSpace : kernel.space nr = some space) (looks : List Look) :
    Secure layout (kernel.setScript nr ((kernel.script nr).withLooks looks)) :=
  secure.setScript isTask isSpace fun checked offset value isStore =>
    secure.unshared nr space offset value isSpace checked isStore

/-- One step of a call. -/
theorem Secure.proceed (secure : Secure layout kernel) {iCount : Nat}
    {load : Nat → Word}
    (careful : Careful kernel (.proceed iCount load))
    (done : Kernel.proceed iCount load kernel = some next) :
    Secure layout next := by
  unfold Kernel.proceed at done
  cases isCurrent : kernel.current with
  | none =>
      rw [isCurrent] at done
      cases done
  | some nr =>
      have isTask := secure.current nr isCurrent
      rw [isCurrent] at done
      dsimp only at done
      cases isSpace : kernel.space nr with
      | none =>
          rw [isSpace] at done
          cases done
      | some space =>
          obtain ⟨small, alone⟩ := careful nr space isCurrent isSpace
          obtain ⟨start, _, _, _⟩ := secure.spaces nr space isSpace
          rw [isSpace] at done
          cases loaded : kernel.loading nr with
          | some page =>
              rw [loaded] at done
              exact secure.pageRead isSpace loaded done
          | none =>
              rw [loaded] at done
              dsimp only at done
              cases looks : (kernel.script nr).looks with
              | cons look rest =>
                  rw [looks] at done
                  cases look with
                  | sleep =>
                      cases done
                      exact (secure.afterLook isTask isSpace rest).sleep
                  | load offset =>
                      refine secure.reference isTask isSpace loaded
                        (alone offset · ?_) (fun _ _ =>
                          secure.afterLook isTask isSpace rest) done
                      unfold Script.reference
                      rw [looks]
              | nil =>
                  rw [looks] at done
                  cases area : (kernel.script nr).area with
                  | some range =>
                      rw [area] at done
                      exact secure.verify isTask isSpace area
                        (small _ _ area) done
                  | none =>
                      rw [area] at done
                      cases puts : (kernel.script nr).puts with
                      | nil =>
                          rw [puts] at done
                          cases done
                          exact secure.sleep
                      | cons put rest =>
                          rw [puts] at done
                          cases put with
                          | sleep =>
                              cases done
                              exact (secure.afterPut isTask isSpace area
                                puts).sleep
                          | store offset value =>
                              refine secure.reference isTask isSpace loaded
                                (alone offset · ?_) ?_ done
                              · unfold Script.reference
                                rw [looks, area, puts]
                              · intro inSegment isPresent
                                rw [start] at isPresent ⊢
                                have inside :=
                                  secure.inside isTask isSpace inSegment
                                have isWritable := secure.unshared nr space
                                  offset value isSpace area
                                  (by rw [puts]; exact List.mem_cons_self)
                                  inSegment isPresent
                                exact (secure.aside (kernelStore_moved
                                  secure.valid inside isPresent isWritable
                                  value)).afterPut isTask isSpace area puts

/-- The space of a child. -/
theorem Secure.setSpace (secure : Secure layout kernel) {child : Nat}
    {fresh : Space} (isChild : 1 ≤ child ∧ child < 64)
    (isFree : kernel.space child = none)
    (start : fresh.paging.startCode = windowBase child)
    (fits : fresh.limit ≤ 0x4000000) :
    Secure layout (kernel.setSpace child (some fresh)) where
  valid := secure.valid
  tables := secure.tables
  spaces := by
    intro nr space isSpace
    unfold Kernel.setSpace at isSpace
    dsimp only at isSpace
    split at isSpace <;> rename_i here
    · cases isSpace
      rw [here]
      exact ⟨start, isChild.2, fits, fun zero => by omega⟩
    · exact secure.spaces nr space isSpace
  idle := by
    intro nr nothing
    by_cases here : nr = child
    · rw [here]
      exact secure.idle child (.inl isFree)
    · refine secure.idle nr ?_
      rcases nothing with noTask | zero
      · exact .inl ((if_neg here).symm.trans noTask)
      · exact .inr zero
  loading := secure.loading
  apart := secure.apart
  current := secure.current
  unshared := by
    intro nr space offset value isSpace checked isStore inSegment
    unfold Kernel.setSpace at isSpace
    dsimp only at isSpace
    split at isSpace <;> rename_i here
    · have isIdle := (secure.idle child (.inl isFree)).1
      subst here
      have isStore : .store offset value ∈ (kernel.script nr).puts := isStore
      rw [isIdle.2.2] at isStore
      cases isStore
    · exact secure.unshared nr space offset value isSpace checked isStore
        inSegment

/-- An operation that is about windows without a call. -/
theorem Secure.idleWindows (secure : Secure layout kernel) {memory : State}
    {about : Nat → Prop}
    (moved : Moved layout kernel.memory about memory kernel.holds)
    (quiet : ∀ nr address, Fault.At nr address → about address →
      (kernel.script nr).Idle ∧ kernel.loading nr = none) :
    Secure layout { kernel with memory } := by
  refine secure.setMemory moved ?_ ?_ ?_
  · intro nr page address isLoading
    exact (secure.loading nr page address isLoading).2.1
  · intro nr page address isLoading here
    obtain ⟨inside, _⟩ := secure.loading nr page address isLoading
    have nothing := (quiet nr address inside here).2
    rw [isLoading] at nothing
    cases nothing
  · intro nr space offset value isSpace _ isStore inSegment here
    have inside := secure.inside (secure.storing isStore) isSpace inSegment
    have nothing := (quiet nr _ inside here).1.2.2
    rw [nothing] at isStore
    cases isStore

/-- A fork. -/
theorem Secure.copyMem (secure : Secure layout kernel) {parent child : Nat}
    (inUser : kernel.InUser parent) (isChild : 1 ≤ child ∧ child < 64)
    (isFree : kernel.space child = none)
    (done : kernel.copyMem parent child = some next) :
    Secure layout next := by
  unfold Kernel.copyMem at done
  cases isSpace : kernel.space parent with
  | none =>
      rw [isSpace] at done
      cases done
  | some space =>
      obtain ⟨start, inTable, fits, first⟩ :=
        secure.spaces parent space isSpace
      have different : parent ≠ child := by
        rintro rfl
        exact nomatch isSpace.symm.trans isFree
      have quiet (nr address : Nat) (inside : Fault.At nr address)
          (here : Fault.At parent address ∨ Fault.At child address) :
          (kernel.script nr).Idle ∧ kernel.loading nr = none := by
        rcases here with own | new
        · have same := Fault.At.unique own inside
          subst same
          exact inUser.2
        · have same := Fault.At.unique new inside
          subst same
          exact secure.idle child (.inl isFree)
      -- an opaque name, since the numeral in the window's address is large
      obtain ⟨base, isBase⟩ : ∃ base, base = windowBase child := ⟨_, rfl⟩
      rw [isSpace, ← isBase] at done
      dsimp only at done
      rw [start] at done
      cases copied : copyPageTables (windowBase parent) base
          space.limit kernel.memory with
      | error fault =>
          rw [copied] at done
          cases done
      | ok result =>
          obtain ⟨flag, memory⟩ := result
          have moved := copyWindow_moved secure.valid isChild inTable
            different fits first (isBase ▸ copied)
          have middle := secure.idleWindows moved quiet
          rw [copied] at done
          cases flag with
          | true =>
              cases done
              exact Secure.setSpace middle isChild isFree isBase fits
          | false =>
              obtain ⟨last, freed, further⟩ :=
                freeWindow_moved moved.valid isChild fits
              dsimp only at done
              rw [isBase, freed] at done
              cases done
              refine Secure.idleWindows middle further ?_
              intro nr address inside own
              exact quiet nr address inside (.inr own)

/-- A step of the machine. -/
theorem Secure.step (secure : Secure layout kernel) {action : Action}
    (careful : Careful kernel action)
    (done : kernelCalls.step kernel action = some next) :
    Secure layout next := by
  cases action with
  | take =>
      simp only [kernelCalls] at done
      cases found : getFreePage kernel.memory with
      | mk page memory =>
          rw [found] at done
          cases page with
          | none =>
              cases done
              exact secure
          | some page =>
              cases done
              have taken := getFreePage_some secure.valid found
              exact secure.setMemory taken.moved
                (fun nr page address isLoading =>
                  take_held (secure.loading nr page address isLoading).2.1)
                (fun _ _ _ _ => id)
                fun _ _ _ _ _ _ _ _ impossible => impossible.elim
  | release page =>
      simp only [kernelCalls] at done
      by_cases may : 0 < kernel.holds page ∧ kernel.NotLoading page
      · rw [if_pos may] at done
        obtain ⟨memory, freed, moved⟩ := freePage_moved secure.valid may.1
        rw [freed] at done
        cases done
        refine secure.setMemory moved ?_ (fun _ _ _ _ => id)
          fun _ _ _ _ _ _ _ _ impossible => impossible.elim
        intro nr other address isLoading
        obtain ⟨inside, held, _⟩ := secure.loading nr other address isLoading
        have different : other ≠ page := by
          rintro rfl
          exact may.2 nr inside.isTask.2 (by rw [isLoading]; rfl)
        unfold give
        rw [if_neg different]
        exact held
      · rw [if_neg may] at done
        cases done
  | fork parent child =>
      simp only [kernelCalls] at done
      split at done <;> rename_i may
      · exact secure.copyMem may.1 ⟨may.2.1, may.2.2.1⟩
          (Option.isNone_iff_eq_none.mp may.2.2.2) done
      · cases done
  | store nr offset value =>
      simp only [kernelCalls] at done
      cases isSpace : kernel.space nr with
      | none =>
          rw [isSpace] at done
          cases done
      | some space =>
          obtain ⟨start, _, _, _⟩ := secure.spaces nr space isSpace
          rw [isSpace] at done
          dsimp only at done
          split at done <;> rename_i may
          · split at done <;> rename_i outside
            · exact secure.exit may.2 done
            · split at done <;> rename_i isPresent
              · have inside := secure.inside may.2 isSpace
                  (Nat.lt_of_not_le outside)
                rw [start] at done isPresent
                have spec :=
                  programStore_moved secure.valid inside isPresent value
                refine settle_secure may.2 ?_ ?_ done
                · intro memory stored
                  rw [stored] at spec
                  exact secure.aside spec
                · intro memory out
                  rw [out] at spec
                  exact secure.aside spec
              · cases done
          · cases done
  | call nr call =>
      simp only [kernelCalls] at done
      split at done <;> rename_i may
      · obtain ⟨_, isTask, isThere⟩ := may
        obtain ⟨space, isSpace⟩ := Option.isSome_iff_exists.mp isThere
        obtain ⟨start, _, _, _⟩ := secure.spaces nr space isSpace
        cases done
        refine (secure.setScript isTask isSpace ?_).setCurrent ?_
        · intro checked offset value isStore inSegment
          rw [← start]
          exact careful checked space offset value isSpace isStore inSegment
        · intro other same
          cases same
          exact isTask
      · cases done
  | proceed iCount load => exact secure.proceed careful done
  | resume nr =>
      simp only [kernelCalls] at done
      split at done <;> rename_i may
      · cases done
        refine secure.setCurrent ?_
        intro other same
        cases same
        by_contra isZero
        exact may.2.2 ⟨may.1, secure.idle nr (.inr (by omega))⟩
      · cases done

/-! ## Runs -/

/-- A sound system in which no call is in progress. -/
structure Initial (layout : Layout) (kernel : Kernel) : Prop where
  valid : Valid layout kernel.memory kernel.holds
  tables : KernelTables layout kernel.memory
  spaces : ∀ nr space, kernel.space nr = some space →
    space.paging.startCode = windowBase nr ∧ nr < 64 ∧
      space.limit ≤ 0x4000000 ∧ (nr = 0 → space.limit ≤ 0xA0 * 4096)
  quiet : ∀ nr, (kernel.script nr).Idle ∧ kernel.loading nr = none
  user : kernel.current = none

theorem Initial.secure (initial : Initial layout kernel) :
    Secure layout kernel where
  valid := initial.valid
  tables := initial.tables
  spaces := initial.spaces
  idle := fun nr _ => initial.quiet nr
  loading := by
    intro nr page address isLoading
    exact nomatch isLoading.symm.trans (initial.quiet nr).2
  apart := by
    intro nr _ page address _ isLoading
    exact nomatch isLoading.symm.trans (initial.quiet nr).2
  current := by
    intro nr isCurrent
    exact nomatch isCurrent.symm.trans initial.user
  unshared := by
    intro nr space offset value _ _ isStore
    rw [(initial.quiet nr).1.2.2] at isStore
    cases isStore

theorem reachable_secure {start : Kernel} (initial : Initial layout start)
    (reached : kernelCalls.Reachable Careful start kernel) :
    Secure layout kernel := by
  refine reached.invariant initial.secure ?_
  intro kernel action next secure careful steps
  exact secure.step careful steps

/-- In every run that is careful, a call stores to no page that another task
maps. -/
theorem kernelStores_alone {start : Kernel} (initial : Initial layout start)
    (reached : kernelCalls.Reachable Careful start kernel) :
    StoresAlone kernel := by
  intro nr space offset value storing isPresent
  have secure := reachable_secure initial reached
  obtain ⟨rest, isPuts⟩ := storing.first
  have isStore : .store offset value ∈ (kernel.script nr).puts := by
    rw [isPuts]
    exact List.mem_cons_self
  obtain ⟨start, _, _, _⟩ := secure.spaces nr space storing.isSpace
  have inside := secure.inside (secure.storing isStore) storing.isSpace
    storing.inSegment
  rw [start] at isPresent ⊢
  exact alone_of_writable secure.valid inside isPresent
    (secure.unshared nr space offset value storing.isSpace storing.checked
      isStore storing.inSegment isPresent) value

section Example

theorem boot_kernelTables (limits : MemoryLimits) (before : State) :
    KernelTables limits.layout (boot limits before) := by
  have entry (dir : Nat) (low : dir < 4) :
      (boot limits before).pde dir = Word.user (dir + 1) := if_pos low
  have nothing (dir : Nat) (above : ¬ dir < 4) :
      (boot limits before).pde dir = 0#32 := if_neg above
  have page (dir : Nat) (isPresent :
      ((boot limits before).pde dir).present = true) :
      dir < 4 ∧ ((boot limits before).pde dir).page = dir + 1 := by
    by_cases low : dir < 4
    · rw [entry dir low]
      exact ⟨low, Word.page_user (by omega)⟩
    · rw [nothing dir low] at isPresent
      cases isPresent
  refine ⟨?_, ?_⟩
  · intro dir _ isPresent
    obtain ⟨low, isPage⟩ := page dir isPresent
    rw [isPage]
    refine ⟨Nat.succ_ne_zero dir, fun managed => ?_⟩
    have := managed.lowMem_le
    unfold lowMem at this
    omega
  · intro dir _ isPresent index inRange _
    obtain ⟨low, isPage⟩ := page dir isPresent
    have isEntry : (boot limits before).phys (dir + 1) index =
        Word.user ((dir + 1 - 1) * 1024 + index) := by
      unfold boot memInit setupPaging
      dsimp only
      rw [if_neg (Nat.succ_ne_zero dir), if_pos (by omega), if_pos inRange]
    rw [isPage, isEntry]
    exact Word.writable_user _

/-- Memory with a page for the first address of task 2. -/
def onePage : State :=
  match getEmptyPage 0x8000000 (boot sixteenMegabytes zeroMemory) with
  | .ok memory => memory
  | .error _ => boot sixteenMegabytes zeroMemory

/-- Two tasks that run one program of a page. -/
def twoTasks : Kernel where
  memory := onePage
  holds := fun _ => 0
  space := fun nr =>
    if nr = 1 ∨ nr = 2 then
      some ⟨⟨windowBase nr, 0x1000, some 5⟩, 0x1000⟩
    else none
  script := fun _ => .idle
  loading := fun _ => none
  current := none

theorem twoTasks_initial : Initial sixteenMegabytes.layout twoTasks := by
  have inside : Fault.At 2 0x8000000 :=
    ⟨by decide, by decide, by decide⟩
  have booted := boot_valid sixteenMegabytes zeroMemory
  have tables := boot_kernelTables sixteenMegabytes zeroMemory
  have spec := getEmptyPage_moved booted inside (by
    unfold State.entryAt
    rw [boot_pte]
    rfl)
  have sound : Valid sixteenMegabytes.layout onePage (fun _ => 0) ∧
      KernelTables sixteenMegabytes.layout onePage := by
    unfold onePage
    revert spec
    cases getEmptyPage 0x8000000 (boot sixteenMegabytes zeroMemory) with
    | ok memory => exact fun spec => ⟨spec.1.valid, tables.stay spec.1.kernel⟩
    | error fault => exact fun _ => ⟨booted, tables⟩
  refine
    { valid := sound.1
      tables := sound.2
      spaces := ?_
      quiet := fun _ => ⟨⟨rfl, rfl, rfl⟩, rfl⟩
      user := rfl }
  intro nr space isSpace
  unfold twoTasks at isSpace
  dsimp only at isSpace
  split at isSpace <;> rename_i here
  · cases isSpace
    exact ⟨rfl, by omega, show 0x1000 ≤ 0x4000000 by decide,
      fun zero => by omega⟩
  · cases isSpace

/-- The page of the first address of a task, if it has one. -/
def firstEntry (memory : State) (nr : Nat) : Word :=
  if (memory.pde (nr * 16)).present then
    memory.phys (memory.pde (nr * 16)).page 0
  else 0

theorem pte_of_firstEntry {memory : State} (isTask : 1 ≤ nr ∧ nr < 64)
    (isPresent : (firstEntry memory nr).present = true) :
    memory.pte (nr * 16) 0 = firstEntry memory nr := by
  have slot : (nr * 16, 0) ∈ userSlots :=
    mem_userSlots.mpr ⟨mem_userDirs.mpr (by omega), by decide⟩
  unfold firstEntry at isPresent ⊢
  split at isPresent <;> rename_i hasTable
  · rw [if_pos hasTable]
    exact State.pte_eq slot hasTable
  · cases isPresent

/-- A call of `time` up to its first store. -/
theorem kernelStores_alone_time : ∃ kernel space,
    kernelCalls.Reachable Careful twoTasks kernel ∧
      kernel.Storing 2 space 16 (byteOf 7 0) ∧
        Alone kernel.memory (space.paging.startCode + 16)
          (byteOf 7 0) := by
  obtain ⟨called, isCalled⟩ : ∃ called, called =
      { twoTasks.setScript 2 (sysTime 16 7) with current := some 2 } :=
    ⟨_, rfl⟩
  have calls : kernelCalls.step twoTasks (.call 2 (.time 16 7)) =
      some called := by
    rw [isCalled]
    rfl
  have ran : (match verifyArea 0x8000000 16 4 onePage with
      | .ok memory => (firstEntry memory 2).present
      | .error _ => false) = true := by decide +kernel
  cases verified : verifyArea 0x8000000 16 4 onePage with
  | error fault =>
      rw [verified] at ran
      cases ran
  | ok memory =>
      rw [verified] at ran
      have proceeds : kernelCalls.step called (.proceed 0 fun _ => 0) = some
          { called.setScript 2 (sysTime 16 7).withoutArea with memory } := by
        rw [isCalled]
        show Kernel.settle 2 _ (verifyArea 0x8000000 16 4 onePage) = _
        rw [verified]
        rfl
      have reached : kernelCalls.Reachable Careful twoTasks
          { called.setScript 2 (sysTime 16 7).withoutArea with memory } := by
        refine .step (.proceed 0 fun _ => 0) (.step (.call 2 (.time 16 7))
          .start ?_ calls) ?_ proceeds
        · intro impossible
          cases impossible
        · intro nr space isNr _
          rw [isCalled] at isNr ⊢
          cases isNr
          refine ⟨?_, fun _ _ impossible => nomatch impossible⟩
          intro address size same
          cases same
          decide
      have storing : Kernel.Storing
          { called.setScript 2 (sysTime 16 7).withoutArea with memory } 2
            ⟨⟨windowBase 2, 0x1000, some 5⟩, 0x1000⟩ 16 (byteOf 7 0) := by
        rw [isCalled]
        exact
          { isCurrent := rfl
            isSpace := rfl
            loaded := rfl
            looked := rfl
            checked := rfl
            first := ⟨_, rfl⟩
            inSegment := by decide }
      refine ⟨_, _, reached, storing, ?_⟩
      refine kernelStores_alone twoTasks_initial reached 2 _ 16 _ storing ?_
      show (memory.pte 32 0).present = true
      rw [pte_of_firstEntry (show 1 ≤ 2 ∧ 2 < 64 by decide) ran]
      exact ran

/-- A page fault that shares a page, and a call of `pipe`. -/
def shareAndPipe : List Action :=
  [.call 1 (.refer 0), .proceed 2 (fun _ => 0), .proceed 2 (fun _ => 0),
    .proceed 2 (fun _ => 0), .call 1 (.pipe 0 (some (3, 4))),
    .proceed 2 (fun _ => 0), .resume 1]

/-- Task 1 is about to store to a page of task 2. -/
def storesToShared (kernel : Kernel) : Bool :=
  decide (kernel.current = some 1) &&
    decide ((kernel.space 1).map (fun space =>
      (space.paging.startCode, space.limit)) = some (0x4000000, 0x1000)) &&
    decide (kernel.loading 1 = none) &&
    (match (kernel.script 1).looks, (kernel.script 1).area,
      (kernel.script 1).puts with
    | [], none, .store 0 _ :: _ => true
    | _, _, _ => false) &&
    (firstEntry kernel.memory 1).present &&
    decide (firstEntry kernel.memory 2 = firstEntry kernel.memory 1)

/-- `sys_pipe` stores to a page that is shared. -/
theorem sysPipe_storesToShared :
    ¬ ∀ start kernel, Initial sixteenMegabytes.layout start →
      kernelCalls.Reachable Machine.anything start kernel →
        StoresAlone kernel := by
  intro always
  have ran : (kernelCalls.run Machine.anything twoTasks shareAndPipe).any
      storesToShared = true := by decide +kernel
  obtain ⟨kernel, runs, shared⟩ := (Option.any_eq_true _ _).mp ran
  have alone := always twoTasks kernel twoTasks_initial
    (Machine.reachable_of_run .start runs)
  unfold storesToShared at shared
  simp only [Bool.and_eq_true, decide_eq_true_eq] at shared
  obtain ⟨⟨⟨⟨⟨isCurrent, isSpace⟩, isLoaded⟩, isStore⟩, isPresent⟩, same⟩ :=
    shared
  obtain ⟨space, is, limits⟩ := Option.map_eq_some_iff.mp isSpace
  rw [Prod.mk.injEq] at limits
  obtain ⟨start, limit⟩ := limits
  have entry :=
    pte_of_firstEntry (show 1 ≤ 1 ∧ 1 < 64 by decide) isPresent
  have otherEntry :=
    pte_of_firstEntry (show 1 ≤ 2 ∧ 2 < 64 by decide) (same ▸ isPresent)
  obtain ⟨value, storing⟩ : ∃ value, kernel.Storing 1 space 0 value := by
    revert isStore
    cases looks : (kernel.script 1).looks with
    | cons look rest => exact fun impossible => nomatch impossible
    | nil =>
        cases area : (kernel.script 1).area with
        | some range => exact fun impossible => nomatch impossible
        | none =>
            cases puts : (kernel.script 1).puts with
            | nil => exact fun impossible => nomatch impossible
            | cons put rest =>
                cases put with
                | sleep => exact fun impossible => nomatch impossible
                | store offset value =>
                    intro isFirst
                    have isZero : offset = 0 := by
                      cases offset with
                      | zero => rfl
                      | succ offset => cases isFirst
                    exact ⟨value, isCurrent, is, isLoaded, looks, area,
                      ⟨rest, by rw [puts, isZero]⟩, by rw [limit]; decide⟩
  have there := alone 1 space 0 value storing
  have childEntry : kernel.memory.entryAt 0x4000000 =
      firstEntry kernel.memory 1 := entry
  rw [start, Nat.add_zero, childEntry] at there
  have slot : (32, 0) ∈ userSlots :=
    mem_userSlots.mpr ⟨mem_userDirs.mpr (by decide), by decide⟩
  refine (there isPresent).unmapped (32, 0) slot (by decide) ?_
  show Word.target (kernel.memory.pte 32 0) = _
  rw [otherEntry, same, childEntry]
  exact Word.target_eq_some.mpr ⟨isPresent, rfl⟩

end Example

end Linux011.Mm
