import Linux011.Library.ByteMemory
import Linux011.Mm.Runs

/-!
# Stores by the kernel

`put_fs_byte` and `put_fs_long` store through the page tables of the current
task.  The 386 looks at the write bit only in user mode, so a store by the
kernel changes the frame whoever else maps it.
-/

namespace Linux011.Mm

open Bytes RefCount

namespace State

/-- The byte at an offset of a frame. -/
def byte (state : State) (frame offset : Nat) : Byte :=
  byteOf (state.phys frame (offset / 4)) (offset % 4)

def setByte (state : State) (frame offset : Nat) (value : Byte) : State :=
  state.setWord frame (offset / 4)
    (withByte (state.phys frame (offset / 4)) (offset % 4) value)

/-- The byte the tables of the tasks have at a linear address. -/
def userByte (state : State) (address : Nat) : Option Byte :=
  (Word.target (state.entryAt address)).map fun frame =>
    state.byte frame (address % 4096)

theorem byte_setByte (state : State) (frame offset other otherOffset : Nat)
    (value : Byte) :
    (state.setByte frame offset value).byte other otherOffset =
      if other = frame ∧ otherOffset = offset then value
      else state.byte other otherOffset := by
  unfold byte setByte
  by_cases sameWord : other = frame ∧ otherOffset / 4 = offset / 4
  · obtain ⟨rfl, sameIndex⟩ := sameWord
    rw [sameIndex, setWord_same, byteOf_withByte (Nat.mod_lt _ (by decide))
      (Nat.mod_lt _ (by decide))]
    by_cases sameByte : otherOffset % 4 = offset % 4
    · rw [if_pos sameByte, if_pos ⟨rfl, by omega⟩]
    · rw [if_neg sameByte, if_neg (by omega)]
  · rw [if_neg (by
      rintro ⟨rfl, rfl⟩
      exact sameWord ⟨rfl, rfl⟩)]
    by_cases sameFrame : other = frame
    · subst sameFrame
      rw [setWord_index fun same => sameWord ⟨rfl, same⟩]
    · rw [setWord_frame sameFrame]

theorem setByte_frame {state : State} {frame offset other : Nat} {value : Byte}
    (different : other ≠ frame) :
    (state.setByte frame offset value).phys other = state.phys other :=
  setWord_frame different

theorem byte_congr {state next : State} {frame : Nat}
    (same : next.phys frame = state.phys frame) (offset : Nat) :
    next.byte frame offset = state.byte frame offset := by
  unfold byte
  rw [same]

end State

/-- A byte stored by the kernel through a present entry. -/
def kernelStore (address : Nat) (value : Byte) (state : State) : State :=
  let table := (state.pde (dirIndex address)).page
  let index := tableIndex address
  let entry := state.phys table index
  (state.setWord table index (Word.stored entry)).setByte entry.page
    (address % 4096) value

variable {layout : Layout} {state : State} {holds : Nat → Nat}

/-- A byte of a held page may be written. -/
theorem setByteHeld (valid : Valid layout state holds) {frame : Nat}
    (held : 0 < holds frame) (offset : Nat) (value : Byte) :
    Valid layout (state.setByte frame offset value) holds ∧
      (state.setByte frame offset value).view = state.view := by
  unfold State.setByte
  rw [setWord_eq_fillPage]
  exact fillHeld valid held _

theorem State.table_of_entry {address : Nat}
    (isPresent : (state.entryAt address).present = true) :
    (state.pde (dirIndex address)).present = true := by
  by_contra absent
  unfold State.entryAt at isPresent
  rw [State.pte_eq_zero (by simpa using absent)] at isPresent
  simp at isPresent

/-- What a store by the kernel through the entry of `address` leaves. -/
structure KernelStored (layout : Layout) (state : State) (holds : Nat → Nat)
    (address : Nat) (value : Byte) (next : State) : Prop where
  valid : Valid layout next holds
  pde : next.pde = state.pde
  /-- Only the dirty bit of the entry changes. -/
  entries : ∀ dir index, next.pte dir index =
    if dir = dirIndex address ∧ index = tableIndex address then
      Word.stored (state.pte dir index)
    else state.pte dir index
  frames : ∀ frame, (∀ dir ∈ userDirs, state.view.tables dir ≠ some frame) →
    frame ≠ (state.entryAt address).page →
      next.phys frame = state.phys frame
  bytes : ∀ offset, next.byte (state.entryAt address).page offset =
    if offset = address % 4096 then value
    else state.byte (state.entryAt address).page offset

theorem kernelStore_spec (valid : Valid layout state holds) {address : Nat}
    (isUser : dirIndex address ∈ userDirs)
    (isPresent : (state.entryAt address).present = true)
    (managed : layout.Managed (state.entryAt address).page) (value : Byte) :
    KernelStored layout state holds address value
      (kernelStore address value state) := by
  have member := address_slot isUser
  have hasTable := State.table_of_entry isPresent
  have tableManaged := valid.table_managed isUser hasTable
  have entry := State.pte_eq member hasTable
  have maps : state.view.mappings (dirIndex address, tableIndex address) =
      some (state.entryAt address).page :=
    Word.target_eq_some.mpr ⟨isPresent, rfl⟩
  have mapped := Exact.mapCount_pos member maps
  have notTable : state.view.tableCount (state.entryAt address).page = 0 := by
    by_contra isTable
    have := valid.exact.apart (state.entryAt address).page (by omega)
    omega
  have inUse : (state.entryAt address).page ≠
      (state.pde (dirIndex address)).page := by
    intro same
    exact valid.exact.table_not_mapped isUser member
      (State.view_tables hasTable) (same ▸ maps)
  obtain ⟨marked, isMarked⟩ : ∃ marked, marked =
      state.setWord (state.pde (dirIndex address)).page (tableIndex address)
        (Word.stored (state.entryAt address)) := ⟨_, rfl⟩
  have markedView : marked.view = state.view.setEntry (dirIndex address)
      (tableIndex address) (Word.stored (state.entryAt address)) := by
    rw [isMarked]
    exact valid.view_setWord member hasTable _
  have markedPde : marked.pde = state.pde := by
    rw [isMarked]
    exact State.setWord_pde (Valid.managed_ne_zero tableManaged)
  have nextEq : kernelStore address value state =
      marked.setByte (state.entryAt address).page (address % 4096) value := by
    rw [isMarked]
    unfold kernelStore
    dsimp only
    rw [← entry]
    rfl
  have nextView : (kernelStore address value state).view = marked.view := by
    rw [nextEq]
    unfold State.setByte
    rw [setWord_eq_fillPage]
    exact Valid.view_fillPage managed (by rw [markedView]; exact notTable) _
  have nextPde : (kernelStore address value state).pde = state.pde := by
    have same := congrArg View.dirs nextView
    exact same.trans markedPde
  have markedPage : marked.phys (state.entryAt address).page =
      state.phys (state.entryAt address).page := by
    rw [isMarked]
    exact State.setWord_frame inUse
  refine
    { valid := ?_, pde := nextPde, entries := ?_, frames := ?_, bytes := ?_ }
  · apply valid.of_exact
    · rw [nextView, markedView]
      apply valid.exact.restamp (Word.target_stored _)
      intro isWritable
      exact .inl (by simpa using isWritable)
    · rw [nextEq, isMarked]
      rfl
    · rw [nextPde]
    · rw [nextEq, State.setByte_frame (valid.managed_ne_kernel managed),
        isMarked]
      exact State.setWord_frame (valid.managed_ne_kernel tableManaged)
  · intro dir index
    have same := congrFun (congrFun (congrArg View.entries
      (nextView.trans markedView)) dir) index
    refine same.trans ?_
    unfold View.setEntry
    dsimp only
    split <;> rename_i here
    · rw [here.1, here.2]
      rfl
    · rfl
  · intro frame notTables different
    rw [nextEq, State.setByte_frame different, isMarked]
    refine State.setWord_frame ?_
    rintro rfl
    exact notTables _ isUser (State.view_tables hasTable)
  · intro offset
    rw [nextEq, State.byte_setByte]
    by_cases here : offset = address % 4096
    · rw [if_pos ⟨rfl, here⟩, if_pos here]
    · rw [if_neg (fun same => here same.2), if_neg here]
      exact State.byte_congr markedPage offset

/-! ## What a task sees -/

/-- The address has a page of main memory. -/
def Mapped (layout : Layout) (state : State) (address : Nat) : Prop :=
  (state.entryAt address).present = true ∧
    layout.Managed (state.entryAt address).page

theorem Fault.At.isUser {nr address : Nat} (inside : Fault.At nr address) :
    dirIndex address ∈ userDirs := by
  obtain ⟨isTask, above, below⟩ := inside
  rw [mem_userDirs]
  unfold dirIndex
  unfold windowBase at above below
  omega

/-- Two addresses of one window with the same place in their directory
entries' windows lie on one page. -/
theorem Fault.At.samePage {nr address other : Nat}
    (first : Fault.At nr address) (second : Fault.At nr other)
    (sameDir : dirIndex other % 16 = dirIndex address % 16)
    (sameTable : tableIndex other = tableIndex address) :
    other / 4096 = address / 4096 := by
  obtain ⟨isTask, above, below⟩ := first
  obtain ⟨_, otherAbove, otherBelow⟩ := second
  unfold dirIndex at sameDir
  unfold tableIndex at sameTable
  unfold windowBase at above below otherAbove otherBelow
  omega

theorem entryAt_samePage {address other : Nat}
    (samePage : other / 4096 = address / 4096) :
    state.entryAt other = state.entryAt address := by
  have sameDir : dirIndex other = dirIndex address := by
    unfold dirIndex
    omega
  have sameTable : tableIndex other = tableIndex address := by
    unfold tableIndex
    omega
  unfold State.entryAt
  rw [sameDir, sameTable]

/-- Two pages of user memory have different entries. -/
theorem Fault.At.slots_apart {nr current address other : Nat}
    (inside : Fault.At current address) (otherInside : Fault.At nr other)
    (different : other / 4096 ≠ address / 4096) :
    (dirIndex other, tableIndex other) ≠
      (dirIndex address, tableIndex address) := by
  intro same
  rw [Prod.mk.injEq] at same
  apply different
  obtain ⟨_, above, below⟩ := inside
  obtain ⟨_, otherAbove, otherBelow⟩ := otherInside
  obtain ⟨sameDir, sameTable⟩ := same
  unfold dirIndex at sameDir
  unfold tableIndex at sameTable
  unfold windowBase at above below otherAbove otherBelow
  omega

/-- An entry other than the one that is set. -/
theorem entryAt_setEntry_other {next : State} {address other : Nat}
    {word : Word}
    (entries : next.view.entries = (state.view.setEntry (dirIndex address)
      (tableIndex address) word).entries)
    {nr current : Nat} (inside : Fault.At current address)
    (otherInside : Fault.At nr other)
    (different : other / 4096 ≠ address / 4096) :
    next.entryAt other = state.entryAt other := by
  have changed := congrFun (congrFun entries (dirIndex other))
    (tableIndex other)
  exact changed.trans
    (View.setEntry_other (inside.slots_apart otherInside different))

theorem entryAt_setEntry_same {next : State} {address : Nat} {word : Word}
    (entries : next.view.entries = (state.view.setEntry (dirIndex address)
      (tableIndex address) word).entries) :
    next.entryAt address = word := by
  have changed := congrFun (congrFun entries (dirIndex address))
    (tableIndex address)
  exact changed.trans (View.setEntry_same _ _ _ _)

/-- An entry for user memory maps its frame. -/
theorem Mapped.of_user {frame address : Nat} (managed : layout.Managed frame)
    (entry : state.entryAt address = Word.user frame) :
    Mapped layout state address := by
  unfold Mapped
  rw [entry, Word.page_user managed.small]
  exact ⟨Word.present_user frame, managed⟩

theorem userByte_of_present {address : Nat}
    (isPresent : (state.entryAt address).present = true) :
    state.userByte address =
      some (state.byte (state.entryAt address).page (address % 4096)) := by
  unfold State.userByte Word.target
  rw [if_pos isPresent]
  rfl

/-- A store by the kernel in a window changes the one byte of the window. -/
theorem KernelStored.userByte {nr address other : Nat} {value : Byte}
    {next : State} (valid : Valid layout state holds)
    (stored : KernelStored layout state holds address value next)
    (mapped : Mapped layout state address) (inside : Fault.At nr address)
    (otherInside : Fault.At nr other) :
    next.userByte other =
      if other = address then some value else state.userByte other := by
  have entry : Word.target (next.entryAt other) =
      Word.target (state.entryAt other) := by
    have changed := stored.entries (dirIndex other) (tableIndex other)
    unfold State.entryAt
    rw [changed]
    split
    · exact Word.target_stored _
    · rfl
  have target := Word.target_eq_some.mpr ⟨mapped.1, rfl⟩
  unfold State.userByte
  rw [entry]
  by_cases otherPresent : (state.entryAt other).present = true
  · have otherTarget := Word.target_eq_some.mpr ⟨otherPresent, rfl⟩
    rw [otherTarget, Option.map_some, Option.map_some]
    have slot := address_slot inside.isUser
    have otherSlot := address_slot otherInside.isUser
    by_cases sameFrame :
        (state.entryAt other).page = (state.entryAt address).page
    · obtain ⟨sameDir, sameTable⟩ := valid.exact.aligned _ otherSlot _ slot _
        mapped.2 (otherTarget.trans (congrArg some sameFrame)) target
      have samePage := inside.samePage otherInside sameDir sameTable
      rw [sameFrame, stored.bytes]
      by_cases here : other = address
      · rw [if_pos here, if_pos (by rw [here])]
      · rw [if_neg here, if_neg (by omega)]
    · rw [if_neg (fun here => sameFrame (by rw [here]))]
      congr 1
      refine State.byte_congr (stored.frames _ ?_ sameFrame) _
      intro dir inDirs isTable
      exact valid.exact.table_not_mapped inDirs otherSlot isTable otherTarget
  · have absent : Word.target (state.entryAt other) = none := by
      unfold Word.target
      rw [if_neg otherPresent]
    have notHere : other ≠ address := by
      rintro rfl
      exact otherPresent mapped.1
    rw [absent, if_neg notHere]
    rfl

theorem KernelStored.mapped {address other : Nat} {value : Byte} {next : State}
    (stored : KernelStored layout state holds address value next)
    (mapped : Mapped layout state other) : Mapped layout next other := by
  have changed := stored.entries (dirIndex other) (tableIndex other)
  unfold Mapped State.entryAt at mapped ⊢
  rw [changed]
  split
  · rw [Word.present_stored, Word.page_stored]
    exact mapped
  · exact mapped

/-- A page whose entry stays is read as before. -/
theorem Mapped.stays {other : Nat} {next : State}
    (mapped : Mapped layout state other) (isUser : dirIndex other ∈ userDirs)
    (entry : next.entryAt other = state.entryAt other)
    (keeps : Keeps layout state holds next) :
    Mapped layout next other ∧
      next.userByte other = state.userByte other := by
  have maps : state.view.mappings (dirIndex other, tableIndex other) =
      some (state.entryAt other).page :=
    Word.target_eq_some.mpr ⟨mapped.1, rfl⟩
  have mappedOnce := Exact.mapCount_pos (address_slot isUser) maps
  refine ⟨by unfold Mapped; rw [entry]; exact mapped, ?_⟩
  unfold State.userByte
  rw [entry, Word.target_eq_some.mpr ⟨mapped.1, rfl⟩, Option.map_some,
    Option.map_some]
  congr 1
  refine State.byte_congr (keeps _ (Valid.managed_ne_zero mapped.2) ?_) _
  intro _
  omega

section Paged

variable {tasks : Nat → Option Task} {current : Nat} {mine : Task}
  {address : Nat} {next : State}

/-- A page fault maps the page it was for. -/
theorem Paged.mapped
    (paged : Paged layout state holds tasks current mine address next) :
    Mapped layout next address := by
  cases paged with
  | fresh frame valid keeps managed unused entries =>
      exact .of_user managed (entryAt_setEntry_same entries)
  | shared p task isTask different inTable program loaded page =>
      have entry := page.entries (dirIndex address) (tableIndex address)
      rw [if_pos ⟨rfl, .inr rfl⟩] at entry
      unfold Mapped State.entryAt
      rw [entry, Word.present_protect, Word.page_protect]
      exact ⟨page.present, page.managed⟩

/-- A page fault changes no other entry of the window. -/
theorem Paged.entry
    (paged : Paged layout state holds tasks current mine address next)
    (inside : Fault.At current address) {other : Nat}
    (otherInside : Fault.At current other)
    (different : other / 4096 ≠ address / 4096) :
    next.entryAt other = state.entryAt other := by
  have apart := inside.slots_apart otherInside different
  cases paged with
  | fresh frame valid keeps managed unused entries =>
      exact entryAt_setEntry_other entries inside otherInside different
  | shared p task isTask notSelf inTable program loaded page =>
      refine (page.entries (dirIndex other) (tableIndex other)).trans
        (if_neg ?_)
      rintro ⟨sameTable, atSource | atTarget⟩
      · obtain ⟨sameDir, _, low⟩ := windowDir_sub inside
        have source := (windowDir_spec inTable low).2.2
        rw [← atSource] at source
        obtain ⟨isCurrent, above, below⟩ := otherInside
        apply notSelf
        unfold dirIndex at source
        unfold windowBase at above below
        omega
      · exact apart (Prod.ext atTarget sameTable)

/-- A page fault leaves the other pages of the window as they are. -/
theorem Paged.others
    (paged : Paged layout state holds tasks current mine address next)
    (absent : (state.entryAt address).present = false)
    (inside : Fault.At current address) {other : Nat}
    (otherInside : Fault.At current other)
    (mapped : Mapped layout state other) :
    Mapped layout next other ∧
      next.userByte other = state.userByte other := by
  refine mapped.stays otherInside.isUser ?_ paged.keeps
  refine paged.entry inside otherInside ?_
  intro samePage
  have present := mapped.1
  rw [entryAt_samePage samePage, absent] at present
  cases present

end Paged

end Linux011.Mm
