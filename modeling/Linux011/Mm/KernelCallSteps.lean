import Linux011.Mm.KernelCalls

/-!
# What a step does to the pages of the other tasks

Every operation leaves the entries of the windows it is not about in place and
as writable as they were; `try_to_share` alone makes a page of another task
read-only.
-/

namespace Linux011.Mm

open Bytes

variable {layout : Layout} {state next : State} {holds nextHolds : Nat → Nat}

/-- The page is still there or still missing, and writable if it was. -/
def Kept (state next : State) (address : Nat) : Prop :=
  (next.entryAt address).present = (state.entryAt address).present ∧
    ((state.entryAt address).writable = true →
      (next.entryAt address).writable = true)

theorem Kept.of_entry {address : Nat}
    (same : next.entryAt address = state.entryAt address) :
    Kept state next address := by
  unfold Kept
  rw [same]
  exact ⟨rfl, id⟩

theorem Kept.trans {middle : State} {address : Nat}
    (first : Kept state middle address) (second : Kept middle next address) :
    Kept state next address :=
  ⟨second.1.trans first.1, fun was => second.2 (first.2 was)⟩

/-- The page tables of the kernel protect nothing. -/
structure KernelTables (layout : Layout) (state : State) : Prop where
  tables : ∀ dir < 16, (state.pde dir).present = true →
    (state.pde dir).page ≠ 0 ∧ ¬ layout.Managed (state.pde dir).page
  open_ : ∀ dir < 16, (state.pde dir).present = true → ∀ index < 1024,
    (state.phys (state.pde dir).page index).present = true →
      (state.phys (state.pde dir).page index).writable = true

/-- The memory and the page tables of the kernel stay. -/
structure KernelSame (layout : Layout) (state next : State) : Prop where
  pde : ∀ dir < 16, next.pde dir = state.pde dir
  phys : ∀ frame, frame ≠ 0 → ¬ layout.Managed frame →
    next.phys frame = state.phys frame

theorem KernelSame.refl : KernelSame layout state state :=
  ⟨fun _ _ => rfl, fun _ _ _ => rfl⟩

theorem KernelSame.trans {middle : State}
    (first : KernelSame layout state middle)
    (second : KernelSame layout middle next) :
    KernelSame layout state next where
  pde := fun dir low => (second.pde dir low).trans (first.pde dir low)
  phys := fun frame notZero unmanaged =>
    (second.phys frame notZero unmanaged).trans
      (first.phys frame notZero unmanaged)

theorem KernelSame.of_keeps (pde : ∀ dir < 16, next.pde dir = state.pde dir)
    (keeps : Keeps layout state holds next) :
    KernelSame layout state next :=
  ⟨pde, fun frame notZero unmanaged =>
    keeps frame notZero fun managed => absurd managed unmanaged⟩

theorem KernelTables.stay (tables : KernelTables layout state)
    (same : KernelSame layout state next) : KernelTables layout next where
  tables := by
    intro dir low isPresent
    rw [same.pde dir low] at isPresent ⊢
    exact tables.tables dir low isPresent
  open_ := by
    intro dir low isPresent
    rw [same.pde dir low] at isPresent ⊢
    obtain ⟨notZero, unmanaged⟩ := tables.tables dir low isPresent
    rw [same.phys _ notZero unmanaged]
    exact tables.open_ dir low isPresent

/-- The state after an operation that is about the addresses `about`. -/
structure Moved (layout : Layout) (state : State) (about : Nat → Prop)
    (next : State) (nextHolds : Nat → Nat) : Prop where
  valid : Valid layout next nextHolds
  kernel : KernelSame layout state next
  kept : ∀ nr address, Fault.At nr address → ¬ about address →
    Kept state next address

theorem Moved.refl (valid : Valid layout state holds) {about : Nat → Prop} :
    Moved layout state about state holds :=
  ⟨valid, .refl, fun _ _ _ _ => .of_entry rfl⟩

theorem Moved.trans {middle : State} {middleHolds : Nat → Nat}
    {about further : Nat → Prop}
    (first : Moved layout state about middle middleHolds)
    (second : Moved layout middle further next nextHolds) :
    Moved layout state (fun address => about address ∨ further address) next
      nextHolds where
  valid := second.valid
  kernel := first.kernel.trans second.kernel
  kept := fun nr address inside neither =>
    (first.kept nr address inside fun here => neither (.inl here)).trans
      (second.kept nr address inside fun here => neither (.inr here))

theorem Moved.weaken {about wider : Nat → Prop}
    (moved : Moved layout state about next nextHolds)
    (implies : ∀ address, about address → wider address) :
    Moved layout state wider next nextHolds :=
  ⟨moved.valid, moved.kernel, fun nr address inside outside =>
    moved.kept nr address inside fun here => outside (implies address here)⟩

theorem low_not_user {dir : Nat} (low : dir < 16) : dir ∉ userDirs := by
  rw [mem_userDirs]
  omega

/-! ## Taking and giving back pages -/

theorem Taken.moved {frame : Nat}
    (taken : Taken layout state holds frame next) :
    Moved layout state (fun _ => False) next (take holds frame) where
  valid := taken.valid
  kernel :=
    ⟨fun dir _ => congrFun (congrArg View.dirs taken.view) dir,
      fun other _ unmanaged => taken.others other fun same =>
        unmanaged (same ▸ taken.managed)⟩
  kept := by
    intro nr address _ _
    apply Kept.of_entry
    exact congrFun (congrFun (congrArg View.entries taken.view) _) _

theorem fillHeld_moved (valid : Valid layout state holds) {frame : Nat}
    (held : 0 < holds frame) (content : Nat → Word) :
    Moved layout state (fun _ => False) (state.fillPage frame content)
      holds := by
  have managed := valid.exact.owned frame (by omega)
  obtain ⟨nextValid, sameView⟩ := fillHeld valid held content
  refine ⟨nextValid, ⟨fun dir _ => congrFun (congrArg View.dirs sameView) dir,
    fun other _ unmanaged => State.fillPage_frame fun same =>
      unmanaged (same ▸ managed)⟩, ?_⟩
  intro nr address _ _
  apply Kept.of_entry
  exact congrFun (congrFun (congrArg View.entries sameView) _) _

theorem freePage_moved (valid : Valid layout state holds) {frame : Nat}
    (held : 0 < holds frame) :
    ∃ next, freePage frame state = .ok next ∧
      Moved layout state (fun _ => False) next (give holds frame) := by
  obtain ⟨freed, nextValid⟩ := freePage_held valid held
  exact ⟨_, freed, nextValid, ⟨fun _ _ => rfl, fun _ _ _ => rfl⟩,
    fun _ _ _ _ => .of_entry rfl⟩

/-! ## A page put in its place -/

theorem putPage_pde (valid : Valid layout state holds) {frame address : Nat}
    (isUser : dirIndex address ∈ userDirs) {put : Bool}
    (done : putPage frame address state = (put, next)) {dir : Nat}
    (low : dir < 16) : next.pde dir = state.pde dir := by
  have notHere : dir ≠ dirIndex address := fun same =>
    low_not_user low (same ▸ isUser)
  unfold putPage at done
  dsimp only at done
  split at done <;> rename_i hasTable
  · cases done
    rw [State.setWord_pde (Valid.managed_ne_zero
      (valid.table_managed isUser hasTable))]
  · split at done <;> rename_i found
    · cases done
      rw [getFreePage_none found]
    · cases done
      have taken := getFreePage_some valid found
      rw [State.setWord_pde (Valid.managed_ne_zero taken.managed),
        State.setWord_zero_pde, if_neg notHere]
      exact congrFun (congrArg View.dirs taken.view) dir

/-- `put_page` of a held page. -/
theorem putPage_moved (valid : Valid layout state holds)
    {nr frame address : Nat} (inside : Fault.At nr address)
    (absent : (state.entryAt address).present = false)
    (held : 0 < holds frame)
    (put : putPage frame address state = (true, next)) :
    Moved layout state (fun other => other / 4096 = address / 4096) next
        (give holds frame) ∧
      next.entryAt address = Word.user frame := by
  obtain ⟨nextValid, entries, keeps⟩ :=
    putPage_true valid inside.isUser absent held put
  refine ⟨⟨nextValid, .of_keeps (fun dir low =>
    putPage_pde valid inside.isUser put low) keeps, ?_⟩,
    entryAt_setEntry_same entries⟩
  intro other address otherInside different
  exact .of_entry (entryAt_setEntry_other entries inside otherInside different)

theorem getEmptyPage_pde (valid : Valid layout state holds) {address : Nat}
    (isUser : dirIndex address ∈ userDirs) {dir : Nat} (low : dir < 16) :
    match getEmptyPage address state with
    | .ok next => next.pde dir = state.pde dir
    | .error (.oom next) => next.pde dir = state.pde dir
    | .error (.panic _) => True := by
  unfold getEmptyPage
  cases found : getFreePage state with
  | mk frame middle =>
      cases frame with
      | none =>
          dsimp only
          rw [getFreePage_none found]
      | some frame =>
          have taken := getFreePage_some valid found
          have samePde : middle.pde dir = state.pde dir :=
            congrFun (congrArg View.dirs taken.view) dir
          dsimp only
          cases put : putPage frame address middle with
          | mk flag last =>
              have lastPde := putPage_pde taken.valid isUser put low
              cases flag with
              | true => exact lastPde.trans samePde
              | false =>
                  have same := putPage_false put
                  subst same
                  obtain ⟨freed, _⟩ :=
                    freePage_held taken.valid (take_pos holds frame)
                  dsimp only
                  rw [freed]
                  exact samePde

theorem getEmptyPage_moved (valid : Valid layout state holds)
    {nr address : Nat} (inside : Fault.At nr address)
    (absent : (state.entryAt address).present = false) :
    match getEmptyPage address state with
    | .ok next => Moved layout state
        (fun other => other / 4096 = address / 4096) next holds ∧
          (next.entryAt address).present = true ∧
            (next.entryAt address).writable = true
    | .error (.oom next) => Moved layout state (fun _ => False) next holds
    | .error (.panic _) => False := by
  have spec := getEmptyPage_spec valid inside.isUser absent
  have pde {dir : Nat} (low : dir < 16) :=
    getEmptyPage_pde valid inside.isUser low
  revert spec pde
  cases getEmptyPage address state with
  | ok next =>
      rintro ⟨nextValid, keeps, frame, _, _, entries, _⟩ pde
      refine ⟨⟨nextValid, .of_keeps (fun dir low => pde low) keeps, ?_⟩, ?_⟩
      · intro other address otherInside different
        exact .of_entry
          (entryAt_setEntry_other entries inside otherInside different)
      · rw [entryAt_setEntry_same entries]
        exact ⟨Word.present_user frame, Word.writable_user frame⟩
  | error fault =>
      cases fault with
      | panic message => exact fun impossible _ => impossible
      | oom next =>
          rintro ⟨nextValid, keeps, entries⟩ pde
          refine ⟨nextValid, .of_keeps (fun dir low => pde low) keeps, ?_⟩
          intro other address _ _
          exact .of_entry (congrFun (congrFun entries _) _)

/-! ## verify_area -/

theorem Owned.moved {nr address : Nat} {word : Word}
    (inside : Fault.At nr address)
    (isPresent : (state.entryAt address).present = true)
    (owned : Owned layout state holds (dirIndex address) (tableIndex address)
      word next) : Moved layout state (fun _ => False) next holds := by
  refine ⟨owned.valid, .of_keeps (fun dir _ => congrFun owned.pde dir)
    owned.keeps, ?_⟩
  intro other further otherInside _
  by_cases samePage : further / 4096 = address / 4096
  · rw [Kept, entryAt_samePage samePage, entryAt_samePage samePage,
      entryAt_setEntry_same owned.entries]
    exact ⟨owned.present.trans isPresent.symm, fun _ => owned.writable⟩
  · exact .of_entry
      (entryAt_setEntry_other owned.entries inside otherInside samePage)

/-- Every address that is not the kernel's lies in a window. -/
theorem at_of_user {address : Nat} (small : address < 2 ^ 32)
    (isUser : dirIndex address ∈ userDirs) :
    ∃ nr, Fault.At nr address := by
  rw [mem_userDirs] at isUser
  unfold dirIndex at isUser
  refine ⟨address / 0x4000000, ⟨by omega, by omega⟩, ?_, ?_⟩
  · unfold windowBase
    omega
  · unfold windowBase
    omega

/-- The page of an address, if it is there, is writable. -/
def Unshared (state : State) (address : Nat) : Prop :=
  (state.entryAt address).present = true →
    (state.entryAt address).writable = true

theorem Kept.unshared {address : Nat} (kept : Kept state next address)
    (unshared : Unshared state address) : Unshared next address :=
  fun isPresent => kept.2 (unshared (kept.1 ▸ isPresent))

theorem Unshared.samePage {address other : Nat}
    (unshared : Unshared state address)
    (samePage : other / 4096 = address / 4096) : Unshared state other := by
  unfold Unshared
  rw [entryAt_samePage samePage]
  exact unshared

/-- The pages of the kernel are writable. -/
theorem writeVerify_kernel (tables : KernelTables layout state) {address : Nat}
    (notUser : dirIndex address ∉ userDirs) :
    writeVerify address state = .ok state := by
  have low : dirIndex address < 16 := by
    rw [mem_userDirs] at notUser
    have inRange : dirIndex address < 1024 := Nat.mod_lt _ (by decide)
    omega
  unfold writeVerify
  dsimp only
  by_cases isPresent : (state.pde (dirIndex address)).present = true
  · have writable := tables.open_ _ low isPresent (tableIndex address)
      (Nat.mod_lt _ (by decide))
    rw [if_neg (by simp [isPresent]),
      if_neg fun readOnly => readOnly.2 (writable readOnly.1)]
  · rw [if_pos isPresent]

theorem writeVerify_moved (valid : Valid layout state holds)
    (tables : KernelTables layout state) {address : Nat}
    (small : address < 2 ^ 32) :
    match writeVerify address state with
    | .ok next => Moved layout state (fun _ => False) next holds ∧
        Unshared next address
    | .error (.oom next) => next = state
    | .error (.panic _) => False := by
  by_cases isUser : dirIndex address ∈ userDirs
  · obtain ⟨nr, inside⟩ := at_of_user small isUser
    have member := address_slot isUser
    unfold writeVerify
    dsimp only
    by_cases isPresent : (state.pde (dirIndex address)).present = true
    · rw [if_neg (by simp [isPresent]), ← State.pte_eq member isPresent]
      by_cases readOnly : (state.pte (dirIndex address)
            (tableIndex address)).present = true ∧
          ¬ (state.pte (dirIndex address)
            (tableIndex address)).writable = true
      · rw [if_pos readOnly]
        have spec := unWpPage_spec valid member readOnly.1
        revert spec
        cases unWpPage (state.pde (dirIndex address)).page
            (tableIndex address) state with
        | ok next =>
            rintro ⟨word, owned⟩
            refine ⟨owned.moved inside readOnly.1, fun _ => ?_⟩
            rw [entryAt_setEntry_same owned.entries]
            exact owned.writable
        | error fault =>
            cases fault with
            | oom next => exact id
            | panic message => exact id
      · rw [if_neg readOnly]
        refine ⟨.refl valid, fun isThere => ?_⟩
        by_contra notWritable
        exact readOnly ⟨isThere, notWritable⟩
    · rw [if_pos isPresent]
      refine ⟨.refl valid, fun isThere => ?_⟩
      exact absurd (State.table_of_entry isThere) isPresent
  · rw [writeVerify_kernel tables isUser]
    refine ⟨.refl valid, fun isThere => ?_⟩
    unfold State.entryAt State.pte at isThere
    rw [if_neg fun all => isUser (mem_userSlots.mp all.1).1] at isThere
    cases isThere

/-- After the loop every page it came to is the task's alone, up to the end of
the address space. -/
theorem verifyPages_moved (valid : Valid layout state holds)
    (tables : KernelTables layout state) {start pages : Nat}
    (small : start < 2 ^ 32) (aligned : start % 4096 = 0) :
    match verifyPages start pages state with
    | .ok next => Moved layout state (fun _ => False) next holds ∧
        ∀ nr address, Fault.At nr address → start ≤ address →
          address < start + pages * 4096 → Unshared next address
    | .error (.oom next) => Moved layout state (fun _ => False) next holds
    | .error (.panic _) => False := by
  induction pages generalizing start state with
  | zero =>
      refine ⟨.refl valid, fun nr address _ above below => ?_⟩
      omega
  | succ pages induction =>
      have first := writeVerify_moved valid tables small
      unfold verifyPages
      revert first
      cases writeVerify start state with
      | error fault =>
          cases fault with
          | oom next =>
              rintro rfl
              exact .refl valid
          | panic message => exact id
      | ok middle =>
          rintro ⟨moved, unshared⟩
          have rest := induction moved.valid (tables.stay moved.kernel)
            (Nat.mod_lt (start + 4096) (show 0 < 2 ^ 32 by decide)) (by omega)
          show match verifyPages ((start + 4096) % 2 ^ 32) pages middle with
            | .ok next => _
            | .error (.oom next) => _
            | .error (.panic _) => _
          revert rest
          cases verifyPages ((start + 4096) % 2 ^ 32) pages middle with
          | error fault =>
              cases fault with
              | oom next =>
                  intro rest
                  exact (moved.trans rest).weaken fun _ both =>
                    both.elim id id
              | panic message => exact id
          | ok next =>
              rintro ⟨further, all⟩
              refine ⟨(moved.trans further).weaken fun _ both =>
                both.elim id id, ?_⟩
              intro nr address inside above below
              by_cases here : address / 4096 = start / 4096
              · exact (further.kept nr address inside id).unshared
                  (unshared.samePage here)
              · have wrapped : (start + 4096) % 2 ^ 32 = start + 4096 := by
                  have isTask := inside.isTask
                  have top := inside.below
                  unfold windowBase at top
                  omega
                refine all nr address inside ?_ ?_ <;>
                  · rw [wrapped]
                    omega

/-! ## Stores -/

theorem maps_of_present {address : Nat}
    (isPresent : (state.entryAt address).present = true) :
    state.view.mappings (dirIndex address, tableIndex address) =
      some (state.entryAt address).page :=
  Word.target_eq_some.mpr ⟨isPresent, rfl⟩

theorem kernelStore_moved (valid : Valid layout state holds)
    {nr address : Nat} (inside : Fault.At nr address)
    (isPresent : (state.entryAt address).present = true)
    (isWritable : (state.entryAt address).writable = true) (value : Byte) :
    Moved layout state (fun _ => False) (kernelStore address value state)
      holds := by
  have member := address_slot inside.isUser
  obtain ⟨managed, _⟩ := valid.exact.exclusive _ member _
    (maps_of_present isPresent) isWritable
  have stored := kernelStore_spec valid inside.isUser isPresent managed value
  refine ⟨stored.valid, ⟨fun dir _ => congrFun stored.pde dir, ?_⟩, ?_⟩
  · intro frame _ unmanaged
    refine stored.frames frame ?_ ?_
    · intro dir inDirs isTable
      obtain ⟨hasTable, rfl⟩ := Word.target_eq_some.mp isTable
      exact unmanaged (valid.table_managed inDirs hasTable)
    · rintro rfl
      exact unmanaged managed
  · intro other further _ _
    have changed := stored.entries (dirIndex further) (tableIndex further)
    unfold Kept State.entryAt
    rw [changed]
    split
    · rw [Word.present_stored, Word.writable_stored]
      exact ⟨rfl, id⟩
    · exact ⟨rfl, id⟩

theorem programStore_moved (valid : Valid layout state holds)
    {nr address : Nat} (inside : Fault.At nr address)
    (isPresent : (state.entryAt address).present = true) (value : Byte) :
    match Kernel.programStore address value state with
    | .ok next => Moved layout state (fun _ => False) next holds
    | .error (.oom next) => Moved layout state (fun _ => False) next holds
    | .error (.panic _) => False := by
  unfold Kernel.programStore
  by_cases isWritable : (state.entryAt address).writable = true
  · rw [if_pos isWritable]
    exact kernelStore_moved valid inside isPresent isWritable value
  · rw [if_neg isWritable]
    have spec := doWpPage_spec valid inside.isUser isPresent
    revert spec
    cases doWpPage address state with
    | error fault =>
        cases fault with
        | oom next =>
            rintro rfl
            exact .refl valid
        | panic message => exact id
    | ok middle =>
        rintro ⟨word, owned⟩
        have entry := entryAt_setEntry_same owned.entries
        have stored := kernelStore_moved owned.valid inside
          (by rw [entry]; exact owned.present)
          (by rw [entry]; exact owned.writable) value
        exact ((owned.moved inside isPresent).trans stored).weaken
          fun _ both => both.elim id id

/-! ## Windows -/

theorem not_in_window {nr other address : Nat}
    (inside : Fault.At other address) (outside : ¬ Fault.At nr address)
    (isTask : 1 ≤ nr ∧ nr < 64) :
    ¬ (nr * 16 ≤ dirIndex address ∧ dirIndex address < nr * 16 + 16) := by
  intro within
  obtain ⟨isOther, above, below⟩ := inside
  have same : other = nr := by
    unfold dirIndex at within
    unfold windowBase at above below
    omega
  subst same
  exact outside ⟨isTask, above, below⟩

/-- `free_page_tables` on a window. -/
theorem freeWindow_moved (valid : Valid layout state holds)
    {nr size : Nat} (isTask : 1 ≤ nr ∧ nr < 64) (fits : size ≤ 0x4000000) :
    ∃ next, freePageTables (windowBase nr) size state = .ok next ∧
      Moved layout state (Fault.At nr) next holds := by
  obtain ⟨next, freed, torn⟩ := freePageTables_spec valid isTask fits
  refine ⟨next, freed, torn.valid, ⟨?_, ?_⟩, ?_⟩
  · intro dir low
    exact torn.remain dir (by omega)
  · intro frame notZero unmanaged
    exact torn.pages frame notZero fun managed => absurd managed unmanaged
  · intro other address inside outside
    apply Kept.of_entry
    refine torn.entries _ _ fun gone => ?_
    refine not_in_window inside outside isTask ⟨gone.1, ?_⟩
    omega

/-- `copy_page_tables` to an empty window. -/
theorem copyWindow_moved (valid : Valid layout state holds)
    {parent child size : Nat} (isTask : 1 ≤ child ∧ child < 64)
    (isParent : parent < 64) (different : parent ≠ child)
    (fits : size ≤ 0x4000000) (first : parent = 0 → size ≤ 0xA0 * 4096)
    {flag : Bool}
    (copied : copyPageTables (windowBase parent) (windowBase child) size
      state = .ok (flag, next)) :
    Moved layout state
      (fun address => Fault.At parent address ∨ Fault.At child address) next
        holds := by
  have forked := copyPageTables_spec valid isTask isParent different fits first
  rw [copied] at forked
  refine ⟨forked.valid, .of_keeps (fun dir low =>
    forked.pde dir (by omega)) forked.keeps, ?_⟩
  intro other address inside outside
  apply Kept.of_entry
  have inDirs := mem_userDirs.mp inside.isUser
  refine forked.others _ _ (fun source => ?_) fun target => ?_
  · exact not_in_window inside (fun here => outside (.inl here))
      ⟨by omega, isParent⟩ source
  · exact not_in_window inside (fun here => outside (.inr here)) isTask target

/-! ## Sharing -/

/-- The task whose page `share_page` maps. -/
def shareSource (tasks : Nat → Option Task) (current : Nat) (mine : Task)
    (address : Nat) (state : State) : Nat → Option Nat
  | 0 => none
  | nr + 1 =>
      match tasks (nr + 1) with
      | none => shareSource tasks current mine address state nr
      | some p =>
          if current = nr + 1 ∨ p.executable ≠ mine.executable then
            shareSource tasks current mine address state nr
          else
            match tryToShare address p.startCode mine.startCode state with
            | .ok (true, _) => some (nr + 1)
            | _ => shareSource tasks current mine address state nr

theorem shareWith_source (valid : Valid layout state holds)
    {tasks : Nat → Option Task} (windowed : Windowed tasks)
    {current : Nat} {mine : Task} {address nr : Nat}
    (isCurrent : 1 ≤ current ∧ current < 64)
    (own : mine.startCode = windowBase current)
    (inside : address < 0x4000000) (inRange : nr < 64)
    (shared : shareWith tasks current mine address nr state =
      .ok (true, next)) :
    ∃ p, shareSource tasks current mine address state nr = some p ∧
      p ≠ current ∧ (1 ≤ p ∧ p < 64) ∧
      SharedPage layout state holds (windowDir p address)
        (windowDir current address) (tableIndex address) next := by
  induction nr with
  | zero => cases shared
  | succ nr induction =>
      have rest := induction (by omega)
      unfold shareWith at shared
      unfold shareSource
      cases slot : tasks (nr + 1) with
      | none =>
          rw [slot] at shared
          exact rest shared
      | some p =>
          rw [slot] at shared
          dsimp only at shared ⊢
          by_cases skipped : current = nr + 1 ∨
              p.executable ≠ mine.executable
          · rw [if_pos skipped] at shared ⊢
            exact rest shared
          · rw [if_neg skipped, windowed _ _ slot, own] at shared ⊢
            have spec := tryToShare_spec valid inside
              (show 1 ≤ nr + 1 ∧ nr + 1 < 64 by omega) isCurrent
            revert spec shared
            cases tryToShare address (windowBase (nr + 1))
                (windowBase current) state with
            | error fault =>
                intro impossible
                cases impossible
            | ok result =>
                obtain ⟨flag, middle⟩ := result
                cases flag with
                | true =>
                    intro same page
                    cases same
                    exact ⟨nr + 1, rfl, by omega, by omega, page⟩
                | false =>
                    intro shared same
                    have same : middle = state := same
                    subst same
                    exact rest shared

/-- Addresses with one page-table entry are on one page. -/
theorem sharedTarget_page {nr current address other : Nat}
    (otherInside : Fault.At nr other) (inside : Fault.At current address)
    (sameDir : dirIndex other = dirIndex address)
    (sameTable : tableIndex other = tableIndex address) :
    other / 4096 = address / 4096 := by
  obtain ⟨_, above, below⟩ := inside
  obtain ⟨_, otherAbove, otherBelow⟩ := otherInside
  unfold dirIndex at sameDir
  unfold tableIndex at sameTable
  unfold windowBase at above below otherAbove otherBelow
  omega

/-- The entry at the same offset of another window. -/
theorem sharedSource_page {nr p current address other : Nat}
    (otherInside : Fault.At nr other) (isTask : 1 ≤ p ∧ p < 64)
    (inside : Fault.At current address)
    (sameTable : tableIndex other = tableIndex address)
    (atSource : dirIndex other =
      windowDir p (address / 4096 * 4096 - windowBase current)) :
    other / 4096 =
      (windowBase p + (address - windowBase current)) / 4096 := by
  obtain ⟨isCurrent, above, below⟩ := inside
  obtain ⟨_, otherAbove, otherBelow⟩ := otherInside
  have sourceInside : Fault.At p (windowBase p + (address - windowBase current)) :=
    ⟨isTask, Nat.le_add_right _ _, by omega⟩
  refine sharedTarget_page ⟨by assumption, otherAbove, otherBelow⟩
    sourceInside ?_ ?_
  · rw [atSource]
    unfold windowDir
    rw [dirIndex_windowBase isTask.2]
    unfold dirIndex
    unfold windowBase at above below ⊢
    omega
  · rw [sameTable]
    unfold tableIndex
    unfold windowBase at above below ⊢
    omega

/-- A page of the task `p` is mapped at the same offset of the task
`current`. -/
theorem SharedPage.moved {p current address : Nat}
    (inside : Fault.At current address) (isTask : 1 ≤ p ∧ p < 64)
    (page : SharedPage layout state holds
      (windowDir p (address / 4096 * 4096 - windowBase current))
      (windowDir current (address / 4096 * 4096 - windowBase current))
      (tableIndex (address / 4096 * 4096 - windowBase current)) next) :
    Moved layout state
      (fun other => other / 4096 = address / 4096 ∨
        other / 4096 = (windowBase p + (address - windowBase current)) / 4096)
      next holds := by
  obtain ⟨sameDir, sameTable, low⟩ := windowDir_sub inside
  obtain ⟨sourceUser, sourceOffset, sourceWindow⟩ := windowDir_spec isTask low
  have above := inside.above
  have below := inside.below
  have isCurrent := inside.isTask
  refine ⟨page.valid, .of_keeps (fun dir isLow => page.pde dir ?_)
    page.keeps, ?_⟩
  · rw [sameDir]
    rintro rfl
    exact low_not_user isLow inside.isUser
  · intro nr other otherInside outside
    apply Kept.of_entry
    have entry := page.entries (dirIndex other) (tableIndex other)
    refine entry.trans (if_neg ?_)
    rintro ⟨isIndex, atSource | atTarget⟩
    · exact outside (.inr (sharedSource_page otherInside isTask inside
        (isIndex.trans sameTable) atSource))
    · rw [sameDir] at atTarget
      exact outside (.inl (sharedTarget_page otherInside inside atTarget
        (isIndex.trans sameTable)))

end Linux011.Mm
