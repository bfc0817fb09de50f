import Linux011.Mm.Spaces

/-!
# What each operation does to the address spaces

For every function of `mm/memory.c`, started in a valid state: the call ends
as the source lets it end, the state is valid again for the holds the call
leaves behind, and its effect on the view and on page contents is stated.
-/

namespace Linux011.Mm

open RefCount

variable {layout : Layout} {state : State} {holds : Nat → Nat}

section Allocation

theorem scanFree_some {memMap : Nat → UInt8} {count nr : Nat}
    (found : scanFree memMap count = some nr) :
    nr < count ∧ memMap nr = 0 := by
  induction count with
  | zero => cases found
  | succ count induction =>
      unfold scanFree at found
      split at found <;> rename_i free
      · cases found
        exact ⟨Nat.lt_succ_self _, free⟩
      · obtain ⟨inRange, isFree⟩ := induction found
        exact ⟨Nat.lt_succ_of_lt inRange, isFree⟩

theorem scanFree_none {memMap : Nat → UInt8} {count : Nat}
    (missing : scanFree memMap count = none) :
    ∀ nr, nr < count → memMap nr ≠ 0 := by
  induction count with
  | zero =>
      intro nr inRange
      omega
  | succ count induction =>
      unfold scanFree at missing
      split at missing <;> rename_i busy
      · cases missing
      · intro nr inRange
        by_cases last : nr = count
        · exact last ▸ busy
        · exact induction missing nr (by omega)

/-- The state after `get_free_page` has returned `frame`. -/
structure Taken (layout : Layout) (state : State) (holds : Nat → Nat)
    (frame : Nat) (next : State) : Prop where
  managed : layout.Managed frame
  unmapped : state.view.mapCount frame = 0
  notTable : state.view.tableCount frame = 0
  unheld : holds frame = 0
  valid : Valid layout next (take holds frame)
  view : next.view = state.view.setCount frame 1
  empty : ∀ index, next.phys frame index = 0#32
  others : ∀ other, other ≠ frame → next.phys other = state.phys other
  high : next.highMemory = state.highMemory

theorem getFreePage_none (missing : getFreePage state = (none, next)) :
    next = state := by
  unfold getFreePage at missing
  split at missing
  · simpa using missing.symm
  · simp at missing

theorem getFreePage_some (valid : Valid layout state holds)
    {frame : Nat} {next : State}
    (found : getFreePage state = (some frame, next)) :
    Taken layout state holds frame next := by
  unfold getFreePage at found
  split at found
  · simp at found
  · rename_i nr scanned
    simp only [Prod.mk.injEq, Option.some.injEq] at found
    obtain ⟨rfl, rfl⟩ := found
    obtain ⟨inRange, free⟩ := scanFree_some scanned
    have managed : layout.Managed (lowMem + nr) := by
      by_contra unmanaged
      exact valid.exact.reserved nr inRange unmanaged free
    have back : mapNr (lowMem + nr) = nr := by
      unfold mapNr
      omega
    have zero : state.view.count (lowMem + nr) = 0 := by
      unfold View.count
      rw [back]
      simp [State.view, free]
    have uses := valid.exact.count _ managed
    have notTable : state.view.tableCount (lowMem + nr) = 0 := by omega
    have notZero := Valid.managed_ne_zero managed
    have sameView :
        ((state.setMap nr 1).fillPage (lowMem + nr) fun _ => 0#32).view =
          state.view.setCount (lowMem + nr) 1 := by
      have counted : (state.setMap nr 1).view =
          state.view.setCount (lowMem + nr) 1 := by
        have := State.view_setMap state (lowMem + nr) 1
        rwa [back] at this
      rw [Valid.view_fillPage managed (by rw [counted]; exact notTable),
        counted]
    refine
      { managed := managed
        unmapped := by omega
        notTable := notTable
        unheld := by omega
        valid := ?_
        view := sameView
        empty := by simp
        others := fun other different => State.fillPage_frame different
        high := rfl }
    apply valid.of_exact
    · rw [sameView]
      exact valid.exact.alloc managed zero
    · rfl
    · rw [State.fillPage_pde notZero]
      rfl
    · exact State.fillPage_frame (valid.managed_ne_kernel managed)

/-- `get_free_page` succeeds as long as some managed frame is unused. -/
theorem getFreePage_isSome {frame : Nat}
    (managed : layout.Managed frame) (free : state.view.count frame = 0) :
    (getFreePage state).1.isSome := by
  unfold getFreePage
  split
  · rename_i missing
    have busy := scanFree_none missing (mapNr frame) (by
      have := managed.lt_pages
      have := managed.lowMem_le
      unfold mapNr
      omega)
    apply (busy _).elim
    unfold View.count State.view at free
    exact UInt8.toNat_inj.mp (by simpa using free)
  · rfl

theorem freePage_low {frame : Nat} (low : frame < lowMem) :
    freePage frame state = .ok state := by
  simp [freePage, low]

/-- On a managed frame with a use left, `free_page` returns. -/
theorem freePage_managed (valid : Valid layout state holds) {frame : Nat}
    (managed : layout.Managed frame) (inUse : 0 < state.view.count frame) :
    freePage frame state =
      .ok (state.setMap (mapNr frame) (state.memMap (mapNr frame) - 1)) := by
  have low := managed.lowMem_le
  have high := valid.high
  have below : frame < layout.last := managed.2
  unfold freePage
  rw [if_neg (by omega), if_neg (by omega), if_pos]
  intro zero
  unfold View.count State.view at inUse
  simp [zero] at inUse

theorem sub_one_toNat {value : UInt8} (positive : 0 < value.toNat) :
    (value - 1).toNat + 1 = value.toNat := by
  have one : (1 : UInt8).toNat = 1 := rfl
  have bound := value.toNat_lt
  rw [UInt8.toNat_sub, one]
  omega

/-- `free_page` by the holder of the page. -/
theorem freePage_held (valid : Valid layout state holds) {frame : Nat}
    (held : 0 < holds frame) :
    freePage frame state = .ok (state.setMap (mapNr frame) 0) ∧
      Valid layout (state.setMap (mapNr frame) 0) (give holds frame) := by
  have managed := valid.exact.owned frame (by omega)
  have single := valid.exact.single frame
  have unmapped := valid.exact.apart frame (by omega)
  have total := valid.exact.count frame managed
  have one : state.memMap (mapNr frame) = 1 := by
    apply UInt8.toNat_inj.mp
    unfold View.count State.view at total
    have : (1 : UInt8).toNat = 1 := rfl
    simp only at total
    unfold State.view at unmapped single
    omega
  constructor
  · rw [freePage_managed valid managed (by omega), one]
    rfl
  · exact valid.of_exact (valid.exact.release held) rfl rfl rfl

end Allocation

/-- The pages in use, mapped or held, keep their contents, and so does
memory outside the managed frames apart from the page directory. -/
def Keeps (layout : Layout) (state : State) (holds : Nat → Nat)
    (next : State) : Prop :=
  ∀ frame, frame ≠ 0 →
    (layout.Managed frame →
      0 < state.view.mapCount frame + holds frame) →
    next.phys frame = state.phys frame

theorem Keeps.trans {middle next : State} {middleHolds : Nat → Nat}
    (first : Keeps layout state holds middle)
    (second : Keeps layout middle middleHolds next)
    (stays : ∀ frame, layout.Managed frame →
      0 < state.view.mapCount frame + holds frame →
        0 < middle.view.mapCount frame + middleHolds frame) :
    Keeps layout state holds next := by
  intro frame notZero inUse
  rw [second frame notZero fun managed => stays frame managed (inUse managed)]
  exact first frame notZero inUse

/-- A frame in use is not a page table. -/
theorem ne_table_of_used (valid : Valid layout state holds) {dir frame : Nat}
    (member : dir ∈ userDirs) (isPresent : (state.pde dir).present = true)
    (inUse : layout.Managed frame →
      0 < state.view.mapCount frame + holds frame) :
    frame ≠ (state.pde dir).page := by
  intro same
  have used := Exact.tableCount_pos member (State.view_tables isPresent)
  have unmapped := valid.exact.apart (state.pde dir).page (by omega)
  have single := valid.exact.single (state.pde dir).page
  have := inUse (same ▸ valid.table_managed member isPresent)
  rw [same] at this
  omega

/-- A store in a user page table is a store in no page. -/
theorem keeps_setEntry (valid : Valid layout state holds) {dir index : Nat}
    (member : dir ∈ userDirs) (isPresent : (state.pde dir).present = true)
    (word : Word) :
    Keeps layout state holds
      (state.setWord (state.pde dir).page index word) := by
  intro frame _ inUse
  exact State.setWord_frame (ne_table_of_used valid member isPresent inUse)

section Mapping

theorem address_slot {address : Nat} (isUser : dirIndex address ∈ userDirs) :
    (dirIndex address, tableIndex address) ∈ userSlots :=
  mem_userSlots.mpr ⟨isUser, Nat.mod_lt _ (by decide)⟩

/-- A page table entered by the kernel at an address without one. -/
theorem installed {dir frame : Nat}
    {next : State} (member : dir ∈ userDirs)
    (absent : (state.pde dir).present = false)
    (taken : Taken layout state holds frame next) :
    Valid layout (next.setWord 0 dir (Word.user frame)) holds ∧
      (next.setWord 0 dir (Word.user frame)).view =
        (state.view.setCount frame 1).setDir dir (Word.user frame) ∧
      Keeps layout state holds (next.setWord 0 dir (Word.user frame)) := by
  have samePde : next.pde = state.pde := by
    have := congrArg View.dirs taken.view
    exact this
  have nextAbsent : (next.pde dir).present = false := by rwa [samePde]
  have sameView := taken.valid.view_install nextAbsent taken.managed taken.empty
  have held := take_pos holds frame
  have exact := taken.valid.exact.install held member nextAbsent
  have notKernel : (next.pde 0).page ≠ 0 := taken.valid.kernelTable.1
  refine ⟨?_, by rw [sameView, taken.view], ?_⟩
  · apply taken.valid.of_exact
    · rw [sameView]
      rwa [give_take] at exact
    · rfl
    · rw [State.setWord_zero_pde, if_neg]
      intro zero
      subst zero
      simp [mem_userDirs] at member
    · exact State.setWord_frame notKernel
  · intro other notZero inUse
    rw [State.setWord_frame notZero]
    apply taken.others
    intro same
    subst same
    have := inUse taken.managed
    have := taken.unmapped
    have := taken.unheld
    omega

theorem installed_pde {dir frame : Nat} {next : State}
    (taken : Taken layout state holds frame next) (member : dir ∈ userDirs)
    (absent : (state.pde dir).present = false) (other : Nat) :
    (next.setWord 0 dir (Word.user frame)).pde other =
      if other = dir then Word.user frame else state.pde other := by
  obtain ⟨_, sameView, _⟩ := installed member absent taken
  exact congrFun (congrArg View.dirs sameView) other

theorem installed_pte {dir frame : Nat} {next : State}
    (taken : Taken layout state holds frame next) (member : dir ∈ userDirs)
    (absent : (state.pde dir).present = false) :
    (next.setWord 0 dir (Word.user frame)).pte = state.pte := by
  obtain ⟨_, sameView, _⟩ := installed member absent taken
  exact congrArg View.entries sameView

/-- Entering a held page in a page table that is there. -/
theorem placed (valid : Valid layout state holds) {dir index frame : Nat}
    (member : (dir, index) ∈ userSlots)
    (isPresent : (state.pde dir).present = true)
    (absent : (state.pte dir index).present = false)
    (held : 0 < holds frame) :
    Valid layout
        (state.setWord (state.pde dir).page index (Word.user frame))
        (give holds frame) ∧
      (state.setWord (state.pde dir).page index (Word.user frame)).view =
        state.view.setEntry dir index (Word.user frame) ∧
      Keeps layout state holds
        (state.setWord (state.pde dir).page index (Word.user frame)) := by
  have inDirs := (mem_userSlots.mp member).1
  have managed := valid.table_managed inDirs isPresent
  have sameView := valid.view_setWord member isPresent (Word.user frame)
  refine ⟨?_, sameView, keeps_setEntry valid inDirs isPresent _⟩
  apply valid.of_exact
  · rw [sameView]
    exact valid.exact.place held member absent
  · rfl
  · rw [State.setWord_pde (Valid.managed_ne_zero managed)]
  · exact State.setWord_frame (valid.managed_ne_kernel managed)

theorem putPage_false {frame address : Nat} {next : State}
    (put : putPage frame address state = (false, next)) : next = state := by
  unfold putPage at put
  dsimp only at put
  split at put
  · simp at put
  · split at put
    · rename_i missing
      simp only [Prod.mk.injEq, true_and] at put
      rw [← put]
      exact getFreePage_none missing
    · simp at put

/-- `put_page` fails only where it finds no page for a page table. -/
theorem putPage_fst {frame address : Nat}
    (enough : (state.pde (dirIndex address)).present = true ∨
      ∃ spare, layout.Managed spare ∧ state.view.count spare = 0) :
    (putPage frame address state).1 = true := by
  unfold putPage
  dsimp only
  split
  · rfl
  · rename_i noTable
    obtain ⟨spare, managed, free⟩ := enough.resolve_left noTable
    have some := getFreePage_isSome managed free
    split
    · rename_i missing
      rw [missing] at some
      cases some
    · rfl

/-- `put_page` of a held page at an address without one. -/
theorem putPage_true (valid : Valid layout state holds)
    {frame address : Nat} {next : State}
    (isUser : dirIndex address ∈ userDirs)
    (absent : (state.pte (dirIndex address)
      (tableIndex address)).present = false)
    (held : 0 < holds frame)
    (put : putPage frame address state = (true, next)) :
    Valid layout next (give holds frame) ∧
      next.view.entries =
        (state.view.setEntry (dirIndex address) (tableIndex address)
          (Word.user frame)).entries ∧
      Keeps layout state holds next := by
  have member := address_slot isUser
  unfold putPage at put
  dsimp only at put
  split at put <;> rename_i hasTable
  · simp only [Prod.mk.injEq, true_and] at put
    subst put
    obtain ⟨nextValid, sameView, keeps⟩ :=
      placed valid member hasTable absent held
    exact ⟨nextValid, by rw [sameView], keeps⟩
  · split at put
    · simp at put
    · rename_i table middle found
      simp only [Prod.mk.injEq, true_and] at put
      subst put
      have taken := getFreePage_some valid found
      have noTable : (state.pde (dirIndex address)).present = false := by
        simpa using hasTable
      obtain ⟨middleValid, middleView, middleKeeps⟩ :=
        installed isUser noTable taken
      let entered := middle.setWord 0 (dirIndex address) (Word.user table)
      have directory : entered.pde (dirIndex address) = Word.user table := by
        simp [entered, State.setWord_zero_pde]
      have tablePage : (entered.pde (dirIndex address)).page = table := by
        rw [directory, Word.page_user taken.managed.small]
      have sameEntries : entered.view.entries = state.view.entries := by
        rw [middleView]
        rfl
      have stillAbsent : (entered.pte (dirIndex address)
          (tableIndex address)).present = false := by
        have := congrFun (congrFun sameEntries (dirIndex address))
          (tableIndex address)
        rw [show entered.pte _ _ = state.pte _ _ from this]
        exact absent
      obtain ⟨nextValid, nextView, nextKeeps⟩ :=
        placed middleValid member (by rw [directory]; simp) stillAbsent held
      rw [tablePage] at nextValid nextView nextKeeps
      refine ⟨nextValid, ?_, middleKeeps.trans nextKeeps ?_⟩
      · rw [nextView]
        unfold View.setEntry
        rw [sameEntries]
      · intro other _ inUse
        have sameCount : (middle.setWord 0 (dirIndex address)
            (Word.user table)).view.mapCount other =
              state.view.mapCount other := by
          rw [middleView]
          rfl
        rwa [sameCount]

theorem getEmptyPage_spec (valid : Valid layout state holds) {address : Nat}
    (isUser : dirIndex address ∈ userDirs)
    (absent : (state.pte (dirIndex address)
      (tableIndex address)).present = false) :
    match getEmptyPage address state with
    | .ok next =>
        Valid layout next holds ∧ Keeps layout state holds next ∧
          ∃ frame, layout.Managed frame ∧ state.view.mapCount frame = 0 ∧
            next.view.entries =
              (state.view.setEntry (dirIndex address) (tableIndex address)
                (Word.user frame)).entries ∧
            ∀ index, next.phys frame index = 0#32
    | .error (.oom next) =>
        Valid layout next holds ∧ Keeps layout state holds next ∧
          next.view.entries = state.view.entries
    | .error (.panic _) => False := by
  unfold getEmptyPage
  cases found : getFreePage state with
  | mk result middle =>
      cases result with
      | none =>
          have same := getFreePage_none found
          subst same
          exact ⟨valid, fun _ _ _ => rfl, rfl⟩
      | some frame =>
          have taken := getFreePage_some valid found
          have sameEntries : middle.view.entries = state.view.entries := by
            rw [taken.view]
            rfl
          have sameCount (other : Nat) : middle.view.mapCount other =
              state.view.mapCount other := by
            rw [taken.view]
            rfl
          have held := take_pos holds frame
          have stillAbsent : (middle.pte (dirIndex address)
              (tableIndex address)).present = false := by
            have := congrFun (congrFun sameEntries (dirIndex address))
              (tableIndex address)
            rw [show middle.pte _ _ = state.pte _ _ from this]
            exact absent
          have firstKeeps : Keeps layout state holds middle := by
            intro other notZero inUse
            apply taken.others
            intro same
            subst same
            have := inUse taken.managed
            have := taken.unmapped
            have := taken.unheld
            omega
          cases put : putPage frame address middle with
          | mk done next =>
              cases done with
              | true =>
                  obtain ⟨nextValid, nextEntries, nextKeeps⟩ :=
                    putPage_true taken.valid isUser stillAbsent held put
                  rw [give_take] at nextValid
                  simp only [put]
                  refine ⟨nextValid, firstKeeps.trans nextKeeps ?_, frame,
                    taken.managed, taken.unmapped, ?_, ?_⟩
                  · intro other _ inUse
                    rw [sameCount]
                    unfold take
                    split <;> omega
                  · rw [nextEntries]
                    unfold View.setEntry
                    rw [sameEntries]
                  · intro index
                    rw [nextKeeps frame
                      (Valid.managed_ne_zero taken.managed)
                      (fun _ => by omega)]
                    exact taken.empty index
              | false =>
                  have same := putPage_false put
                  subst same
                  obtain ⟨freed, freedValid⟩ := freePage_held taken.valid held
                  rw [give_take] at freedValid
                  simp only [put, freed]
                  exact ⟨freedValid, firstKeeps, sameEntries⟩

end Mapping

section Splitting

/-- One use of `frame` less, for a frame the map counts. -/
def dropCount (memMap : Nat → UInt8) (frame : Nat) : Nat → UInt8 :=
  fun nr =>
    if lowMem ≤ frame ∧ nr = mapNr frame then memMap nr - 1 else memMap nr

/-- Clearing an entry and counting its page down keeps the account exact. -/
theorem Exact.drop {view : View} (exact : Exact layout view holds)
    {dir index frame : Nat} (member : (dir, index) ∈ userSlots)
    (maps : view.mappings (dir, index) = some frame) :
    Exact layout
      { view.setEntry dir index 0#32 with
        memMap := dropCount view.memMap frame } holds := by
  apply exact.clear member
  · intro nr different
    rw [maps] at different
    unfold dropCount
    rw [if_neg]
    rintro ⟨high, same⟩
    apply different
    unfold mapNr at same
    congr
    omega
  · intro other managed otherMaps
    rw [maps, Option.some.injEq] at otherMaps
    subst otherMaps
    have mapped := Exact.mapCount_pos member maps
    have total := exact.count frame managed
    unfold View.count at total ⊢
    unfold dropCount
    rw [if_pos ⟨managed.lowMem_le, rfl⟩]
    exact sub_one_toNat (by omega)

/-- Replacing the page of an entry by a held one. -/
theorem Exact.replace {view : View} (exact : Exact layout view holds)
    {dir index frame newFrame : Nat} (member : (dir, index) ∈ userSlots)
    (maps : view.mappings (dir, index) = some frame)
    (held : 0 < holds newFrame) :
    Exact layout
      { view.setEntry dir index (Word.user newFrame) with
        memMap := dropCount view.memMap frame } (give holds newFrame) := by
  have cleared := exact.drop member maps
  have placed := cleared.place held member (by simp)
  have sameView :
      View.setEntry
          { view.setEntry dir index 0#32 with
            memMap := dropCount view.memMap frame }
          dir index (Word.user newFrame) =
        { view.setEntry dir index (Word.user newFrame) with
          memMap := dropCount view.memMap frame } := by
    unfold View.setEntry
    congr 1
    funext otherDir otherIndex
    dsimp only
    split <;> rfl
  rwa [sameView] at placed

/-- What `un_wp_page` leaves at the entry it splits. -/
structure Owned (layout : Layout) (state : State) (holds : Nat → Nat)
    (dir index : Nat) (word : Word) (next : State) : Prop where
  valid : Valid layout next holds
  pde : next.pde = state.pde
  keeps : Keeps layout state holds next
  entries : next.view.entries = (state.view.setEntry dir index word).entries
  present : word.present = true
  writable : word.writable = true
  content : next.phys word.page = state.phys (state.pte dir index).page
  source : word = Word.unprotect (state.pte dir index) ∨
    ∃ newPage, word = Word.user newPage ∧ word.page = newPage ∧
      layout.Managed newPage ∧ state.view.mapCount newPage = 0

/-- `un_wp_page` on a present user entry. -/
theorem unWpPage_spec (valid : Valid layout state holds) {dir index : Nat}
    (member : (dir, index) ∈ userSlots)
    (entryPresent : (state.pte dir index).present = true) :
    match unWpPage (state.pde dir).page index state with
    | .ok next => ∃ word, Owned layout state holds dir index word next
    | .error (.oom next) => next = state
    | .error (.panic _) => False := by
  have inDirs := (mem_userSlots.mp member).1
  have isPresent : (state.pde dir).present = true := by
    by_contra absent
    rw [State.pte_eq_zero (by simpa using absent)] at entryPresent
    simp at entryPresent
  have entry := State.pte_eq member isPresent
  have tableManaged := valid.table_managed inDirs isPresent
  have maps : state.view.mappings (dir, index) =
      some (state.pte dir index).page :=
    Word.target_eq_some.mpr ⟨entryPresent, rfl⟩
  have mapped := Exact.mapCount_pos member maps
  have inUse : (state.pte dir index).page ≠ (state.pde dir).page := by
    intro same
    exact valid.exact.table_not_mapped inDirs member
      (State.view_tables isPresent) (same ▸ maps)
  unfold unWpPage
  dsimp only
  rw [← entry]
  by_cases alone : lowMem ≤ (state.pte dir index).page ∧
      state.memMap (mapNr (state.pte dir index).page) = 1
  · rw [if_pos alone]
    have managed : layout.Managed (state.pte dir index).page :=
      valid.exact.managed_of_mapped member maps alone.1
    have counted : state.view.count (state.pte dir index).page = 1 := by
      show (state.memMap (mapNr (state.pte dir index).page)).toNat = 1
      rw [alone.2]
      rfl
    have sameView := valid.view_setWord member isPresent
      (Word.unprotect (state.pte dir index))
    have samePde :
        (state.setWord (state.pde dir).page index
          (Word.unprotect (state.pte dir index))).pde = state.pde :=
      State.setWord_pde (Valid.managed_ne_zero tableManaged)
    refine ⟨Word.unprotect (state.pte dir index), ?_, samePde, ?_,
      by rw [sameView], by simpa using entryPresent, by simp, ?_, .inl rfl⟩
    · apply valid.of_exact
      · rw [sameView]
        exact valid.exact.unprotect member maps managed counted
      · rfl
      · rw [samePde]
      · exact State.setWord_frame (valid.managed_ne_kernel tableManaged)
    · exact keeps_setEntry valid inDirs isPresent _
    · rw [Word.page_unprotect, State.setWord_frame inUse]
  · rw [if_neg alone]
    cases found : getFreePage state with
    | mk result middle =>
        cases result with
        | none =>
            show middle = state
            exact getFreePage_none found
        | some newPage =>
            have taken := getFreePage_some valid found
            have notDirectory := Valid.managed_ne_zero taken.managed
            have newTable : newPage ≠ (state.pde dir).page := by
              intro same
              have used := Exact.tableCount_pos inDirs
                (State.view_tables isPresent)
              rw [← same, taken.notTable] at used
              omega
            have newPte : newPage ≠ (state.pte dir index).page := by
              intro same
              rw [← same, taken.unmapped] at mapped
              omega
            have middlePde : middle.pde = state.pde :=
              congrArg View.dirs taken.view
            have middlePte : middle.pte = state.pte :=
              congrArg View.entries taken.view
            -- the map after the old page has been counted down
            let dropped : State :=
              { middle with
                memMap := dropCount middle.memMap (state.pte dir index).page }
            have counted :
                (if lowMem ≤ (state.pte dir index).page then
                  middle.setMap (mapNr (state.pte dir index).page)
                    (middle.memMap (mapNr (state.pte dir index).page) - 1)
                else middle) = dropped := by
              unfold dropped dropCount State.setMap
              split <;> rename_i high
              · congr 1
                funext nr
                by_cases same : nr = mapNr (state.pte dir index).page
                · simp [same, high]
                · simp [same]
              · simp [high]
            let entered := dropped.setWord (state.pde dir).page index
              (Word.user newPage)
            have enteredView : entered.view =
                { middle.view.setEntry dir index (Word.user newPage) with
                  memMap :=
                    dropCount middle.memMap (state.pte dir index).page } := by
              have stored := taken.valid.view_setWord member
                (by rw [middlePde]; exact isPresent) (Word.user newPage)
              rw [middlePde] at stored
              rw [← stored]
              rfl
            have held := take_pos holds newPage
            have middleMaps : middle.view.mappings (dir, index) =
                some (state.pte dir index).page := by
              rw [taken.view]
              exact maps
            have exact := taken.valid.exact.replace member middleMaps held
            rw [give_take] at exact
            have unusedTable : entered.view.tableCount newPage = 0 := by
              rw [enteredView]
              show middle.view.tableCount newPage = 0
              rw [taken.view]
              exact taken.notTable
            have finalView : (entered.fillPage newPage
                (entered.phys (state.pte dir index).page)).view =
                  entered.view :=
              Valid.view_fillPage taken.managed unusedTable _
            have enteredPhys {other : Nat}
                (notTable : other ≠ (state.pde dir).page)
                (notNew : other ≠ newPage) :
                entered.phys other = state.phys other := by
              rw [State.setWord_frame notTable]
              exact taken.others other notNew
            show ∃ word, Owned layout state holds dir index word _
            rw [counted]
            have finalPde : (entered.fillPage newPage
                (entered.phys (state.pte dir index).page)).pde =
                  state.pde := by
              rw [State.fillPage_pde notDirectory, State.setWord_pde
                (Valid.managed_ne_zero tableManaged)]
              exact middlePde
            refine ⟨Word.user newPage, ?_, finalPde, ?_, ?_, by simp, by simp,
              ?_, .inr ⟨newPage, rfl, Word.page_user taken.managed.small,
                taken.managed, taken.unmapped⟩⟩
            · apply valid.of_exact
              · rw [finalView, enteredView]
                exact exact
              · exact taken.high
              · rw [finalPde]
              · rw [State.fillPage_frame
                  (valid.managed_ne_kernel taken.managed)]
                exact enteredPhys (valid.managed_ne_kernel tableManaged)
                  (valid.managed_ne_kernel taken.managed)
            · intro other notZero used
              have notTable := ne_table_of_used valid inDirs isPresent used
              have notNew : other ≠ newPage := by
                intro same
                subst same
                have := used taken.managed
                have := taken.unmapped
                have := taken.unheld
                omega
              rw [State.fillPage_frame notNew]
              exact enteredPhys notTable notNew
            · rw [finalView, enteredView]
              unfold View.setEntry
              rw [taken.view]
              rfl
            · rw [Word.page_user taken.managed.small, State.fillPage_same]
              exact enteredPhys inUse (Ne.symm newPte)

end Splitting

end Linux011.Mm
