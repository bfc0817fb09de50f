import Linux011.Mm.Fork

/-!
# Demand loading and page sharing

`try_to_share` maps another task's clean page read-only at the same offset of
the current task; `do_no_page` tries that first, then loads a fresh page.
-/

namespace Linux011.Mm

open RefCount

variable {layout : Layout} {state : State} {holds : Nat → Nat}

/-- What a successful `try_to_share` leaves: two read-only entries for the
page of the clean source entry. -/
structure SharedPage (layout : Layout) (state : State) (holds : Nat → Nat)
    (fromDir toDir index : Nat) (next : State) : Prop where
  valid : Valid layout next holds
  present : (state.pte fromDir index).present = true
  clean : (state.pte fromDir index).dirty = false
  absent : (state.pte toDir index).present = false
  managed : layout.Managed (state.pte fromDir index).page
  pde : ∀ dir, dir ≠ toDir → next.pde dir = state.pde dir
  entries : ∀ dir otherIndex, next.pte dir otherIndex =
    if otherIndex = index ∧ (dir = fromDir ∨ dir = toDir) then
      Word.protect (state.pte fromDir index)
    else state.pte dir otherIndex
  keeps : Keeps layout state holds next

/-- The sharing step proper, once the target has a page table. -/
theorem shareStep (valid : Valid layout state holds)
    {fromDir toDir index : Nat}
    (sourceSlot : (fromDir, index) ∈ userSlots)
    (targetSlot : (toDir, index) ∈ userSlots)
    (sameOffset : toDir % 16 = fromDir % 16)
    (present : (state.pte fromDir index).present = true)
    (clean : (state.pte fromDir index).dirty = false)
    (high : lowMem ≤ (state.pte fromDir index).page)
    (targetTable : (state.pde toDir).present = true)
    (absent : (state.pte toDir index).present = false)
    {next : State}
    (stored : next =
      ((state.setWord (state.pde fromDir).page index
          (Word.protect (state.pte fromDir index))).setWord
        (state.pde toDir).page index
          (Word.protect (state.pte fromDir index))).setMap
        (mapNr (state.pte fromDir index).page)
        (state.memMap (mapNr (state.pte fromDir index).page) + 1)) :
    SharedPage layout state holds fromDir toDir index next := by
  have sourceDirs := (mem_userSlots.mp sourceSlot).1
  have targetDirs := (mem_userSlots.mp targetSlot).1
  have sourceTable : (state.pde fromDir).present = true := by
    by_contra missing
    rw [State.pte_eq_zero (by simpa using missing)] at present
    simp at present
  have maps : state.view.mappings (fromDir, index) =
      some (state.pte fromDir index).page :=
    Word.target_eq_some.mpr ⟨present, rfl⟩
  have managed : layout.Managed (state.pte fromDir index).page :=
    valid.exact.managed_of_mapped sourceSlot maps high
  obtain ⟨nextValid, nextPde, nextEntries, nextPhys⟩ :=
    shareEntry valid sourceSlot targetSlot sameOffset present managed
      targetTable absent stored
  refine ⟨nextValid, present, clean, absent, managed,
    fun dir _ => congrFun nextPde dir, ?_, ?_⟩
  · intro dir otherIndex
    refine (congrFun (congrFun nextEntries dir) otherIndex).trans ?_
    unfold View.setEntry
    dsimp only
    by_cases sameIndex : otherIndex = index
    · by_cases atTarget : dir = toDir
      · simp [sameIndex, atTarget]
      · by_cases atSource : dir = fromDir
        · simp [sameIndex, atSource]
        · simp [atTarget, atSource]
          rfl
    · simp [sameIndex]
      rfl
  · intro frame _ inUse
    exact nextPhys frame (ne_table_of_used valid sourceDirs sourceTable inUse)
      (ne_table_of_used valid targetDirs targetTable inUse)

/-- A page table entered for the current task before the sharing. -/
theorem SharedPage.afterInstall {fromDir toDir index table : Nat}
    {middle next : State} (targetDirs : toDir ∈ userDirs)
    (noTable : (state.pde toDir).present = false)
    (taken : Taken layout state holds table middle)
    (shared : SharedPage layout
      (middle.setWord 0 toDir (Word.user table)) holds fromDir toDir index
      next) :
    SharedPage layout state holds fromDir toDir index next := by
  obtain ⟨_, _, enteredKeeps⟩ := installed targetDirs noTable taken
  have enteredPde := installed_pde taken targetDirs noTable
  have enteredPte := installed_pte taken targetDirs noTable
  have present := shared.present
  have clean := shared.clean
  have absent := shared.absent
  have managed := shared.managed
  have entries := shared.entries
  rw [enteredPte] at present clean absent managed entries
  refine ⟨shared.valid, present, clean, absent, managed, ?_, entries, ?_⟩
  · intro dir other
    rw [shared.pde dir other, enteredPde, if_neg other]
  · refine enteredKeeps.trans shared.keeps ?_
    intro frame _ inUse
    rwa [View.mapCount_congr (show
      (middle.setWord 0 toDir (Word.user table)).view.entries =
        state.view.entries from enteredPte)]

/-- The directory entry of an offset in a task's window. -/
def windowDir (nr address : Nat) : Nat :=
  dirIndex address + dirIndex (windowBase nr)

theorem windowDir_spec {nr address : Nat} (isTask : 1 ≤ nr ∧ nr < 64)
    (inside : address < 0x4000000) :
    windowDir nr address ∈ userDirs ∧
      windowDir nr address % 16 = dirIndex address ∧
      windowDir nr address / 16 = nr := by
  unfold windowDir
  rw [dirIndex_windowBase isTask.2, mem_userDirs]
  have : dirIndex address < 16 := by
    unfold dirIndex
    omega
  omega

theorem tryToShare_spec (valid : Valid layout state holds)
    {address p current : Nat} (inside : address < 0x4000000)
    (isTask : 1 ≤ p ∧ p < 64) (isCurrent : 1 ≤ current ∧ current < 64) :
    match tryToShare address (windowBase p) (windowBase current) state with
    | .ok (true, next) =>
        SharedPage layout state holds (windowDir p address)
          (windowDir current address) (tableIndex address) next
    | .ok (false, next) => next = state
    | .error (.oom next) => next = state
    | .error (.panic message) =>
        message = "try_to_share: to_page already exists" ∧
          (state.pte (windowDir current address)
            (tableIndex address)).present = true := by
  obtain ⟨sourceDirs, sourceOffset, _⟩ := windowDir_spec isTask inside
  obtain ⟨targetDirs, targetOffset, _⟩ := windowDir_spec isCurrent inside
  have inTable : tableIndex address < 1024 := Nat.mod_lt _ (by decide)
  have sourceSlot : (windowDir p address, tableIndex address) ∈ userSlots :=
    mem_userSlots.mpr ⟨sourceDirs, inTable⟩
  have targetSlot :
      (windowDir current address, tableIndex address) ∈ userSlots :=
    mem_userSlots.mpr ⟨targetDirs, inTable⟩
  have sameOffset := targetOffset.trans sourceOffset.symm
  unfold tryToShare
  dsimp only
  rw [show dirIndex address + dirIndex (windowBase p) =
      windowDir p address from rfl,
    show dirIndex address + dirIndex (windowBase current) =
      windowDir current address from rfl]
  by_cases sourceTable : (state.pde (windowDir p address)).present = true
  · rw [if_neg (by simp [sourceTable]),
      ← State.pte_eq sourceSlot sourceTable]
    by_cases usable :
        (state.pte (windowDir p address) (tableIndex address)).present =
            true ∧
          ¬ (state.pte (windowDir p address) (tableIndex address)).dirty =
            true
    · rw [if_neg (by simpa using usable)]
      by_cases outside : state.highMemory ≤
          (state.pte (windowDir p address) (tableIndex address)).page *
            4096 ∨
          (state.pte (windowDir p address) (tableIndex address)).page <
            lowMem
      · rw [if_pos outside]
      · rw [if_neg outside]
        have clean : (state.pte (windowDir p address)
            (tableIndex address)).dirty = false := by
          simpa using usable.2
        have high : lowMem ≤ (state.pte (windowDir p address)
            (tableIndex address)).page := by
          omega
        by_cases targetTable :
            (state.pde (windowDir current address)).present = true
        · rw [if_pos targetTable]
          simp only [bind, Except.bind]
          rw [← State.pte_eq targetSlot targetTable]
          by_cases occupied : (state.pte (windowDir current address)
              (tableIndex address)).present = true
          · rw [if_pos occupied]
            exact ⟨rfl, occupied⟩
          · rw [if_neg occupied]
            apply shareStep valid sourceSlot targetSlot sameOffset usable.1
              clean high targetTable (by simpa using occupied)
            rw [State.setWord_same, ← State.pte_eq sourceSlot sourceTable]
            rfl
        · rw [if_neg targetTable]
          cases found : getFreePage state with
          | mk result middle =>
              cases result with
              | none => exact getFreePage_none found
              | some table =>
                  have taken := getFreePage_some valid found
                  have noTable :
                      (state.pde (windowDir current address)).present =
                        false := by
                    simpa using targetTable
                  have differentDirs :
                      windowDir p address ≠ windowDir current address := by
                    intro same
                    rw [same, noTable] at sourceTable
                    cases sourceTable
                  obtain ⟨enteredValid, _, _⟩ :=
                    installed targetDirs noTable taken
                  have enteredPde := installed_pde taken targetDirs noTable
                  have enteredPte := installed_pte taken targetDirs noTable
                  -- the state with the new table, and what it maps
                  obtain ⟨entered, enteredEq⟩ : ∃ entered, middle.setWord 0
                      (windowDir current address) (Word.user table) =
                        entered := ⟨_, rfl⟩
                  have lift := @SharedPage.afterInstall layout state holds
                    (windowDir p address) (windowDir current address)
                    (tableIndex address) table middle
                  rw [enteredEq] at enteredValid enteredPde enteredPte
                  have targetPde :
                      entered.pde (windowDir current address) =
                        Word.user table := by
                    rw [enteredPde, if_pos rfl]
                  have sourcePde : entered.pde (windowDir p address) =
                      state.pde (windowDir p address) := by
                    rw [enteredPde, if_neg differentDirs]
                  have targetPage :
                      (entered.pde (windowDir current address)).page =
                        table := by
                    rw [targetPde, Word.page_user taken.managed.small]
                  have targetPresent :
                      (entered.pde (windowDir current address)).present =
                        true := by
                    rw [targetPde]
                    simp
                  have absent : (entered.pte (windowDir current address)
                      (tableIndex address)).present = false := by
                    rw [enteredPte, State.pte_eq_zero noTable]
                    simp
                  have targetEntry :=
                    State.pte_eq targetSlot targetPresent
                  have sourceEntry := State.pte_eq sourceSlot
                    (sourcePde.symm ▸ sourceTable)
                  rw [targetPage] at targetEntry
                  rw [sourcePde] at sourceEntry
                  simp only [bind, Except.bind, enteredEq]
                  rw [← targetEntry, if_neg (by simp [absent])]
                  refine lift targetDirs noTable taken ?_
                  rw [enteredEq]
                  rw [← enteredPte] at usable clean high ⊢
                  apply shareStep enteredValid sourceSlot targetSlot
                    sameOffset usable.1 clean high targetPresent absent
                  rw [State.setWord_same, ← sourceEntry, targetPage,
                    sourcePde]
                  rfl
    · rw [if_pos usable]
  · rw [if_pos sourceTable]

/-- Every task in the table runs in the window of its slot. -/
def Windowed (tasks : Nat → Option Task) : Prop :=
  ∀ nr p, tasks nr = some p → p.startCode = windowBase nr

theorem shareWith_spec (valid : Valid layout state holds)
    {tasks : Nat → Option Task} (windowed : Windowed tasks)
    {current : Nat} {mine : Task} {address nr : Nat}
    (isCurrent : 1 ≤ current ∧ current < 64)
    (own : mine.startCode = windowBase current)
    (inside : address < 0x4000000) (inRange : nr < 64) :
    match shareWith tasks current mine address nr state with
    | .ok (true, next) => ∃ p task, tasks p = some task ∧ p ≠ current ∧
        1 ≤ p ∧ p < 64 ∧ task.executable = mine.executable ∧
        SharedPage layout state holds (windowDir p address)
          (windowDir current address) (tableIndex address) next
    | .ok (false, next) => next = state
    | .error (.oom next) => next = state
    | .error (.panic message) =>
        message = "try_to_share: to_page already exists" ∧
          (state.pte (windowDir current address)
            (tableIndex address)).present = true := by
  induction nr with
  | zero => rfl
  | succ nr induction =>
      have rest := induction (by omega)
      unfold shareWith
      cases slot : tasks (nr + 1) with
      | none => exact rest
      | some p =>
          dsimp only
          by_cases skipped : current = nr + 1 ∨
              p.executable ≠ mine.executable
          · rw [if_pos skipped]
            exact rest
          · rw [if_neg skipped, windowed _ _ slot, own]
            have shared := tryToShare_spec valid inside
              (show 1 ≤ nr + 1 ∧ nr + 1 < 64 by omega) isCurrent
            revert shared
            cases tryToShare address (windowBase (nr + 1))
                (windowBase current) state with
            | error fault =>
                intro shared
                cases fault with
                | oom next => exact shared
                | panic message => exact shared
            | ok result =>
                obtain ⟨flag, next⟩ := result
                intro shared
                cases flag with
                | true =>
                    have sameProgram : p.executable = mine.executable := by
                      by_contra other
                      exact skipped (.inr other)
                    exact ⟨nr + 1, p, slot, by omega, by omega, by omega,
                      sameProgram, shared⟩
                | false =>
                    have same : next = state := shared
                    subst same
                    exact rest

/-- The page address of a fault in the window of the current task. -/
structure Fault.At (current address : Nat) : Prop where
  isTask : 1 ≤ current ∧ current < 64
  above : windowBase current ≤ address
  below : address < windowBase current + 0x4000000

theorem windowDir_sub {current address : Nat}
    (at_ : Fault.At current address) :
    windowDir current (address / 4096 * 4096 - windowBase current) =
        dirIndex address ∧
      tableIndex (address / 4096 * 4096 - windowBase current) =
        tableIndex address ∧
      address / 4096 * 4096 - windowBase current < 0x4000000 := by
  obtain ⟨isTask, above, below⟩ := at_
  unfold windowDir
  rw [dirIndex_windowBase isTask.2]
  unfold dirIndex tableIndex
  unfold windowBase at above below ⊢
  omega

/-- A held page may be written. -/
theorem fillHeld (valid : Valid layout state holds) {frame : Nat}
    (held : 0 < holds frame) (content : Nat → Word) :
    Valid layout (state.fillPage frame content) holds ∧
      (state.fillPage frame content).view = state.view := by
  have managed := valid.exact.owned frame (by omega)
  have single := valid.exact.single frame
  have sameView := @Valid.view_fillPage layout state frame managed
    (by omega) content
  refine ⟨?_, sameView⟩
  refine valid.of_exact ?_ rfl ?_ ?_
  · rw [sameView]
    exact valid.exact
  · rw [State.fillPage_pde (Valid.managed_ne_zero managed)]
  · exact State.fillPage_frame (valid.managed_ne_kernel managed)

/-- What `do_no_page` leaves where it returns: a page that nobody else uses,
or a page shared read-only with a task that runs the same program. -/
inductive Paged (layout : Layout) (state : State) (holds : Nat → Nat)
    (tasks : Nat → Option Task) (current : Nat) (mine : Task)
    (address : Nat) (next : State) : Prop where
  | fresh (frame : Nat) (valid : Valid layout next holds)
      (keeps : Keeps layout state holds next)
      (managed : layout.Managed frame)
      (unused : state.view.mapCount frame = 0)
      (entries : next.view.entries =
        (state.view.setEntry (dirIndex address) (tableIndex address)
          (Word.user frame)).entries)
  | shared (p : Nat) (task : Task) (isTask : tasks p = some task)
      (different : p ≠ current) (inTable : 1 ≤ p ∧ p < 64)
      (program : mine.executable ≠ none)
      (loaded : address / 4096 * 4096 - windowBase current < mine.endData)
      (page : SharedPage layout state holds
        (windowDir p (address / 4096 * 4096 - windowBase current))
        (dirIndex address) (tableIndex address) next)

theorem Paged.valid {tasks : Nat → Option Task} {current address : Nat}
    {mine : Task} {next : State}
    (paged : Paged layout state holds tasks current mine address next) :
    Valid layout next holds := by
  cases paged with
  | fresh frame valid => exact valid
  | shared p task isTask different inTable program loaded page =>
      exact page.valid

theorem Paged.keeps {tasks : Nat → Option Task} {current address : Nat}
    {mine : Task} {next : State}
    (paged : Paged layout state holds tasks current mine address next) :
    Keeps layout state holds next := by
  cases paged with
  | fresh frame valid keeps => exact keeps
  | shared p task isTask different inTable program loaded page =>
      exact page.keeps

theorem doNoPage_paged (valid : Valid layout state holds)
    {tasks : Nat → Option Task} (windowed : Windowed tasks)
    {current iCount address : Nat} {mine : Task} {load : Nat → Word}
    (own : mine.startCode = windowBase current)
    (at_ : Fault.At current address)
    (absent : (state.pte (dirIndex address)
      (tableIndex address)).present = false) :
    match doNoPage tasks current mine iCount address load state with
    | .ok next => Paged layout state holds tasks current mine address next
    | .error (.oom next) =>
        Valid layout next holds ∧ Keeps layout state holds next
    | .error (.panic _) => False := by
  obtain ⟨sameDir, sameTable, inside⟩ := windowDir_sub at_
  have isUser : dirIndex address ∈ userDirs := by
    rw [← sameDir]
    exact (windowDir_spec at_.isTask inside).1
  have pageDir : dirIndex (address / 4096 * 4096) = dirIndex address := by
    unfold dirIndex
    omega
  have pageTable : tableIndex (address / 4096 * 4096) =
      tableIndex address := by
    unfold tableIndex
    omega
  unfold doNoPage
  dsimp only
  rw [own]
  by_cases anonymous : mine.executable = none ∨
      mine.endData ≤ address / 4096 * 4096 - windowBase current
  · rw [if_pos anonymous]
    have spec := getEmptyPage_spec valid
      (show dirIndex (address / 4096 * 4096) ∈ userDirs from
        pageDir.symm ▸ isUser)
      (by rw [pageDir, pageTable]; exact absent)
    revert spec
    cases getEmptyPage (address / 4096 * 4096) state with
    | ok next =>
        rintro ⟨nextValid, nextKeeps, frame, managed, unused, entries, _⟩
        rw [pageDir, pageTable] at entries
        exact .fresh frame nextValid nextKeeps managed unused entries
    | error fault =>
        cases fault with
        | oom next => exact fun spec => ⟨spec.1, spec.2.1⟩
        | panic message => exact fun spec => spec.elim
  · rw [if_neg anonymous]
    have shared : match sharePage tasks current mine iCount
        (address / 4096 * 4096 - windowBase current) state with
        | .ok (true, next) =>
            Paged layout state holds tasks current mine address next
        | .ok (false, next) => next = state
        | .error (.oom next) => next = state
        | .error (.panic _) => False := by
      unfold sharePage
      by_cases alone : mine.executable = none ∨ iCount < 2
      · rw [if_pos alone]
      · rw [if_neg alone]
        have spec := shareWith_spec valid windowed at_.isTask own inside
          (show 63 < 64 by decide)
        revert spec
        cases shareWith tasks current mine
            (address / 4096 * 4096 - windowBase current) 63 state with
        | ok result =>
            obtain ⟨flag, next⟩ := result
            cases flag with
            | true =>
                rintro ⟨p, task, isTask, different, least, greatest, _, page⟩
                rw [sameDir, sameTable] at page
                exact .shared p task isTask different ⟨least, greatest⟩
                  (fun missing => alone (.inl missing))
                  (by
                    by_contra beyond
                    exact anonymous (.inr (by omega))) page
            | false => exact id
        | error fault =>
            cases fault with
            | oom next => exact id
            | panic message =>
                rintro ⟨_, occupied⟩
                rw [sameDir, sameTable, absent] at occupied
                cases occupied
    revert shared
    cases sharePage tasks current mine iCount
        (address / 4096 * 4096 - windowBase current) state with
    | error fault =>
        intro shared
        cases fault with
        | oom next =>
            have same : next = state := shared
            subst same
            exact ⟨valid, fun _ _ _ => rfl⟩
        | panic message => exact shared
    | ok result =>
        obtain ⟨flag, middle⟩ := result
        intro shared
        cases flag with
        | true => exact shared
        | false =>
            have same : middle = state := shared
            subst same
            dsimp only
            cases found : getFreePage middle with
            | mk result taken =>
                cases result with
                | none =>
                    have same := getFreePage_none found
                    subst same
                    exact ⟨valid, fun _ _ _ => rfl⟩
                | some page =>
                    have got := getFreePage_some valid found
                    have held := take_pos holds page
                    obtain ⟨loadedValid, loadedView⟩ :=
                      fillHeld got.valid held load
                    have loadedKeeps : Keeps layout middle holds
                        (taken.fillPage page load) := by
                      intro other notZero inUse
                      have different : other ≠ page := by
                        rintro rfl
                        have := inUse got.managed
                        have := got.unmapped
                        have := got.unheld
                        omega
                      exact (State.fillPage_frame different).trans
                        (got.others other different)
                    have loadedEntries :
                        (taken.fillPage page load).view.entries =
                          middle.view.entries := by
                      rw [loadedView, got.view]
                      rfl
                    have stays : ∀ frame, layout.Managed frame →
                        0 < middle.view.mapCount frame + holds frame →
                          0 < (taken.fillPage page load).view.mapCount
                            frame + take holds page frame := by
                      intro frame _ inUse
                      rw [View.mapCount_congr loadedEntries]
                      unfold take
                      split <;> omega
                    have stillAbsent :
                        ((taken.fillPage page load).pte
                          (dirIndex (address / 4096 * 4096))
                          (tableIndex (address / 4096 * 4096))).present =
                            false := by
                      rw [show (taken.fillPage page load).pte = middle.pte
                        from loadedEntries, pageDir, pageTable]
                      exact absent
                    cases put : putPage page (address / 4096 * 4096)
                        (taken.fillPage page load) with
                    | mk done next =>
                        cases done with
                        | true =>
                            have isUserPage := pageDir.symm ▸ isUser
                            obtain ⟨nextValid, nextEntries, nextKeeps⟩ :=
                              putPage_true loadedValid isUserPage
                                stillAbsent held put
                            rw [give_take] at nextValid
                            rw [pageDir, pageTable] at nextEntries
                            simp only [put]
                            refine .fresh page nextValid
                              (loadedKeeps.trans nextKeeps stays) got.managed
                              got.unmapped ?_
                            rw [nextEntries]
                            unfold View.setEntry
                            rw [loadedEntries]
                        | false =>
                            have same := putPage_false put
                            subst same
                            obtain ⟨freed, freedValid⟩ :=
                              freePage_held loadedValid held
                            rw [give_take] at freedValid
                            simp only [put, freed, bind, Except.bind]
                            exact ⟨freedValid, loadedKeeps⟩

theorem doNoPage_spec (valid : Valid layout state holds)
    {tasks : Nat → Option Task} (windowed : Windowed tasks)
    {current iCount address : Nat} {mine : Task} {load : Nat → Word}
    (own : mine.startCode = windowBase current)
    (at_ : Fault.At current address)
    (absent : (state.pte (dirIndex address)
      (tableIndex address)).present = false) :
    match doNoPage tasks current mine iCount address load state with
    | .ok next => Valid layout next holds ∧ Keeps layout state holds next
    | .error (.oom next) =>
        Valid layout next holds ∧ Keeps layout state holds next
    | .error (.panic _) => False := by
  have paged := @doNoPage_paged layout state holds valid tasks windowed current
    iCount address mine load own at_ absent
  revert paged
  cases doNoPage tasks current mine iCount address load state with
  | ok next => exact fun paged => ⟨paged.valid, paged.keeps⟩
  | error fault =>
      cases fault with
      | oom next => exact id
      | panic message => exact id

end Linux011.Mm
