import Linux011.Mm.Teardown

/-!
# Copying page tables for a fork

`copy_page_tables` gives the child a read-only entry for each present entry
of the parent, and write-protects the parent's entry where the page is
counted.  `Forked` records what a copy may do to each virtual entry, so that
the three nested loops compose.
-/

namespace Linux011.Mm

open RefCount

variable {layout : Layout} {state : State} {holds : Nat → Nat}

/-- Sharing a counted page at the same offset of two windows. -/
theorem shareEntry (valid : Valid layout state holds)
    {sourceDir targetDir index : Nat}
    (sourceSlot : (sourceDir, index) ∈ userSlots)
    (targetSlot : (targetDir, index) ∈ userSlots)
    (sameOffset : targetDir % 16 = sourceDir % 16)
    (entryPresent : (state.pte sourceDir index).present = true)
    (managed : layout.Managed (state.pte sourceDir index).page)
    (targetTable : (state.pde targetDir).present = true)
    (absent : (state.pte targetDir index).present = false)
    {next : State}
    (stored : next =
      ((state.setWord (state.pde sourceDir).page index
          (Word.protect (state.pte sourceDir index))).setWord
        (state.pde targetDir).page index
          (Word.protect (state.pte sourceDir index))).setMap
        (mapNr (state.pte sourceDir index).page)
        (state.memMap (mapNr (state.pte sourceDir index).page) + 1)) :
    Valid layout next holds ∧ next.pde = state.pde ∧
      next.view.entries =
        ((state.view.setEntry sourceDir index
          (Word.protect (state.pte sourceDir index))).setEntry targetDir
            index (Word.protect (state.pte sourceDir index))).entries ∧
      ∀ frame, frame ≠ (state.pde sourceDir).page →
        frame ≠ (state.pde targetDir).page →
          next.phys frame = state.phys frame := by
  have sourceTable : (state.pde sourceDir).present = true := by
    by_contra missing
    rw [State.pte_eq_zero (by simpa using missing)] at entryPresent
    simp at entryPresent
  have differentDirs : targetDir ≠ sourceDir := by
    rintro rfl
    rw [entryPresent] at absent
    cases absent
  have sourceManaged :=
    valid.table_managed (mem_userSlots.mp sourceSlot).1 sourceTable
  have targetManaged :=
    valid.table_managed (mem_userSlots.mp targetSlot).1 targetTable
  -- write-protect the source entry
  let middle := state.setWord (state.pde sourceDir).page index
    (Word.protect (state.pte sourceDir index))
  have middlePde : middle.pde = state.pde :=
    State.setWord_pde (Valid.managed_ne_zero sourceManaged)
  have middleView := valid.view_setWord sourceSlot sourceTable
    (Word.protect (state.pte sourceDir index))
  have middleValid : Valid layout middle holds := by
    refine valid.of_exact ?_ rfl (congrFun middlePde 0)
      (State.setWord_frame (valid.managed_ne_kernel sourceManaged))
    rw [middleView]
    apply valid.exact.restamp (Word.target_protect _)
    simp
  have maps : middle.view.mappings (sourceDir, index) =
      some (state.pte sourceDir index).page := by
    rw [middleView]
    unfold View.mappings
    rw [View.setEntry_same, Word.target_protect]
    exact Word.target_eq_some.mpr ⟨entryPresent, rfl⟩
  have middleProtected :
      (middle.view.entries sourceDir index).writable = false := by
    rw [middleView, View.setEntry_same]
    simp
  have middleAbsent :
      (middle.view.entries targetDir index).present = false := by
    have other : (targetDir, index) ≠ (sourceDir, index) := by
      simp [differentDirs]
    rw [middleView]
    rw [View.setEntry_other other]
    exact absent
  have target := Word.target_eq_some.mpr
    ⟨(Word.present_protect _).trans entryPresent,
      Word.page_protect (state.pte sourceDir index)⟩
  have exact := middleValid.exact.duplicate sourceSlot targetSlot maps
    middleProtected sameOffset managed middleAbsent target
    (Word.writable_protect _)
  -- enter the copy
  have enteredView := middleValid.view_setWord targetSlot
    (by rw [middlePde]; exact targetTable)
    (Word.protect (state.pte sourceDir index))
  rw [middlePde] at enteredView
  have nextView : next.view =
      (middle.view.setEntry targetDir index
        (Word.protect (state.pte sourceDir index))).setCount
          (state.pte sourceDir index).page
          (middle.view.memMap (mapNr (state.pte sourceDir index).page) +
            1) := by
    rw [stored, State.view_setMap, enteredView]
    rfl
  have nextPde : next.pde = state.pde := by
    rw [stored]
    exact (State.setWord_pde (Valid.managed_ne_zero targetManaged)).trans
      middlePde
  refine ⟨?_, nextPde, ?_, ?_⟩
  · apply middleValid.of_exact
    · rw [nextView]
      exact exact
    · rw [stored]
      rfl
    · rw [nextPde, middlePde]
    · rw [stored]
      exact State.setWord_frame (middleValid.managed_ne_kernel targetManaged)
  · rw [nextView, middleView]
    rfl
  · intro frame notSource notTarget
    rw [stored]
    exact (State.setWord_frame notTarget).trans
      (State.setWord_frame notSource)

/-- What a copy from the directory entries `source` to the directory entries
`target` may leave at an entry. -/
def Inherited (state : State) (source target : Nat → Prop)
    (dir index : Nat) (word : Word) : Prop :=
  word = state.pte dir index ∨
  word = Word.protect (state.pte dir index) ∨
  (state.pte dir index).present = false ∧ target dir ∧
    ((∃ parent, source parent ∧ parent % 16 = dir % 16 ∧
        (state.pte parent index).present = true ∧
        word = Word.protect (state.pte parent index)) ∨
      word.page < lowMem ∧ word.writable = false)

structure Forked (layout : Layout) (state : State) (holds : Nat → Nat)
    (source target : Nat → Prop) (next : State) : Prop where
  valid : Valid layout next holds
  pde : ∀ dir, ¬ target dir → next.pde dir = state.pde dir
  entries : ∀ dir index,
    Inherited state source target dir index (next.pte dir index)
  keeps : Keeps layout state holds next
  grows : ∀ frame, state.view.mapCount frame ≤ next.view.mapCount frame
  others : ∀ dir index, ¬ source dir → ¬ target dir →
    next.pte dir index = state.pte dir index

namespace Forked

variable {source target : Nat → Prop}

theorem refl (valid : Valid layout state holds) :
    Forked layout state holds source target state :=
  ⟨valid, fun _ _ => rfl, fun _ _ => .inl rfl, fun _ _ _ => rfl,
    fun _ => le_refl _, fun _ _ _ _ => rfl⟩

theorem trans {middle next : State}
    (disjoint : ∀ dir, source dir → ¬ target dir)
    (first : Forked layout state holds source target middle)
    (second : Forked layout middle holds source target next) :
    Forked layout state holds source target next where
  valid := second.valid
  pde := by
    intro dir notTarget
    rw [second.pde dir notTarget, first.pde dir notTarget]
  entries := by
    intro dir index
    rcases second.entries dir index with same | protected_ |
        ⟨middleAbsent, isTarget, copied⟩
    · rw [same]
      exact first.entries dir index
    · rw [protected_]
      rcases first.entries dir index with same | again |
          ⟨absent, isTarget, copied⟩
      · rw [same]
        exact .inr (.inl rfl)
      · rw [again, Word.protect_protect]
        exact .inr (.inl rfl)
      · refine .inr (.inr ⟨absent, isTarget, ?_⟩)
        rcases copied with ⟨parent, isSource, offset, isPresent, word⟩ | low
        · refine .inl ⟨parent, isSource, offset, isPresent, ?_⟩
          rw [word, Word.protect_protect]
        · exact .inr (by simpa using low.1)
    · have absent : (state.pte dir index).present = false := by
        rcases first.entries dir index with same | again | ⟨absent, _, _⟩
        · rwa [same] at middleAbsent
        · rwa [again, Word.present_protect] at middleAbsent
        · exact absent
      refine .inr (.inr ⟨absent, isTarget, ?_⟩)
      rcases copied with ⟨parent, isSource, offset, isPresent, word⟩ | low
      · refine .inl ⟨parent, isSource, offset, ?_⟩
        rcases first.entries parent index with same | again |
            ⟨_, parentTarget, _⟩
        · rw [same] at isPresent word
          exact ⟨isPresent, word⟩
        · rw [again] at isPresent word
          rw [Word.present_protect] at isPresent
          rw [Word.protect_protect] at word
          exact ⟨isPresent, word⟩
        · exact (disjoint parent isSource parentTarget).elim
      · exact .inr low
  keeps := by
    refine first.keeps.trans second.keeps ?_
    intro frame _ inUse
    have := first.grows frame
    omega
  grows := fun frame => (first.grows frame).trans (second.grows frame)
  others := fun dir index notSource notTarget =>
    (second.others dir index notSource notTarget).trans
      (first.others dir index notSource notTarget)

theorem mono {wider wide : Nat → Prop} {next : State}
    (forked : Forked layout state holds source target next)
    (moreSource : ∀ dir, source dir → wider dir)
    (moreTarget : ∀ dir, target dir → wide dir) :
    Forked layout state holds wider wide next where
  valid := forked.valid
  pde := fun dir outside =>
    forked.pde dir fun isTarget => outside (moreTarget dir isTarget)
  entries := by
    intro dir index
    rcases forked.entries dir index with same | again |
        ⟨absent, isTarget, copied⟩
    · exact .inl same
    · exact .inr (.inl again)
    · refine .inr (.inr ⟨absent, moreTarget dir isTarget, ?_⟩)
      rcases copied with ⟨parent, isSource, rest⟩ | low
      · exact .inl ⟨parent, moreSource parent isSource, rest⟩
      · exact .inr low
  keeps := forked.keeps
  grows := forked.grows
  others := fun dir index notSource notTarget =>
    forked.others dir index (fun isSource => notSource (moreSource dir isSource))
      fun isTarget => notTarget (moreTarget dir isTarget)

end Forked

/-- Rewriting an entry that mapped nothing, or the same page, loses no
mapping. -/
theorem View.mapCount_le_setEntry {view : View} {dir index : Nat}
    {word : Word} (member : (dir, index) ∈ userSlots)
    (keeps : Word.target (view.entries dir index) = none ∨
      Word.target (view.entries dir index) = Word.target word)
    (frame : Nat) :
    view.mapCount frame ≤ (view.setEntry dir index word).mapCount frame := by
  have moved : (view.setEntry dir index word).mapCount frame +
      weight (Word.target (view.entries dir index)) frame =
        view.mapCount frame + weight (Word.target word) frame :=
    View.setEntry_mapCount view word member frame
  rcases keeps with none | same
  · rw [none, weight_none] at moved
    omega
  · rw [same] at moved
    omega

theorem View.mapCount_congr {left right : View}
    (same : left.entries = right.entries) (frame : Nat) :
    left.mapCount frame = right.mapCount frame := by
  unfold View.mapCount View.mappings
  rw [same]

/-- Where `copy_page_tables` may take page `nr` from: the window of a task,
at the same offset, or the first 640 kB of the kernel. -/
def Copyable (fromDir toDir nr : Nat) : Prop :=
  fromDir ∈ userDirs ∧ toDir % 16 = fromDir % 16 ∨ fromDir = 0 ∧ nr < 0xA0

/-- A page below `LOW_MEM` is shared without being counted. -/
theorem copyLow (valid : Valid layout state holds) {toDir nr : Nat}
    {word : Word} (targetSlot : (toDir, nr) ∈ userSlots)
    (targetTable : (state.pde toDir).present = true)
    (absent : (state.pte toDir nr).present = false)
    (wordPresent : word.present = true) (low : word.page < lowMem)
    (isProtected : word.writable = false) {source : Nat → Prop}
    (inherits : (∃ parent, source parent ∧ parent % 16 = toDir % 16 ∧
        (state.pte parent nr).present = true ∧
        word = Word.protect (state.pte parent nr)) ∨
      word.page < lowMem ∧ word.writable = false) :
    Forked layout state holds source (fun dir => dir = toDir)
      (state.setWord (state.pde toDir).page nr word) := by
  have inDirs := (mem_userSlots.mp targetSlot).1
  have managed := valid.table_managed inDirs targetTable
  have samePde : (state.setWord (state.pde toDir).page nr word).pde =
      state.pde := State.setWord_pde (Valid.managed_ne_zero managed)
  have sameView := valid.view_setWord targetSlot targetTable word
  have target : Word.target word = some word.page :=
    Word.target_eq_some.mpr ⟨wordPresent, rfl⟩
  have before : Word.target (state.view.entries toDir nr) = none := by
    show Word.target (state.pte toDir nr) = none
    simp [Word.target, absent]
  refine ⟨?_, fun dir _ => congrFun samePde dir, ?_,
    keeps_setEntry valid inDirs targetTable word, ?_, ?_⟩
  · refine valid.of_exact ?_ rfl (congrFun samePde 0)
      (State.setWord_frame (valid.managed_ne_kernel managed))
    rw [sameView]
    exact valid.exact.placeLow targetSlot absent target low isProtected
  · intro dir index
    rw [valid.pte_setWord targetSlot targetTable]
    split <;> rename_i here
    · obtain ⟨rfl, rfl⟩ := here
      exact .inr (.inr ⟨absent, rfl, inherits⟩)
    · exact .inl rfl
  · intro frame
    rw [sameView]
    exact View.mapCount_le_setEntry targetSlot (.inl before) frame
  · intro dir index _ notTarget
    rw [valid.pte_setWord targetSlot targetTable]
    exact if_neg fun here => notTarget here.1

/-- `this_page` once `LOW_MEM` is taken off and the rest shifted. -/
theorem mapNr_protect {word : Word} (high : lowMem ≤ word.page) :
    ((Word.protect word - 0x100000#32) >>> 12).toNat = mapNr word.page := by
  rw [Word.mapNr_eq (by rw [Word.page_protect]; exact high), Word.page_protect]
  rfl

theorem copyEntry_spec (valid : Valid layout state holds)
    {fromDir toDir nr : Nat} (copyable : Copyable fromDir toDir nr)
    (targetSlot : (toDir, nr) ∈ userSlots)
    (sourceTable : (state.pde fromDir).present = true)
    (targetTable : (state.pde toDir).present = true)
    (different : fromDir ≠ toDir)
    (absent : (state.pte toDir nr).present = false) :
    Forked layout state holds (fun dir => dir = fromDir)
        (fun dir => dir = toDir)
        (copyEntry (state.pde fromDir).page (state.pde toDir).page nr
          state) ∧
      (copyEntry (state.pde fromDir).page (state.pde toDir).page nr
        state).pde = state.pde ∧
      ∀ index, index ≠ nr →
        (copyEntry (state.pde fromDir).page (state.pde toDir).page nr
          state).pte toDir index = state.pte toDir index := by
  have targetDirs := (mem_userSlots.mp targetSlot).1
  have targetManaged := valid.table_managed targetDirs targetTable
  have inRange := (mem_userSlots.mp targetSlot).2
  have lowStore {word : Word} (index : Nat) (other : index ≠ nr) :
      (state.setWord (state.pde toDir).page nr word).pte toDir index =
        state.pte toDir index := by
    rw [valid.pte_setWord targetSlot targetTable, if_neg (by simp [other])]
  have lowPde (word : Word) :
      (state.setWord (state.pde toDir).page nr word).pde = state.pde :=
    State.setWord_pde (Valid.managed_ne_zero targetManaged)
  unfold copyEntry
  dsimp only
  by_cases wordPresent :
      (state.phys (state.pde fromDir).page nr).present = true
  · rw [if_neg (by simp [wordPresent])]
    have copyPresent := (Word.present_protect _).trans wordPresent
    have test := Word.lowMem_lt_iff copyPresent
    rw [Word.page_protect] at test
    rcases copyable with ⟨isUser, offset⟩ | ⟨rfl, kernelPage⟩
    · have sourceSlot : (fromDir, nr) ∈ userSlots :=
        mem_userSlots.mpr ⟨isUser, inRange⟩
      have entry := State.pte_eq sourceSlot sourceTable
      rw [← entry] at wordPresent copyPresent test ⊢
      by_cases counted : 0x100000#32 < Word.protect (state.pte fromDir nr)
      · rw [if_pos counted]
        have high := test.mp counted
        have maps : state.view.mappings (fromDir, nr) =
            some (state.pte fromDir nr).page :=
          Word.target_eq_some.mpr ⟨wordPresent, rfl⟩
        have managed : layout.Managed (state.pte fromDir nr).page :=
          valid.exact.managed_of_mapped sourceSlot maps high
        have apart : (state.pde fromDir).page ≠ (state.pde toDir).page := by
          intro same
          apply different
          exact valid.exact.table_unique isUser targetDirs
            (State.view_tables sourceTable)
            (same ▸ State.view_tables targetTable)
        rw [mapNr_protect high]
        have swapped :
            (state.setWord (state.pde fromDir).page nr
                (Word.protect (state.pte fromDir nr))).setWord
              (state.pde toDir).page nr
                (Word.protect (state.pte fromDir nr)) =
            (state.setWord (state.pde toDir).page nr
                (Word.protect (state.pte fromDir nr))).setWord
              (state.pde fromDir).page nr
                (Word.protect (state.pte fromDir nr)) :=
          State.setWord_comm apart
        obtain ⟨nextValid, nextPde, nextEntries, nextPhys⟩ :=
          shareEntry valid sourceSlot targetSlot offset wordPresent managed
            targetTable absent rfl
        rw [swapped] at nextValid nextPde nextEntries nextPhys
        have pte (dir index : Nat) := congrFun (congrFun nextEntries dir) index
        refine ⟨⟨nextValid, fun dir _ => congrFun nextPde dir, ?_, ?_, ?_,
          ?_⟩, nextPde, ?_⟩
        · intro dir index
          refine (congrArg _ (pte dir index)).mpr ?_
          unfold View.setEntry
          by_cases atTarget : dir = toDir ∧ index = nr
          · obtain ⟨rfl, rfl⟩ := atTarget
            simp only [and_self, if_true]
            exact .inr (.inr ⟨absent, rfl, .inl
              ⟨fromDir, rfl, offset.symm, wordPresent, rfl⟩⟩)
          · simp only [atTarget, if_false]
            by_cases atSource : dir = fromDir ∧ index = nr
            · obtain ⟨rfl, rfl⟩ := atSource
              simp only [and_self, if_true]
              exact .inr (.inl rfl)
            · simp only [atSource, if_false]
              exact .inl rfl
        · intro frame _ inUse
          exact nextPhys frame
            (ne_table_of_used valid isUser sourceTable inUse)
            (ne_table_of_used valid targetDirs targetTable inUse)
        · intro frame
          refine le_trans ?_
            (le_of_eq (View.mapCount_congr nextEntries frame).symm)
          refine (View.mapCount_le_setEntry sourceSlot (.inr ?_) frame).trans
            (View.mapCount_le_setEntry targetSlot (.inl ?_) frame)
          · exact (Word.target_protect _).symm
          · have apartSlots : (toDir, nr) ≠ (fromDir, nr) := by
              simp [Ne.symm different]
            rw [View.setEntry_other apartSlots]
            show Word.target (state.pte toDir nr) = none
            simp [Word.target, absent]
        · intro dir index notSource notTarget
          refine (pte dir index).trans ?_
          unfold View.setEntry
          dsimp only
          rw [if_neg fun here => notTarget here.1,
            if_neg fun here => notSource here.1]
          rfl
        · intro index other
          refine (pte toDir index).trans ?_
          simp [View.setEntry, other, State.view]
      · rw [if_neg counted]
        have low : (state.pte fromDir nr).page < lowMem := by
          unfold lowMem
          rw [test] at counted
          omega
        exact ⟨copyLow valid targetSlot targetTable absent copyPresent
          (by simpa using low) (Word.writable_protect _)
          (.inl ⟨fromDir, rfl, offset.symm, wordPresent, rfl⟩),
          lowPde _, lowStore⟩
    · have low := valid.identity nr kernelPage
      have notCounted : ¬ 0x100000#32 <
          Word.protect (state.phys (state.pde 0).page nr) := by
        rw [test]
        unfold lowMem at low
        omega
      rw [if_neg notCounted]
      exact ⟨copyLow valid targetSlot targetTable absent copyPresent
        (by simpa using low) (Word.writable_protect _)
        (.inr ⟨by simpa using low, Word.writable_protect _⟩),
        lowPde _, lowStore⟩
  · rw [if_pos wordPresent]
    exact ⟨Forked.refl valid, rfl, fun _ _ => rfl⟩

/-- The inner loop copies the first `count` entries into an empty table. -/
theorem copyEntries_spec (valid : Valid layout state holds)
    {fromDir toDir count : Nat}
    (copyable : ∀ nr, nr < count → Copyable fromDir toDir nr)
    (targetDirs : toDir ∈ userDirs) (inRange : count ≤ 1024)
    (sourceTable : (state.pde fromDir).present = true)
    (targetTable : (state.pde toDir).present = true)
    (different : fromDir ≠ toDir)
    (empty : ∀ index, (state.pte toDir index).present = false) :
    Forked layout state holds (fun dir => dir = fromDir)
        (fun dir => dir = toDir)
        (copyEntries (state.pde fromDir).page (state.pde toDir).page count
          state) ∧
      (copyEntries (state.pde fromDir).page (state.pde toDir).page count
        state).pde = state.pde ∧
      ∀ index, count ≤ index →
        (copyEntries (state.pde fromDir).page (state.pde toDir).page count
          state).pte toDir index = state.pte toDir index := by
  induction count with
  | zero => exact ⟨Forked.refl valid, rfl, fun _ _ => rfl⟩
  | succ nr induction =>
      obtain ⟨forked, samePde, rest⟩ :=
        induction (fun index below => copyable index (by omega)) (by omega)
      have slot : (toDir, nr) ∈ userSlots :=
        mem_userSlots.mpr ⟨targetDirs, by omega⟩
      have step := copyEntry_spec forked.valid
        (copyable nr (Nat.lt_succ_self nr)) slot
        (by rw [samePde]; exact sourceTable)
        (by rw [samePde]; exact targetTable) different
        (by rw [rest nr (le_refl nr)]; exact empty nr)
      rw [samePde] at step
      obtain ⟨last, lastPde, lastRest⟩ := step
      unfold copyEntries
      refine ⟨forked.trans ?_ last, lastPde, ?_⟩
      · rintro dir rfl same
        exact different same
      · intro index above
        rw [lastRest index (by omega), rest index (by omega)]

/-- One round of the outer loop, once `get_free_page` has given a table. -/
theorem copyTable_spec (valid : Valid layout state holds)
    {fromDir toDir count table : Nat} {middle : State}
    (copyable : ∀ nr, nr < count → Copyable fromDir toDir nr)
    (targetDirs : toDir ∈ userDirs) (inRange : count ≤ 1024)
    (sourceTable : (state.pde fromDir).present = true)
    (noTable : (state.pde toDir).present = false)
    (found : getFreePage state = (some table, middle)) :
    Forked layout state holds (fun dir => dir = fromDir)
      (fun dir => dir = toDir)
      (copyEntries (state.pde fromDir).page table count
        (middle.setWord 0 toDir (Word.user table))) := by
  have taken := getFreePage_some valid found
  have different : fromDir ≠ toDir := by
    rintro rfl
    rw [sourceTable] at noTable
    cases noTable
  obtain ⟨enteredValid, _, enteredKeeps⟩ := installed targetDirs noTable taken
  have enteredPde := installed_pde taken targetDirs noTable
  have enteredPte := installed_pte taken targetDirs noTable
  have fromPde : (middle.setWord 0 toDir (Word.user table)).pde fromDir =
      state.pde fromDir := by
    rw [enteredPde, if_neg different]
  have toPde : (middle.setWord 0 toDir (Word.user table)).pde toDir =
      Word.user table := by
    rw [enteredPde, if_pos rfl]
  have opened : Forked layout state holds (fun dir => dir = fromDir)
      (fun dir => dir = toDir)
      (middle.setWord 0 toDir (Word.user table)) := by
    refine ⟨enteredValid, ?_, ?_, enteredKeeps, ?_, ?_⟩
    · intro dir other
      rw [enteredPde, if_neg other]
    · intro dir index
      rw [enteredPte]
      exact .inl rfl
    · intro frame
      exact le_of_eq (View.mapCount_congr enteredPte.symm frame)
    · intro dir index _ _
      rw [enteredPte]
  have copied := copyEntries_spec enteredValid copyable targetDirs inRange
    (by rw [fromPde]; exact sourceTable) (by rw [toPde]; simp) different
    (by
      intro index
      rw [enteredPte, State.pte_eq_zero noTable]
      simp)
  rw [fromPde, toPde, Word.page_user taken.managed.small] at copied
  refine opened.trans ?_ copied.1
  rintro dir rfl same
  exact different same

theorem copyTables_spec (valid : Valid layout state holds)
    {entries fromDir toDir size : Nat} (entriesLe : entries ≤ 1024)
    (copyable : ∀ round, round < size → ∀ nr, nr < entries →
      Copyable (fromDir + round) (toDir + round) nr)
    (low : 16 ≤ toDir) (high : toDir + size ≤ 1024)
    (disjoint : fromDir + size ≤ toDir ∨ toDir + size ≤ fromDir) :
    match copyTables entries fromDir toDir size state with
    | .ok (_, next) =>
        Forked layout state holds
          (fun dir => fromDir ≤ dir ∧ dir < fromDir + size)
          (fun dir => toDir ≤ dir ∧ dir < toDir + size) next
    | .error (.oom _) => False
    | .error (.panic message) =>
        message = "copy_page_tables: already exist" := by
  induction size generalizing fromDir toDir state with
  | zero => exact Forked.refl valid
  | succ size induction =>
      have apart : ∀ dir, fromDir ≤ dir ∧ dir < fromDir + (size + 1) →
          ¬ (toDir ≤ dir ∧ dir < toDir + (size + 1)) := by
        omega
      have later {middle : State}
          (forked : Forked layout state holds
            (fun dir => fromDir ≤ dir ∧ dir < fromDir + (size + 1))
            (fun dir => toDir ≤ dir ∧ dir < toDir + (size + 1)) middle) :
          match copyTables entries (fromDir + 1) (toDir + 1) size middle with
          | .ok (_, next) =>
              Forked layout state holds
                (fun dir => fromDir ≤ dir ∧ dir < fromDir + (size + 1))
                (fun dir => toDir ≤ dir ∧ dir < toDir + (size + 1)) next
          | .error (.oom _) => False
          | .error (.panic message) =>
              message = "copy_page_tables: already exist" := by
        have shifted : ∀ round, round < size → ∀ nr, nr < entries →
            Copyable (fromDir + 1 + round) (toDir + 1 + round) nr := by
          intro round inRounds nr inEntries
          have := copyable (round + 1) (by omega) nr inEntries
          rwa [show fromDir + 1 + round = fromDir + (round + 1) by omega,
            show toDir + 1 + round = toDir + (round + 1) by omega]
        have rest := induction forked.valid shifted (by omega) (by omega)
          (by omega)
        cases run : copyTables entries (fromDir + 1) (toDir + 1) size
          middle with
        | ok result =>
            rw [run] at rest
            refine forked.trans apart (rest.mono ?_ ?_) <;>
              · intro dir inside
                omega
        | error fault =>
            rw [run] at rest
            cases fault with
            | oom faulted => exact rest
            | panic message => exact rest
      unfold copyTables
      by_cases occupied : (state.pde toDir).present = true
      · rw [if_pos occupied]
      · rw [if_neg occupied]
        by_cases sourceTable : (state.pde fromDir).present = true
        · rw [if_neg (by simp [sourceTable])]
          cases found : getFreePage state with
          | mk result middle =>
              cases result with
              | none =>
                  have same := getFreePage_none found
                  subst same
                  exact Forked.refl valid
              | some table =>
                  have copied := copyTable_spec valid
                    (by
                      intro nr inEntries
                      exact copyable 0 (by omega) nr inEntries)
                    (mem_userDirs.mpr ⟨low, by omega⟩) entriesLe sourceTable
                    (by simpa using occupied) found
                  exact later (copied.mono (by rintro dir rfl; omega)
                    (by rintro dir rfl; omega))
        · rw [if_pos sourceTable]
          exact later (Forked.refl valid)

/-- How many entries of each table `copy_page_tables` copies. -/
theorem copyable_window {parent child round nr : Nat}
    (isParent : parent < 64) (inRounds : round < 16)
    (first : parent = 0 → round = 0)
    (inEntries : nr < if parent = 0 then 0xA0 else 1024) :
    Copyable (parent * 16 + round) (child * 16 + round) nr := by
  unfold Copyable
  rw [mem_userDirs]
  split at inEntries <;> rename_i isKernel
  · have := first isKernel
    omega
  · omega

theorem copyPageTables_window {parent child : Nat} (isParent : parent < 64)
    (isTask : child < 64) (size : Nat) (state : State) :
    copyPageTables (windowBase parent) (windowBase child) size state =
      copyTables (if parent = 0 then 0xA0 else 1024) (parent * 16)
        (child * 16) ((size + 0x3fffff) / 2 ^ 22) state := by
  unfold copyPageTables
  rw [windowBase_aligned, windowBase_aligned, if_neg (by simp),
    dirIndex_windowBase isParent, dirIndex_windowBase isTask]
  simp only [windowBase_eq_zero]

/-- `copy_page_tables` between the windows of two tasks, or from the first
640 kB of the kernel. -/
theorem copyPageTables_spec (valid : Valid layout state holds)
    {parent child size : Nat} (isTask : 1 ≤ child ∧ child < 64)
    (isParent : parent < 64) (different : parent ≠ child)
    (fits : size ≤ 0x4000000) (first : parent = 0 → size ≤ 0xA0 * 4096) :
    match copyPageTables (windowBase parent) (windowBase child) size
      state with
    | .ok (_, next) =>
        Forked layout state holds
          (fun dir => parent * 16 ≤ dir ∧ dir < parent * 16 + 16)
          (fun dir => child * 16 ≤ dir ∧ dir < child * 16 + 16) next
    | .error (.oom _) => False
    | .error (.panic message) =>
        message = "copy_page_tables: already exist" := by
  rw [copyPageTables_window isParent isTask.2]
  obtain ⟨rounds, roundsEq⟩ :
      ∃ rounds, (size + 0x3fffff) / 2 ^ 22 = rounds := ⟨_, rfl⟩
  rw [roundsEq]
  have few : rounds ≤ 16 := by omega
  have single : parent = 0 → rounds ≤ 1 := by
    intro isKernel
    have := first isKernel
    omega
  have spec : match copyTables (if parent = 0 then 0xA0 else 1024)
      (parent * 16) (child * 16) rounds state with
      | .ok (_, next) =>
          Forked layout state holds
            (fun dir => parent * 16 ≤ dir ∧ dir < parent * 16 + rounds)
            (fun dir => child * 16 ≤ dir ∧ dir < child * 16 + rounds) next
      | .error (.oom _) => False
      | .error (.panic message) =>
          message = "copy_page_tables: already exist" := by
    apply copyTables_spec valid
    · split <;> omega
    · intro round inRounds nr inEntries
      exact copyable_window isParent (by omega)
        (fun isKernel => by have := single isKernel; omega) inEntries
    · omega
    · omega
    · omega
  revert spec
  cases copyTables (if parent = 0 then 0xA0 else 1024)
    (parent * 16) (child * 16) rounds state with
  | ok result =>
      intro spec
      refine spec.mono ?_ ?_ <;>
        · intro dir inside
          omega
  | error fault =>
      intro spec
      cases fault with
      | oom faulted => exact spec
      | panic message => exact spec

end Linux011.Mm
