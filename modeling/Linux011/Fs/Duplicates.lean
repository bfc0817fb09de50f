import Linux011.Fs.FileDev

/-!
# Closing and duplicating descriptors

`sys_close`, `dupfd` and `sys_dup2` over the table of files and the inode
table.  `sys_dup2` closes `newfd` before it looks at `oldfd`; nobody else
changes the table of files while `iput` sleeps.
-/

namespace Linux011.Fs

open Coop Prog

namespace FileTable

def setFilp (files : FileTable) (fd : Fin 20) (slot : Option (Fin 64)) :
    FileTable :=
  { files with
    filp := fun other => if other = fd then slot else files.filp other }

/-- `current->close_on_exec &= ~(1<<fd)`. -/
def keepOnExec (files : FileTable) (fd : Fin 20) : FileTable :=
  { files with closeOnExec := files.closeOnExec &&& ~~~(1#32 <<< fd.val) }

def setCount (files : FileTable) (slot : Fin 64) (count : Nat) : FileTable :=
  files.setFile slot { files.file slot with fCount := count }

/-- `while (arg < NR_OPEN)`, for at most so many descriptors. -/
def firstFree (files : FileTable) : Nat → Nat → Option (Fin 20)
  | 0, _ => none
  | rest + 1, arg =>
      match Descriptors.slotOf arg with
      | none => none
      | some fd =>
          if (files.filp fd).isSome then files.firstFree rest (arg + 1)
          else some fd

/-- `dupfd`. -/
def dupfd (files : FileTable) (fd arg : Nat) : Int × FileTable :=
  match files.slotAt fd with
  | none => (-9, files)
  | some slot =>
      if 20 ≤ arg then (-22, files)
      else
        match files.firstFree 20 arg with
        | none => (-24, files)
        | some free =>
            let files := (files.keepOnExec free).setFilp free (some slot)
            (free.val, files.setCount slot ((files.file slot).fCount + 1))

end FileTable

/-- `sys_close`. -/
def sysClose (fuel : Nat) (files : FileTable) (fd : Nat) :
    Sys (Int × FileTable) :=
  match Descriptors.slotOf fd with
  | none => return (-22, files)
  | some fd =>
      let files := files.keepOnExec fd
      match files.filp fd with
      | none => return (-22, files)
      | some slot =>
          let files := files.setFilp fd none
          let file := files.file slot
          if file.fCount = 0 then Prog.panic "Close: file count is 0"
          else
            let files := files.setCount slot (file.fCount - 1)
            if file.fCount - 1 ≠ 0 then return (0, files)
            else do
              iput fuel (some file.fInode)
              return (0, files)

/-- `sys_dup2`. -/
def sysDup2 (fuel : Nat) (files : FileTable) (oldfd newfd : Nat) :
    Sys (Int × FileTable) := do
  let (_, files) ← sysClose fuel files newfd
  return files.dupfd oldfd newfd

/-- `sys_dup`. -/
def sysDup (files : FileTable) (fildes : Nat) : Int × FileTable :=
  files.dupfd fildes 0

section Tables

variable {files : FileTable} {fd : Nat} {place : Fin 20} {slot : Fin 64}

theorem slotOf_some (isPlace : Descriptors.slotOf fd = some place) :
    fd = place.val := by
  unfold Descriptors.slotOf at isPlace
  split at isPlace
  · cases isPlace
    rfl
  · cases isPlace

theorem slotOf_val (place : Fin 20) :
    Descriptors.slotOf place.val = some place := dif_pos place.isLt

theorem slotOf_none : Descriptors.slotOf fd = none ↔ 20 ≤ fd := by
  unfold Descriptors.slotOf
  split
  · simpa
  · simpa using Nat.le_of_not_lt ‹_›

theorem slotAt_place (isPlace : Descriptors.slotOf fd = some place) :
    files.slotAt fd = files.filp place := by
  unfold FileTable.slotAt
  rw [isPlace]
  rfl

/-- The mask of `close_on_exec` changes unless the bit is clear. -/
theorem keepOnExec_eq_iff :
    files.keepOnExec place = files ↔
      files.closeOnExec.getLsbD place.val = false := by
  have small : place.val < 32 := Nat.lt_trans place.isLt (by decide)
  have bit (index : Nat) (below : index < 32) :
      (files.closeOnExec &&& ~~~(1#32 <<< place.val)).getLsbD index =
        (files.closeOnExec.getLsbD index && decide (index ≠ place.val)) := by
    rw [BitVec.getLsbD_and, BitVec.getLsbD_not, decide_eq_true below,
      BitVec.getLsbD_shiftLeft, decide_eq_true below, Bool.true_and,
      Bool.true_and, BitVec.getLsbD_one]
    congr 1
    by_cases isPlace : index = place.val
    · simp [isPlace]
    · have apart : index < place.val ∨ index - place.val ≠ 0 := by omega
      obtain before | after := apart
      · simp [before, isPlace]
      · simp [after, isPlace]
  constructor
  · intro same
    have sameBit := bit place.val small
    have isMask : files.closeOnExec &&& ~~~(1#32 <<< place.val) =
        files.closeOnExec := congrArg FileTable.closeOnExec same
    rw [isMask] at sameBit
    simpa using sameBit
  · intro isClear
    have isMask : files.closeOnExec &&& ~~~(1#32 <<< place.val) =
        files.closeOnExec := by
      apply BitVec.eq_of_getLsbD_eq
      intro index below
      rw [bit index below]
      by_cases isPlace : index = place.val
      · rw [isPlace, isClear, Bool.false_and]
      · rw [decide_eq_true isPlace, Bool.and_true]
    unfold FileTable.keepOnExec
    rw [isMask]

/-- A free descriptor is the first free one from itself on. -/
theorem firstFree_self (isFree : files.filp place = none) (rest : Nat) :
    files.firstFree (rest + 1) place.val = some place := by
  unfold FileTable.firstFree
  rw [slotOf_val]
  dsimp only
  rw [isFree]
  rfl

end Tables

section Calls

variable {env : Kernel → Kernel → Prop} {fuel : Nat} {files after : FileTable}
  {kernel next : Kernel} {result : Int} {oldfd newfd fd : Nat}

/-- How the tables are when `sys_close` returns. -/
theorem sysClose_returns
    (returns : (sysClose fuel files fd kernel).MayReturn True env
      (result, after) next) :
    Descriptors.slotOf fd = none ∧ after = files ∧ next = kernel ∨
      ∃ place, Descriptors.slotOf fd = some place ∧
        (files.filp place = none ∧ after = files.keepOnExec place ∧
          next = kernel ∨
        ∃ slot, files.filp place = some slot ∧
          (files.file slot).fCount ≠ 0 ∧
          after = ((files.keepOnExec place).setFilp place none).setCount slot
            ((files.file slot).fCount - 1)) := by
  unfold sysClose at returns
  cases isPlace : Descriptors.slotOf fd with
  | none =>
      rw [isPlace] at returns
      obtain ⟨same, isNext⟩ := returns
      rw [Prod.mk.injEq] at same
      exact .inl ⟨rfl, same.2.symm, isNext.symm⟩
  | some place =>
      rw [isPlace] at returns
      refine .inr ⟨place, rfl, ?_⟩
      cases isSlot : files.filp place with
      | none =>
          have isFree : (files.keepOnExec place).filp place = none := isSlot
          dsimp only at returns
          rw [isFree] at returns
          obtain ⟨same, isNext⟩ := returns
          rw [Prod.mk.injEq] at same
          exact .inl ⟨rfl, same.2.symm, isNext.symm⟩
      | some slot =>
          have isOpen : (files.keepOnExec place).filp place = some slot := isSlot
          dsimp only at returns
          rw [isOpen] at returns
          dsimp only at returns
          refine .inr ⟨slot, rfl, ?_⟩
          split at returns <;> rename_i isZero
          · exact returns.elim
          · refine ⟨isZero, ?_⟩
            split at returns
            · obtain ⟨same, _⟩ := returns
              rw [Prod.mk.injEq] at same
              exact same.2.symm
            · obtain ⟨_, _, _, same, _⟩ := Run.mayReturn_bind returns
              rw [Prod.mk.injEq] at same
              exact same.2.symm

/-- `sys_close` and then `dupfd`. -/
theorem sysDup2_returns
    (returns : (sysDup2 fuel files oldfd newfd kernel).MayReturn True env
      (result, after) next) :
    ∃ value closed, (sysClose fuel files newfd kernel).MayReturn True env
      (value, closed) next ∧ closed.dupfd oldfd newfd = (result, after) := by
  obtain ⟨⟨value, closed⟩, middle, first, second, isNext⟩ :=
    Run.mayReturn_bind returns
  subst isNext
  exact ⟨value, closed, first, second⟩

/-- A failure changes nothing, and a success gives `newfd` the file of
`oldfd`. -/
structure CleanDup2 (files : FileTable) (kernel : Kernel) (oldfd newfd : Nat)
    (result : Int) (after : FileTable) (next : Kernel) : Prop where
  failed : result < 0 →
    after.filp = files.filp ∧ after.closeOnExec = files.closeOnExec ∧
      (∀ slot, (after.file slot).fCount = (files.file slot).fCount) ∧
      ∀ index, (next.inodes index).count = (kernel.inodes index).count
  done : 0 ≤ result → result = newfd ∧
    (files.slotAt oldfd).isSome ∧ after.slotAt newfd = files.slotAt oldfd ∧
    (∀ slot, files.slotAt newfd = some slot → files.slotAt oldfd ≠ some slot →
      (after.file slot).fCount + 1 = (files.file slot).fCount) ∧
    ∀ place : Fin 20, place.val ≠ newfd → after.filp place = files.filp place

/-- Where `sys_close(newfd)` does no harm: it is out of range, `oldfd` can be
duplicated to it, or it is not in use and not to be closed by `do_execve`. -/
def Harmless (files : FileTable) (oldfd newfd : Nat) : Prop :=
  20 ≤ newfd ∨ (files.slotAt oldfd).isSome ∧ oldfd ≠ newfd ∨
    files.slotAt newfd = none ∧ files.closeOnExec.getLsbD newfd = false

instance (files : FileTable) (oldfd newfd : Nat) :
    Decidable (Harmless files oldfd newfd) :=
  inferInstanceAs (Decidable (_ ∨ _))

/-- What `dupfd` gives a free `newfd`. -/
theorem dupfd_free {place : Fin 20} {slot : Fin 64}
    (isOld : files.slotAt oldfd = some slot)
    (isFree : files.filp place = none) :
    files.dupfd oldfd place.val =
      ((place.val : Int),
        ((files.keepOnExec place).setFilp place (some slot)).setCount slot
          ((files.file slot).fCount + 1)) := by
  unfold FileTable.dupfd
  rw [isOld]
  dsimp only
  rw [if_neg (Nat.not_le.mpr place.isLt), firstFree_self isFree]
  rfl

theorem dupfd_bad {arg : Nat} (isBad : files.slotAt oldfd = none) :
    files.dupfd oldfd arg = (-9, files) := by
  unfold FileTable.dupfd
  rw [isBad]

theorem dupfd_far {arg : Nat} (isFar : 20 ≤ arg) :
    ∃ errno, errno < 0 ∧ files.dupfd oldfd arg = (errno, files) := by
  unfold FileTable.dupfd
  split
  · exact ⟨-9, by decide, rfl⟩
  · rw [if_pos isFar]
    exact ⟨-22, by decide, rfl⟩

theorem setFilp_same (files : FileTable) (fd : Fin 20)
    (slot : Option (Fin 64)) : (files.setFilp fd slot).filp fd = slot :=
  if_pos rfl

theorem setFilp_other (files : FileTable) {fd other : Fin 20}
    (slot : Option (Fin 64)) (different : other ≠ fd) :
    (files.setFilp fd slot).filp other = files.filp other :=
  if_neg different

theorem setCount_count (files : FileTable) (slot other : Fin 64)
    (count : Nat) : ((files.setCount slot count).file other).fCount =
      if other = slot then count else (files.file other).fCount := by
  unfold FileTable.setCount FileTable.setFile
  dsimp only
  split <;> rfl

/-- Another descriptor is as it was after `sys_close`. -/
theorem slotAt_other {closed : FileTable} {place : Fin 20}
    (others : ∀ other, other ≠ place → closed.filp other = files.filp other)
    (different : fd ≠ place.val) : closed.slotAt fd = files.slotAt fd := by
  unfold FileTable.slotAt
  cases isPlace : Descriptors.slotOf fd with
  | none => rfl
  | some other =>
      apply others
      rintro rfl
      exact different (slotOf_some isPlace)

/-- `sys_dup2` of an open descriptor to another one. -/
theorem cleanDup2_open {closed : FileTable} {place : Fin 20} {slot : Fin 64}
    (isOld : files.slotAt oldfd = some slot) (different : oldfd ≠ place.val)
    (isFree : closed.filp place = none)
    (others : ∀ other, other ≠ place → closed.filp other = files.filp other)
    (counts : ∀ other, files.slotAt place.val = some other →
      files.slotAt oldfd ≠ some other →
        (closed.file other).fCount + 1 = (files.file other).fCount) :
    CleanDup2 files kernel oldfd place.val
      (closed.dupfd oldfd place.val).1 (closed.dupfd oldfd place.val).2 next := by
  have stillOld : closed.slotAt oldfd = some slot :=
    (slotAt_other others different).trans isOld
  rw [dupfd_free stillOld isFree]
  constructor
  · intro isNegative
    dsimp only at isNegative
    omega
  · intro _
    refine ⟨rfl, by rw [isOld]; rfl, ?_, ?_, ?_⟩
    · rw [slotAt_place (slotOf_val place), isOld]
      exact setFilp_same _ place (some slot)
    · intro other wasNew notOld
      have notSlot : other ≠ slot := by
        rintro rfl
        exact notOld isOld
      rw [setCount_count, if_neg notSlot]
      exact counts other wasNew notOld
    · intro other notNew
      have isOther : other ≠ place := fun same => notNew (congrArg Fin.val same)
      exact (setFilp_other _ (some slot) isOther).trans (others other isOther)

/-- `sys_dup2` is clean exactly where closing `newfd` does no harm. -/
theorem sysDup2_clean_iff
    (returns : (sysDup2 fuel files oldfd newfd kernel).MayReturn True env
      (result, after) next) :
    CleanDup2 files kernel oldfd newfd result after next ↔
      Harmless files oldfd newfd := by
  obtain ⟨value, closed, closes, dups⟩ := sysDup2_returns returns
  have isResult : (closed.dupfd oldfd newfd).1 = result := congrArg Prod.fst dups
  have isAfter : (closed.dupfd oldfd newfd).2 = after := congrArg Prod.snd dups
  obtain ⟨outside, rfl, rfl⟩ | ⟨place, isPlace, ends⟩ := sysClose_returns closes
  · -- `newfd` is out of range, and nothing happens
    have isFar := slotOf_none.mp outside
    obtain ⟨errno, isNegative, fails⟩ := @dupfd_far closed oldfd newfd isFar
    rw [fails] at isResult isAfter
    dsimp only at isResult isAfter
    subst isResult isAfter
    refine iff_of_true ⟨fun _ => ⟨rfl, rfl, fun _ => rfl, fun _ => rfl⟩, ?_⟩
      (.inl isFar)
    exact fun notNegative => absurd notNegative (Int.not_le.mpr isNegative)
  · obtain rfl := slotOf_some isPlace
    have inRange : ¬ 20 ≤ place.val := Nat.not_le.mpr place.isLt
    have isNew := @slotAt_place files place.val place isPlace
    -- how the closed table looks in each case
    have others (other : Fin 20) (notPlace : other ≠ place) :
        closed.filp other = files.filp other := by
      obtain ⟨_, rfl, _⟩ | ⟨slot, _, _, rfl⟩ := ends
      · rfl
      · exact setFilp_other _ none notPlace
    have isFree : closed.filp place = none := by
      obtain ⟨wasFree, rfl, _⟩ | ⟨slot, _, _, rfl⟩ := ends
      · exact wasFree
      · exact setFilp_same _ place none
    by_cases opens : (files.slotAt oldfd).isSome = true ∧ oldfd ≠ place.val
    · obtain ⟨isSome, different⟩ := opens
      refine iff_of_true ?_ (.inr (.inl ⟨isSome, different⟩))
      obtain ⟨slot, isOld⟩ := Option.isSome_iff_exists.mp isSome
      rw [← isResult, ← isAfter]
      apply cleanDup2_open isOld different isFree others
      intro other wasNew _
      rw [isNew] at wasNew
      obtain ⟨wasFree, _⟩ | ⟨slot, isSlot, positive, rfl⟩ := ends
      · rw [wasFree] at wasNew
        cases wasNew
      · obtain rfl := Option.some.inj (isSlot.symm.trans wasNew)
        rw [setCount_count, if_pos rfl]
        omega
    · -- `dupfd` finds `oldfd` closed
      have isBad : closed.slotAt oldfd = none := by
        by_cases same : oldfd = place.val
        · rw [same, slotAt_place isPlace]
          exact isFree
        · rw [slotAt_other others same]
          cases isOld : files.slotAt oldfd with
          | none => rfl
          | some slot =>
              rw [isOld] at opens
              exact absurd ⟨rfl, same⟩ opens
      rw [dupfd_bad isBad] at isResult isAfter
      dsimp only at isResult isAfter
      subst isResult isAfter
      constructor
      · intro clean
        obtain ⟨filp, mask, _⟩ := clean.failed (by decide)
        refine .inr (.inr ⟨?_, ?_⟩)
        · rw [isNew, ← filp]
          exact isFree
        · obtain ⟨_, rfl, _⟩ | ⟨slot, isSlot, _, _⟩ := ends
          · apply keepOnExec_eq_iff.mp
            exact congrArg (fun mask => { files with closeOnExec := mask }) mask
          · rw [← filp, isFree] at isSlot
            cases isSlot
      · rintro (far | good | ⟨isUnused, isClear⟩)
        · exact absurd far inRange
        · exact absurd good opens
        · rw [isNew] at isUnused
          obtain ⟨_, rfl, rfl⟩ | ⟨slot, isSlot, _⟩ := ends
          · rw [keepOnExec_eq_iff.mpr isClear]
            refine ⟨fun _ => ⟨rfl, rfl, fun _ => rfl, fun _ => rfl⟩, ?_⟩
            exact fun notNegative => absurd notNegative (by decide)
          · rw [isUnused] at isSlot
            cases isSlot

end Calls

section Example

/-- Descriptors 0 and 1 are two files, of which the second is open once. -/
def twoOpen : FileTable where
  filp := fun fd =>
    if fd = 0 then some 0
    else if fd = 1 then some 1
    else none
  file := fun slot => ⟨1, 0, if slot = 0 then 2 else 1, slot.val, 0⟩
  closeOnExec := 0
  leader := false
  tty := -1

/-- A kernel whose inodes all have one reference. -/
def heldInodes : Kernel :=
  { idleKernel with
    inodes := fun _ =>
      { Inode.zero with
        dev := 0x301
        nlinks := 1
        count := 1 } }

theorem sysDup2_clean_iff_twoOpen :
    ∃ after next, (sysDup2 1 twoOpen 0 1 heldInodes).MayReturn True Eq
      (1, after) next ∧ CleanDup2 twoOpen heldInodes 0 1 1 after next ∧
        (next.inodes 1).count = 0 := by
  have returns : (sysDup2 1 twoOpen 0 1 heldInodes).MayReturn True Eq
      (1, _) _ := ⟨rfl, rfl⟩
  exact ⟨_, _, returns, (sysDup2_clean_iff returns).mpr (by decide), rfl⟩

/-- The call fails, and descriptor 1 is closed all the same. -/
theorem sysDup2_closes :
    ∃ after next, (sysDup2 1 twoOpen 5 1 heldInodes).MayReturn True Eq
      (-9, after) next ∧ twoOpen.filp 1 = some 1 ∧ after.filp 1 = none ∧
        (after.file 1).fCount ≠ (twoOpen.file 1).fCount ∧
        (next.inodes 1).count ≠ (heldInodes.inodes 1).count ∧
        ¬ CleanDup2 twoOpen heldInodes 5 1 (-9) after next := by
  have returns : (sysDup2 1 twoOpen 5 1 heldInodes).MayReturn True Eq
      (-9, _) _ := ⟨rfl, rfl⟩
  refine ⟨_, _, returns, rfl, rfl, by decide, by decide, ?_⟩
  intro clean
  obtain ⟨filp, _⟩ := clean.failed (by decide)
  cases congrFun filp 1

end Example

end Linux011.Fs
