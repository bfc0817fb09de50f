import Linux011.Fs.InodeTable
import Linux011.Fs.CacheFrame

/-!
# One slot for each inode

However the functions of the inode table are interleaved, two slots hold the
same inode only after `new_inode` has taken a number that was still in the
table.  The cache leaves the names of the slots alone; `iget` names a slot
after a pass over the table in which nobody else runs; everything else only
clears slots.
-/

namespace Linux011.Fs

open Coop Prog

/-- No two slots hold the same inode. -/
def Kernel.Distinct (kernel : Kernel) : Prop :=
  ∀ first second, first < nrInode → second < nrInode →
    (kernel.inodes first).dev ≠ 0 →
    (kernel.inodes first).dev = (kernel.inodes second).dev →
    (kernel.inodes first).num = (kernel.inodes second).num → first = second

/-- What is asked of each stretch. -/
abbrev KeepsDistinct (first second : Kernel) : Prop :=
  first.Distinct → second.Distinct

/-! ## Changes of the table -/

theorem Aside.distinct {kernel next : Kernel} (aside : Aside kernel next) :
    KeepsDistinct kernel next := by
  intro distinct first second firstIn secondIn hasDev sameDev sameNum
  obtain ⟨_, _, firstSame⟩ := aside.inodes first
  obtain ⟨_, _, secondSame⟩ := aside.inodes second
  rw [firstSame] at hasDev sameDev sameNum
  rw [secondSame] at sameDev sameNum
  exact distinct first second firstIn secondIn hasDev sameDev sameNum

/-- A slot that is cleared, or keeps its name. -/
theorem setInode_distinct {kernel : Kernel} {slot : Nat} {inode : Inode}
    (keeps : inode.dev = 0 ∨
      inode.dev = (kernel.inodes slot).dev ∧
        inode.num = (kernel.inodes slot).num) :
    KeepsDistinct kernel (kernel.setInode slot inode) := by
  intro distinct first second firstIn secondIn hasDev sameDev sameNum
  have named (other : Nat)
      (otherDev : ((kernel.setInode slot inode).inodes other).dev ≠ 0) :
      ((kernel.setInode slot inode).inodes other).dev =
          (kernel.inodes other).dev ∧
        ((kernel.setInode slot inode).inodes other).num =
          (kernel.inodes other).num := by
    by_cases same : other = slot
    · subst same
      simp only [Kernel.setInode, if_true] at otherDev ⊢
      exact keeps.resolve_left otherDev
    · simp [Kernel.setInode, same]
  obtain ⟨firstDev, firstNum⟩ := named first hasDev
  obtain ⟨secondDev, secondNum⟩ := named second (sameDev ▸ hasDev)
  rw [firstDev] at hasDev
  rw [firstDev, secondDev] at sameDev
  rw [firstNum, secondNum] at sameNum
  exact distinct first second firstIn secondIn hasDev sameDev sameNum

/-- A slot that gets a name no other slot has. -/
theorem setInode_named {kernel : Kernel} {slot : Nat} {inode : Inode}
    (fresh : ∀ other, other < nrInode →
      ¬((kernel.inodes other).dev = inode.dev ∧
        (kernel.inodes other).num = inode.num)) :
    KeepsDistinct kernel (kernel.setInode slot inode) := by
  intro distinct first second firstIn secondIn hasDev sameDev sameNum
  by_cases isFirst : first = slot <;> by_cases isSecond : second = slot
  · rw [isFirst, isSecond]
  · simp only [Kernel.setInode, isFirst, if_true, if_neg isSecond]
      at sameDev sameNum
    exact (fresh second secondIn ⟨sameDev.symm, sameNum.symm⟩).elim
  · simp only [Kernel.setInode, isSecond, if_true, if_neg isFirst]
      at sameDev sameNum
    exact (fresh first firstIn ⟨sameDev, sameNum⟩).elim
  · simp only [Kernel.setInode, if_neg isFirst, if_neg isSecond]
      at hasDev sameDev sameNum
    exact distinct first second firstIn secondIn hasDev sameDev sameNum

theorem findInode_none {kernel : Kernel} {dev nr count index : Nat}
    (missing : findInode kernel dev nr count index = none) (slot : Nat)
    (from_ : index ≤ slot) (inRange : slot < index + count) :
    ¬((kernel.inodes slot).dev = dev ∧ (kernel.inodes slot).num = nr) := by
  induction count generalizing index with
  | zero => omega
  | succ count induction =>
      unfold findInode at missing
      split at missing
      · cases missing
      · rename_i different
        rcases Nat.eq_or_lt_of_le from_ with here | later
        · exact here ▸ different
        · exact induction missing later (by omega)

/-! ## The functions of the table -/

variable {past : Prop} {α β : Type}

/-- A program of the cache, with or without its marks. -/
theorem aside_distinct {program : Sys α} (within : program.Within Aside) :
    program.Within KeepsDistinct :=
  within.widen fun _ _ => Aside.distinct

theorem unmarked_distinct {program : Sys α} (within : program.Within Aside) :
    program.unmarked.Within KeepsDistinct :=
  (aside_distinct within).unmarked

/-- A change of one inode under its name. -/
theorem onInode_distinct (index : Nat) {change : Inode → Inode}
    (keeps : ∀ inode, (change inode).dev = 0 ∨
      (change inode).dev = inode.dev ∧ (change inode).num = inode.num) :
    (onInode index change).Within KeepsDistinct :=
  within_modify fun _ => setInode_distinct (keeps _)

/-- A change of one inode to a name that no slot has. -/
theorem onInode_named {index : Nat} {change : Inode → Inode}
    {pre : Kernel → Prop}
    (fresh : ∀ kernel, pre kernel → ∀ other, other < nrInode →
      ¬((kernel.inodes other).dev = (change (kernel.inodes index)).dev ∧
        (kernel.inodes other).num = (change (kernel.inodes index)).num)) :
    (onInode index change).Keeps past KeepsDistinct pre fun _ _ => True :=
  keeps_modify fun kernel isPre =>
    ⟨setInode_named (fresh kernel isPre), trivial⟩

theorem storeMap_distinct (bh : Nat) (change : Block → Block) :
    (storeMap bh change).Within KeepsDistinct :=
  aside_distinct (onBuffer_within _ _)

theorem readInode_distinct (fuel index : Nat) :
    (readInode fuel index).Within KeepsDistinct := by
  apply within_bind (aside_distinct (lockInode_within index))
  intro _
  apply within_get
  intro kernel
  apply within_bind (aside_distinct (getSuper_within _ _))
  rintro (_ | sb)
  · exact keeps_panic
  · apply within_get
    intro kernel
    apply within_bind (unmarked_distinct (bread_within _ _ _))
    rintro (_ | bh)
    · exact keeps_panic
    · apply within_get
      intro kernel
      have loads : (onInode index fun inode =>
          inode.load (kernel.buffers bh).data).Within KeepsDistinct :=
        onInode_distinct index fun _ => .inr ⟨rfl, rfl⟩
      apply within_bind loads
      intro _
      apply within_bind (aside_distinct (brelse_within _))
      intro _
      exact aside_distinct (unlockInode_within index)

theorem releaseBit_distinct (map : Option Nat) (bit : Nat) {onClear : Sys Unit}
    (clear : onClear.Within KeepsDistinct) :
    (releaseBit map bit onClear).Within KeepsDistinct := by
  cases map with
  | none => exact keeps_panic
  | some bh =>
      apply within_get
      intro kernel
      refine within_bind ?_ fun _ => storeMap_distinct bh _
      split
      · exact clear
      · exact within_pure ()

theorem freeBlock_distinct (fuel dev block : Nat) :
    (freeBlock fuel dev block).Within KeepsDistinct := by
  apply within_bind (aside_distinct (getSuper_within _ _))
  rintro (_ | sb)
  · exact keeps_panic
  · apply within_get
    intro kernel
    split
    · exact keeps_panic
    · have release (sb : Nat) : (do
            let kernel ← Prog.get
            let super := kernel.supers sb
            let nr := block + 1 - super.firstdatazone
            releaseBit (super.zmap (nr / 8192)) (nr % 8192)
              (Prog.panic "free_block: bit already cleared")
            : Sys Unit).Within KeepsDistinct :=
        within_get fun _ => releaseBit_distinct _ _ keeps_panic
      apply within_bind (unmarked_distinct (getHashTable_within _ _ _))
      rintro (_ | bh)
      · exact release sb
      · apply within_get
        intro kernel
        split
        · exact aside_distinct within_cross
        · apply within_bind (aside_distinct (onBuffer_within _ _))
          intro _
          apply within_bind (aside_distinct (brelse_within _))
          intro _
          exact release sb

theorem freeInode_distinct (fuel index : Nat) :
    (freeInode fuel index).Within KeepsDistinct := by
  have clear : (onInode index fun _ => Inode.zero).Within KeepsDistinct :=
    onInode_distinct index fun _ => .inl rfl
  apply within_get
  intro kernel
  dsimp only
  split
  · exact clear
  split
  · exact keeps_panic
  split
  · exact keeps_panic
  apply within_bind (aside_distinct (getSuper_within _ _))
  rintro (_ | sb)
  · exact keeps_panic
  apply within_get
  intro kernel
  split
  · exact keeps_panic
  split
  · exact keeps_panic
  · apply within_bind (releaseBit_distinct _ _ (within_pure ()))
    exact fun _ => clear

theorem freeTree_distinct {free : Nat → Sys Unit}
    (frees : ∀ zone, (free zone).Within KeepsDistinct) (fuel dev block : Nat) :
    (freeTree free fuel dev block).Within KeepsDistinct := by
  unfold freeTree
  split
  · exact within_pure ()
  · refine within_bind ?_ fun _ => freeBlock_distinct _ _ _
    apply within_bind (unmarked_distinct (bread_within _ _ _))
    rintro (_ | bh)
    · exact within_pure ()
    · refine within_bind (within_upTo fun entry => ?_) fun _ =>
        aside_distinct (brelse_within _)
      apply within_get
      intro kernel
      dsimp only
      split
      · exact frees _
      · exact within_pure ()

theorem truncate_distinct (fuel index : Nat) :
    (truncate fuel index).Within KeepsDistinct := by
  apply within_get
  intro kernel
  split
  · exact within_pure ()
  · have zones : (Prog.upTo (fun entry => do
          let kernel ← Prog.get
          let inode := kernel.inodes index
          if inode.zone entry ≠ 0 then do
            freeBlock fuel inode.dev (inode.zone entry)
            onInode index fun inode => inode.setZone entry 0
          else pure ()) 7).Within KeepsDistinct := by
      apply within_upTo
      intro entry
      apply within_get
      intro kernel
      dsimp only
      split
      · apply within_bind (freeBlock_distinct _ _ _)
        intro _
        exact onInode_distinct index fun _ => .inr ⟨rfl, rfl⟩
      · exact within_pure ()
    apply within_bind zones
    intro _
    apply within_get
    intro kernel
    apply within_bind (freeTree_distinct (freeBlock_distinct _ _) _ _ _)
    intro _
    apply within_get
    intro kernel
    apply within_bind (freeTree_distinct (fun zone =>
      freeTree_distinct (freeBlock_distinct _ _) _ _ zone) _ _ _)
    intro _
    apply within_get
    intro kernel
    exact onInode_distinct index fun _ => .inr ⟨rfl, rfl⟩

theorem Inode.dropPipe_name (inode : Inode) :
    inode.dropPipe.dev = inode.dev ∧ inode.dropPipe.num = inode.num := by
  unfold Inode.dropPipe
  split <;> exact ⟨rfl, rfl⟩

theorem dropCount_distinct (index : Nat) :
    (onInode index Inode.dropCount).Within KeepsDistinct :=
  onInode_distinct index fun inode =>
    .inr ⟨inode.setCount_dev _, inode.setCount_num _⟩

theorem waitOnInode_distinct (index : Nat) :
    (waitOnInode index).Within KeepsDistinct :=
  within_waitUntil _

theorem iputRepeat_distinct (fuel index rounds : Nat) :
    (iputRepeat fuel index rounds).Within KeepsDistinct := by
  induction rounds with
  | zero => exact keeps_spent
  | succ rounds induction =>
      apply within_get
      intro kernel
      dsimp only
      split
      · exact dropCount_distinct index
      split
      · apply within_bind (truncate_distinct fuel index)
        exact fun _ => freeInode_distinct fuel index
      split
      · apply within_bind (unmarked_distinct (writeInode_within fuel index))
        intro _
        apply within_bind (waitOnInode_distinct index)
        exact fun _ => induction
      · exact dropCount_distinct index

theorem iput_distinct (fuel : Nat) (inode : Option Nat) :
    (iput fuel inode).Within KeepsDistinct := by
  cases inode with
  | none => exact within_pure ()
  | some index =>
      apply within_bind (waitOnInode_distinct index)
      intro _
      apply within_get
      intro kernel
      dsimp only
      split
      · exact keeps_panic
      split
      · exact onInode_distinct index fun inode => .inr inode.dropPipe_name
      split
      · exact dropCount_distinct index
      split
      · apply within_bind (unmarked_distinct (syncDev_within _ _))
        intro _
        apply within_bind (waitOnInode_distinct index)
        exact fun _ => iputRepeat_distinct _ _ _
      · exact iputRepeat_distinct _ _ _

theorem cleanInode_distinct (fuel index rounds : Nat) :
    (cleanInode fuel index rounds).Within KeepsDistinct := by
  induction rounds with
  | zero => exact keeps_spent
  | succ rounds induction =>
      apply within_get
      intro kernel
      split
      · exact within_pure ()
      · apply within_bind (unmarked_distinct (writeInode_within fuel index))
        intro _
        apply within_bind (waitOnInode_distinct index)
        exact fun _ => induction

theorem getEmptyInode_distinct (fuel rounds : Nat) :
    (getEmptyInode fuel rounds).Within KeepsDistinct := by
  induction rounds with
  | zero => exact keeps_spent
  | succ rounds induction =>
      apply within_get
      intro kernel
      dsimp only
      apply within_bind (within_modify fun _ distinct => distinct)
      intro _
      split
      · exact keeps_panic
      · rename_i index _
        apply within_bind (waitOnInode_distinct index)
        intro _
        apply within_bind (cleanInode_distinct fuel index fuel)
        intro _
        apply within_get
        intro kernel
        split
        · exact induction
        · apply within_bind (onInode_distinct index fun _ => .inl rfl)
          exact fun _ => within_pure index

/-- `iget` gives its slot a name that it has just not found in the table. -/
theorem igetWith_distinct (fuel empty : Nat) {rounds dev nr : Nat}
    (isNumber : nr < 65536) :
    (igetWith fuel empty rounds dev nr).Within KeepsDistinct := by
  induction rounds generalizing dev nr with
  | zero => exact keeps_spent
  | succ rounds induction =>
      apply keeps_get
      intro kernel _
      cases found : findInode kernel dev nr nrInode 0 with
      | none =>
          refine keeps_bind (onInode_named ?_) fun _ => ?_
          · rintro state rfl other inRange
            rw [Nat.mod_eq_of_lt isNumber]
            exact findInode_none found other (Nat.zero_le other) (by omega)
          · apply within_bind (readInode_distinct fuel empty)
            exact fun _ => within_pure empty
      | some index =>
          refine Prog.Within.shorten ?_
          apply within_bind (waitOnInode_distinct index)
          intro _
          apply within_get
          intro kernel
          split
          · exact induction isNumber
          · apply within_bind (onInode_distinct index fun inode =>
              .inr ⟨inode.setCount_dev _, inode.setCount_num _⟩)
            intro _
            split
            · split
              · exact within_bind (iput_distinct fuel _) fun _ =>
                  within_pure index
              · apply within_bind (iput_distinct fuel _)
                intro _
                exact within_get fun _ => induction (by decide)
            · exact within_bind (iput_distinct fuel _) fun _ =>
                within_pure index

theorem iget_distinct (fuel dev : Nat) {nr : Nat} (isNumber : nr < 65536) :
    (iget fuel dev nr).Within KeepsDistinct := by
  unfold iget
  split
  · exact keeps_panic
  · apply within_bind (getEmptyInode_distinct fuel fuel)
    exact fun empty => igetWith_distinct fuel empty isNumber

theorem findMap_some {kernel : Kernel} {blocks : Nat → Option Nat}
    {rest start index bh bit : Nat}
    (found : findMap kernel blocks rest start = some (index, bh, bit)) :
    index < start + rest ∧ bit < 8192 := by
  induction rest generalizing start with
  | zero => cases found
  | succ rest induction =>
      unfold findMap at found
      split at found
      · have later := induction found
        omega
      · dsimp only at found
        split at found
        · cases found
          omega
        · have later := induction found
          omega

/-- `new_inode` up to its mark. -/
theorem newInode_distinct (fuel dev euid egid : Nat) :
    (newInode fuel dev euid egid).Keeps False KeepsDistinct (fun _ => True)
      fun _ _ => True := by
  apply keeps_bind (getEmptyInode_distinct fuel fuel).shorten
  intro index
  apply keeps_bind (aside_distinct (getSuper_within _ _)).shorten
  rintro (_ | sb)
  · exact keeps_panic
  · apply keeps_get
    intro kernel _
    have gives : (do
        (iput fuel (some index)).unmarked
        return none : Sys (Option Nat)).Within KeepsDistinct :=
      within_bind (iput_distinct fuel _).unmarked fun _ => within_pure none
    cases found : findMap kernel (kernel.supers sb).imap 8 0 with
    | none => exact gives.shorten
    | some place =>
        obtain ⟨block, bh, bit⟩ := place
        obtain ⟨blockIn, bitIn⟩ := findMap_some found
        dsimp only
        split
        · exact gives.shorten
        split
        · exact keeps_panic
        split
        · exact keeps_cross
        · rename_i unused
          have missing : findInode kernel dev (bit + block * 8192) nrInode 0 =
              none := by simpa using unused
          have stores : (storeMap bh (setBit bit)).Keeps False KeepsDistinct
              (fun current => current = kernel)
              fun _ next => next.inodes = kernel.inodes := by
            apply keeps_modify
            rintro state rfl
            exact ⟨(Aside.elsewhere rfl rfl).distinct, rfl⟩
          apply keeps_bind stores
          intro _
          refine keeps_bind (onInode_named ?_) fun _ =>
            (within_pure (some index)).shorten
          intro state sameInodes other inRange
          have isNumber : (bit + block * 8192) % 65536 = bit + block * 8192 :=
            Nat.mod_eq_of_lt (by omega)
          rw [sameInodes, isNumber]
          exact findInode_none missing other (Nat.zero_le other) (by omega)

/-! ## Systems of tasks -/

/-- The calls of a task; those that return an inode return its slot. -/
inductive TableCall where
  | iget (fuel dev nr : Nat)
  | iput (fuel : Nat) (inode : Option Nat)
  | newInode (fuel dev euid egid : Nat)

namespace TableCall

def program : TableCall → Sys (Option Nat)
  | iget fuel dev nr => do return some (← (Fs.iget fuel dev nr).unmarked)
  | iput fuel inode => do
      (Fs.iput fuel inode).unmarked
      return none
  | newInode fuel dev euid egid => Fs.newInode fuel dev euid egid

/-- The numbers on the disk have 16 bits. -/
def WellTyped : TableCall → Prop
  | iget _ _ nr => nr < 65536
  | _ => True

end TableCall

/-- A task that may make any of the calls at any time.  `marked` says whether
a run ends at the marks. -/
def tableClient (marked : Bool) : Client Kernel (Option Nat) where
  Call := TableCall
  Memory := Unit
  enabled := fun _ call => call.WellTyped
  program := fun call =>
    if marked then call.program else call.program.unmarked
  finish := fun _ _ _ => ()

/-- What happens to the table from outside: a device completes a request, or
the holder of an inode changes what it says. -/
inductive Outside (kernel : Kernel) : Kernel → Prop where
  | completes (major : Nat) (success : Bool) :
      Outside kernel (complete major success kernel)
  | changes (slot : Nat) (inode : Inode)
      (isHeld : (kernel.inodes slot).count ≠ 0)
      (sameDev : inode.dev = (kernel.inodes slot).dev)
      (sameNum : inode.num = (kernel.inodes slot).num)
      (sameCount : inode.count = (kernel.inodes slot).count)
      (sameLock : inode.lock = (kernel.inodes slot).lock) :
      Outside kernel (kernel.setInode slot inode)

theorem Outside.keepsDistinct {kernel next : Kernel}
    (outside : Outside kernel next) : KeepsDistinct kernel next := by
  cases outside with
  | completes major success => exact (complete_aside major success _).distinct
  | changes slot inode _ sameDev sameNum _ _ =>
      exact setInode_distinct (.inr ⟨sameDev, sameNum⟩)

theorem table_bounded :
    Bounded (tableClient true) Outside KeepsDistinct where
  call := by
    intro memory call wellTyped
    cases call with
    | iget fuel dev nr =>
        have isNumber : nr < 65536 := wellTyped
        exact (within_bind (iget_distinct fuel dev isNumber).unmarked fun slot =>
          within_pure (some slot)).shorten
    | iput fuel inode =>
        exact (within_bind (iput_distinct fuel inode).unmarked fun _ =>
          within_pure none).shorten
    | newInode fuel dev euid egid => exact newInode_distinct fuel dev euid egid
  device := fun _ _ => Outside.keepsDistinct

/-- As long as `new_inode` takes no number that is in the table, no inode has
two slots. -/
theorem inodeTable_distinct {count : Nat} {kernel : Kernel}
    (distinct : kernel.Distinct) {world : World (tableClient true) count}
    (reached : Reachable Outside kernel () world) : world.state.Distinct :=
  (reachable_related table_bounded reached).1 distinct

/-! ## A number that is freed while `iget` sleeps -/

/-- The number is allocated on a mounted device. -/
def Kernel.marked (kernel : Kernel) (dev nr : Nat) : Bool :=
  match findSuper kernel.supers dev 0 nrSuper with
  | none => false
  | some sb =>
      match (kernel.supers sb).imap (nr / 8192) with
      | none => false
      | some bh => bitOf (kernel.buffers bh).data (nr % 8192)

section Example

/-- A disk whose inode block and block 20 are just being written.  Inode 5,
with block 20, is open, changed and unlinked; inode 6 is a block device. -/
def busyKernel : Kernel where
  nrBuffers := 4
  buffers := fun bh =>
    { data := fun offset => if bh < 2 ∧ offset < 8 then 255 else 0
      block :=
        if bh = 0 then 2 else if bh = 1 then 3 else if bh = 2 then 4 else 20
      dev := 769
      uptodate := true
      dirt := false
      count := if bh < 2 then 1 else 0
      lock := decide (2 ≤ bh)
      prev := none
      next := none
      prevFree := some ((bh + 3) % 4)
      nextFree := some ((bh + 1) % 4) }
  hashTable := fun slot =>
    if slot = hashfn 769 2 then some 0
    else if slot = hashfn 769 3 then some 1
    else if slot = hashfn 769 4 then some 2
    else if slot = hashfn 769 20 then some 3
    else none
  freeList := 2
  requests := fun slot =>
    { dev := if slot < 2 then some 769 else none
      cmd := .write
      sector := if slot = 0 then 8 else 40
      nrSectors := 2
      bh := if slot = 0 then 2 else 3 }
  queue := fun major => if major = 3 then [0, 1] else []
  driver := fun major => if major = 3 then .interrupt else .absent
  disk := fun _ _ => 0
  inodes := fun slot =>
    if slot = 3 then
      { Inode.zero with
        mode := 33188
        dev := 769
        num := 5
        count := 1
        dirt := true
        zone := fun entry => if entry = 0 then 20 else 0 }
    else if slot = 4 then
      { Inode.zero with
        mode := 24576
        dev := 769
        num := 6
        nlinks := 1
        count := 1
        zone := fun entry => if entry = 0 then 512 else 0 }
    else Inode.zero
  lastInode := 0
  supers := fun index =>
    { ninodes := 32
      nzones := 1000
      imapBlocks := 1
      zmapBlocks := 1
      firstdatazone := 5
      magic := 4991
      imap := fun block => if block = 0 then some 0 else none
      zmap := fun block => if block = 0 then some 1 else none
      dev := if index = 0 then 769 else 0
      isup := none
      imount := none
      lock := false }
  now := 0

theorem busyKernel_distinct : busyKernel.Distinct := by
  intro first second _ _ hasDev sameDev sameNum
  simp only [busyKernel, Inode.zero] at hasDev sameDev sameNum
  grind

/-- The first task puts inode 5 and sleeps in `truncate`; the second puts the
block device and sleeps in `sync_inodes`, with inode 5 locked. -/
def putsBoth (marked : Bool) : List (Move (tableClient marked) 3) :=
  [.call 0 (.iput 5 (some 3)), .call 1 (.iput 5 (some 4))]

/-- The third task asks for inode 5, which is freed before it wakes. -/
def getsFreed (marked : Bool) : List (Move (tableClient marked) 3) :=
  [.call 2 (.iget 5 769 5), .device (complete 3 true), .wake 1,
    .device (complete 3 true), .wake 0, .wake 2]

def takesFreed (marked : Bool) : List (Move (tableClient marked) 3) :=
  getsFreed marked ++ [.call 1 (.newInode 5 769 0 0)]

theorem example_fair (marked : Bool) :
    ∀ move ∈ putsBoth marked ++ takesFreed marked, move.Fair Outside := by
  intro move member
  simp only [putsBoth, takesFreed, getsFreed, List.mem_append, List.mem_cons,
    List.not_mem_nil, or_false] at member
  rcases member with (rfl | rfl) | (rfl | rfl | rfl | rfl | rfl | rfl) | rfl
  · exact fun _ => trivial
  · exact fun _ => trivial
  · exact fun _ => show 5 < 65536 by decide
  · exact fun _ => .completes 3 true
  · trivial
  · exact fun _ => .completes 3 true
  · trivial
  · trivial
  · exact fun _ => trivial

def busyWorld (marked : Bool) : World (tableClient marked) 3 :=
  ⟨busyKernel, fun _ => .idle ()⟩

/-- Two slots for inode 5, by way of three tasks none of which does anything
out of turn: the number is allocated when `iget` is called. -/
theorem iget_duplicates :
    busyKernel.Distinct ∧
      ∃ before after : World (tableClient false) 3,
        (busyWorld false).play (putsBoth false) = some before ∧
        before.state.marked 769 5 = true ∧
        before.play (takesFreed false) = some after ∧
        Reachable Outside busyKernel () after ∧ ¬after.state.Distinct := by
  refine ⟨busyKernel_distinct, ?_⟩
  have outcome : ((busyWorld false).play (putsBoth false)).bind (fun before =>
      (before.play (takesFreed false)).map fun after =>
        (before.state.marked 769 5,
          [1, 2].map fun slot =>
            ((after.state.inodes slot).dev, (after.state.inodes slot).num))) =
      some (true, [(769, 5), (769, 5)]) := by
    decide +kernel
  obtain ⟨before, first, outcome⟩ := Option.bind_eq_some_iff.mp outcome
  obtain ⟨after, second, outcome⟩ := Option.map_eq_some_iff.mp outcome
  simp only [List.map_cons, List.map_nil, Prod.mk.injEq, List.cons.injEq,
    and_true] at outcome
  obtain ⟨marked, ⟨firstDev, firstNum⟩, secondDev, secondNum⟩ := outcome
  have fair := example_fair false
  have reached : Reachable Outside busyKernel () before := by
    refine reachable_play .start ?_ first
    exact fun move member => fair move (List.mem_append_left _ member)
  refine ⟨before, after, first, marked, second, ?_, ?_⟩
  · exact reachable_play reached
      (fun move member => fair move (List.mem_append_right _ member)) second
  · intro distinct
    have hasDev : (after.state.inodes 1).dev ≠ 0 := by omega
    have sameDev := firstDev.trans secondDev.symm
    have sameNum := firstNum.trans secondNum.symm
    have same := distinct 1 2 (by decide) (by decide) hasDev sameDev sameNum
    omega

/-- Up to the moment `new_inode` takes the number there is one slot. -/
theorem inodeTable_distinct_freed :
    ∃ world : World (tableClient true) 3,
      (busyWorld true).play (putsBoth true ++ getsFreed true) = some world ∧
        world.state.Distinct := by
  have returns :
      ((busyWorld true).play (putsBoth true ++ getsFreed true)).isSome = true := by
    decide +kernel
  obtain ⟨world, played⟩ := Option.isSome_iff_exists.mp returns
  refine ⟨world, played, inodeTable_distinct busyKernel_distinct ?_⟩
  refine reachable_play .start (fun move member => ?_) played
  have fair := example_fair true move
  simp only [takesFreed, List.mem_append] at member fair
  rcases member with puts | gets
  · exact fair (.inl puts)
  · exact fair (.inr (.inl gets))

end Example

end Linux011.Fs
