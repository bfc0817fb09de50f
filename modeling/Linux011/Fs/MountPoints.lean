import Linux011.Library.Likeness
import Linux011.Fs.InodeAnchors
import Linux011.Fs.NameiReferences

/-!
# Crossing mount points

A path look-up takes and puts inodes, and changes no mount record on its way.
So each call of `iget` finds the superblock of every mount point it comes to,
and comes to one at most: it runs like a program without the loop.
-/

namespace Linux011.Fs

open Coop Prog

/-! ## `iget` without its loop -/

/-- The inode is read into the spare slot. -/
def fillInode (fuel empty dev nr : Nat) : Sys Nat := do
  onInode empty fun inode => { inode with dev := dev, num := nr % 65536 }
  readInode fuel empty
  return empty

/-- What `iget` does beyond a mount point. -/
def igetBeyond (fuel empty dev nr : Nat) : Sys Nat := do
  let kernel ← Prog.get
  match findInode kernel dev nr nrInode 0 with
  | none => fillInode fuel empty dev nr
  | some index => do
      waitOnInode index
      onInode index Inode.takeCount
      iput fuel (some empty)
      return index

/-- `iget` for a table in which it crosses one mount point at most, and in
which every mount point has its superblock. -/
def igetOnce (fuel dev nr : Nat) : Sys Nat :=
  if dev = 0 then Prog.panic "iget with dev==0"
  else do
    let empty ← getEmptyInode fuel fuel
    let kernel ← Prog.get
    match findInode kernel dev nr nrInode 0 with
    | none => fillInode fuel empty dev nr
    | some index => do
        waitOnInode index
        let kernel ← Prog.get
        onInode index Inode.takeCount
        if (kernel.inodes index).mount = true then
          match findMount kernel index nrSuper 0 with
          | none => Prog.panic "Mounted inode hasn't got sb"
          | some sb => do
              iput fuel (some index)
              let kernel ← Prog.get
              igetBeyond fuel empty (kernel.supers sb).dev rootIno
        else do
          iput fuel (some empty)
          return index

/-! ## Path look-up over any `iget` -/

section With

variable (iget : Nat → Nat → Sys Nat) (fuel : Nat) (process : Process)

/-- `get_dir` behind its start, over the `iget` it calls. -/
def getDirLoopWith : Nat → Nat → List UInt8 → Sys (Option Nat)
  | 0, _, _ => Prog.spent
  | rounds + 1, inode, pathname => do
      let kernel ← Prog.get
      if (kernel.inodes inode).isDirectory = false ∨
          process.permission (kernel.inodes inode) mayExec = false then do
        iput fuel (some inode)
        return none
      else
        match scanName pathname with
        | (_, none) => return some inode
        | (thisname, some rest) => do
            let (inode, found) ← findEntry fuel process inode thisname
            match found with
            | none => do
                iput fuel (some inode)
                return none
            | some (bh, de) => do
                let kernel ← Prog.get
                let inr := (entryAt (kernel.buffers bh).data de).inode
                let idev := (kernel.inodes inode).dev
                brelse (some bh)
                iput fuel (some inode)
                let inode ← iget idev inr
                getDirLoopWith rounds inode rest

def getDirWith (pathname : List UInt8) : Sys (Option Nat) := do
  let kernel ← Prog.get
  match inUse kernel process.root, inUse kernel process.pwd with
  | none, _ => Prog.panic "No root inode"
  | _, none => Prog.panic "No cwd inode"
  | some root, some pwd => do
      let follow (inode : Nat) (pathname : List UInt8) : Sys (Option Nat) := do
        onInode inode Inode.takeCount
        getDirLoopWith iget fuel process (pathname.length + 1) inode pathname
      match pathname with
      | [] => return none
      | c :: rest =>
          if c = slash then follow root rest else follow pwd pathname

def dirNameiWith (pathname : List UInt8) :
    Sys (Option (Nat × List UInt8)) := do
  match ← getDirWith iget fuel process pathname with
  | none => return none
  | some dir => return some (dir, basenameFrom pathname pathname)

/-- `namei` over the `iget` it calls. -/
def nameiWith (pathname : List UInt8) : Sys (Option Nat) := do
  match ← dirNameiWith iget fuel process pathname with
  | none => return none
  | some (dir, basename) =>
      if basename = [] then return some dir
      else do
        let (dir, found) ← findEntry fuel process dir basename
        match found with
        | none => do
            iput fuel (some dir)
            return none
        | some (bh, de) => do
            let kernel ← Prog.get
            let inr := (entryAt (kernel.buffers bh).data de).inode
            let dev := (kernel.inodes dir).dev
            brelse (some bh)
            iput fuel (some dir)
            let inode ← iget dev inr
            let kernel ← Prog.get
            onInode inode fun inode =>
              { inode with atime := kernel.now, dirt := true }
            return some inode

end With

/-! ## The mount records on the way -/

/-- The superblocks are those of `base`, the same inodes are mount points, and
those in use are the same inodes. -/
structure Tabled (base kernel : Kernel) : Prop where
  supers : kernel.supers = base.supers
  mount : ∀ slot, (kernel.inodes slot).mount = (base.inodes slot).mount
  num : ∀ slot, (base.inodes slot).count ≠ 0 →
    (kernel.inodes slot).num = (base.inodes slot).num

namespace Tabled

variable {base kernel next : Kernel}

theorem refl (kernel : Kernel) : Tabled kernel kernel :=
  ⟨rfl, fun _ => rfl, fun _ _ => rfl⟩

theorem anchored (tabled : Tabled base kernel) (moved : Anchored kernel next) :
    Tabled base next where
  supers := moved.supers.trans tabled.supers
  mount := fun slot => (moved.inodes slot).mount.trans (tabled.mount slot)
  num := fun slot isUsed =>
    (moved.inodes slot).num.trans (tabled.num slot isUsed)

theorem lasts (tabled : Tabled base kernel) (calm : Interrupts kernel next) :
    Tabled base next where
  supers := calm.supers.trans tabled.supers
  mount := by
    rw [calm.inodes]
    exact tabled.mount
  num := by
    rw [calm.inodes]
    exact tabled.num

theorem setInode {index : Nat} {inode : Inode} (tabled : Tabled base kernel)
    (mount : inode.mount = (base.inodes index).mount)
    (num : (base.inodes index).count ≠ 0 →
      inode.num = (base.inodes index).num) :
    Tabled base (kernel.setInode index inode) where
  supers := tabled.supers
  mount := by
    intro slot
    by_cases here : slot = index
    · subst here
      simpa [Kernel.setInode] using mount
    · simpa [Kernel.setInode, here] using tabled.mount slot
  num := by
    intro slot isUsed
    by_cases here : slot = index
    · subst here
      simpa [Kernel.setInode] using num isUsed
    · simpa [Kernel.setInode, here] using tabled.num slot isUsed

end Tabled

/-- In the middle of a look-up that began with `base`. -/
structure Walking (base : Kernel) (bufs inodes : List Nat) (kernel : Kernel) :
    Prop where
  holding : Keeping base bufs inodes kernel
  tabled : Tabled base kernel

/-- A table to look up paths in: every mount point is held and has its
superblock, and none is the root of a device. -/
structure Grounded (base : Kernel) : Prop where
  room : HasRoom base
  held : ∀ slot, (base.inodes slot).mount = true → (base.inodes slot).count ≠ 0
  num : ∀ slot, (base.inodes slot).mount = true →
    (base.inodes slot).num ≠ rootIno
  super : ∀ slot, (base.inodes slot).mount = true →
    ∃ sb, findMount base slot nrSuper 0 = some sb

section Walks

variable {base : Kernel} {bufs inodes : List Nat} {α : Type}

theorem releasing_any : Releasing .any :=
  ⟨trivial, fun _ _ _ => trivial⟩

theorem Walking.lasts {kernel next : Kernel}
    (walking : Walking base bufs inodes kernel)
    (calm : Interrupts kernel next) : Walking base bufs inodes next :=
  ⟨walking.holding.keep calm.undisturbed, walking.tabled.lasts calm⟩

theorem Walking.reorder {kernel : Kernel} {slots : List Nat}
    (walking : Walking base bufs inodes kernel) (same : inodes.Perm slots) :
    Walking base bufs slots kernel :=
  ⟨walking.holding.reorder (.refl bufs) same, walking.tabled⟩

/-- What returns and takes no inode of its own keeps the records. -/
theorem walks {program : Sys α} {held taken : α → List Nat}
    (returns : Hoare .any Interrupts (Keeping base bufs inodes) program
      fun value => Keeping base (held value) (taken value))
    (anchored : program.Within Anchored) :
    Hoare .any Interrupts (Walking base bufs inodes) program
      fun value => Walking base (held value) (taken value) := by
  have keeps : Hoare .any Interrupts (Tabled base) program
      fun _ => Tabled base :=
    hoare_of_stays (stays_of_within anchored
      (fun _ _ tabled moved => tabled.anchored moved)
      fun _ _ tabled calm => tabled.lasts calm)
  refine hoare_post (hoare_and
    (hoare_pre returns fun _ walking => walking.holding)
    (hoare_pre keeps fun _ walking => walking.tabled)) ?_
  exact fun _ _ holds => ⟨holds.1, holds.2⟩

theorem waitOnInode_walks (index : Nat) :
    Hoare .any Interrupts (Walking base bufs inodes) (waitOnInode index)
      fun _ => Walking base bufs inodes :=
  hoare_post (hoare_waitUntil fun _ _ walking calm => walking.lasts calm)
    fun _ _ holds => holds.1

/-- A change of one count. -/
theorem recount_walks {slots : List Nat} {index : Nat} {change : Inode → Inode}
    (returns : Hoare .any Interrupts (Keeping base bufs inodes)
      (onInode index change) fun _ => Keeping base bufs slots)
    (mount : ∀ inode, (change inode).mount = inode.mount)
    (num : ∀ inode, (change inode).num = inode.num) :
    Hoare .any Interrupts (Walking base bufs inodes) (onInode index change)
      fun _ => Walking base bufs slots := by
  constructor
  intro kernel walking
  refine ⟨returns.run kernel walking.holding, walking.tabled.setInode ?_ ?_⟩
  · rw [mount, walking.tabled.mount]
  · intro isUsed
    rw [num, walking.tabled.num index isUsed]

@[simp] theorem Inode.setCount_mount (inode : Inode) (count : Nat) :
    (inode.setCount count).mount = inode.mount := rfl

variable (grounded : Grounded base)

include grounded in
theorem takeCount_walks (few : inodes.length ≤ 7) (index : Nat) :
    Hoare .any Interrupts (Walking base bufs inodes)
      (onInode index Inode.takeCount)
      fun _ => Walking base bufs (index :: inodes) :=
  recount_walks (takeCount_returns grounded.room few index)
    (fun _ => Inode.setCount_mount _ _) fun _ => Inode.setCount_num _ _

include grounded in
theorem dropCount_walks (few : inodes.length ≤ 7) (index : Nat) :
    Hoare .any Interrupts (Walking base bufs (index :: inodes))
      (onInode index Inode.dropCount) fun _ => Walking base bufs inodes :=
  recount_walks (inodeDropCount_returns grounded.room few index)
    (fun _ => Inode.setCount_mount _ _) fun _ => Inode.setCount_num _ _

theorem dropPipe_walks (index : Nat) :
    Hoare .any Interrupts (Walking base bufs (index :: inodes))
      (onInode index Inode.dropPipe) fun _ => Walking base bufs inodes := by
  apply recount_walks dropPipe_returns
  · intro inode
    unfold Inode.dropPipe
    split <;> rfl
  · intro inode
    unfold Inode.dropPipe
    split <;> rfl

include grounded in
/-- The inode of which nobody else has a reference is no mount point. -/
theorem Grounded.unmounted {index : Nat}
    (last : (base.inodes index).count = 0) :
    (base.inodes index).mount = false := by
  cases isMount : (base.inodes index).mount with
  | false => rfl
  | true => exact absurd last (grounded.held index isMount)

include grounded in
theorem freeInode_walks {index : Nat}
    (last : (base.inodes index).count + inodes.count index = 0) (fuel : Nat) :
    Hoare .any Interrupts (Walking base bufs (index :: inodes))
      (freeInode fuel index) fun _ => Walking base bufs inodes := by
  have unused := Nat.eq_zero_of_add_eq_zero_right last
  have stops {message : String} :
      Hoare .any Interrupts (Walking base bufs (index :: inodes))
        (Prog.panic message : Sys Unit) fun _ => Walking base bufs inodes :=
    hoare_panic trivial
  have clears : Hoare .any Interrupts (Walking base bufs (index :: inodes))
      (onInode index fun _ => Inode.zero)
      fun _ => Walking base bufs inodes := by
    constructor
    intro kernel walking
    have returns := @clearInode_returns base bufs inodes .any index last
    exact ⟨returns.run kernel walking.holding,
      walking.tabled.setInode (grounded.unmounted unused).symm
        fun isUsed => absurd unused isUsed⟩
  apply hoare_read
  intro kernel
  dsimp only
  split
  · exact clears
  split
  · exact stops
  split
  · exact stops
  apply hoare_bind (walks (getSuper_returns releasing_any _ _)
    (getSuper_anchored _ _))
  rintro (_ | sb)
  · exact stops
  apply hoare_read
  intro kernel
  split
  · exact stops
  split
  · exact stops
  · apply hoare_bind (walks (releaseBit_returns releasing_any _ _
      (returns_pure ())) (releaseBit_anchored _ _ (within_pure ())))
    exact fun _ => clears

include grounded in
theorem iputRepeat_walks (few : bufs.length ≤ 4) (slots : inodes.length ≤ 7)
    (fuel index rounds : Nat) :
    Hoare .any Interrupts (Walking base bufs (index :: inodes))
      (iputRepeat fuel index rounds) fun _ => Walking base bufs inodes := by
  have drops := @dropCount_walks base bufs inodes grounded slots index
  induction rounds with
  | zero => exact hoare_spent trivial
  | succ rounds induction =>
      apply hoare_get
      intro kernel walking
      dsimp only
      apply hoare_at walking
      split
      · exact drops
      split
      · rename_i single _
        have last : (base.inodes index).count + inodes.count index = 0 := by
          rw [walking.holding.positive] at single
          omega
        apply hoare_bind (walks (truncate_returns releasing_any grounded.room
          trivial few fuel index) (truncate_anchored fuel index))
        exact fun _ => freeInode_walks grounded last fuel
      split
      · apply hoare_bind (walks (writeInode_returns releasing_any grounded.room
          (by omega) fuel index) (writeInode_anchored fuel index).unmarked)
        intro _
        exact hoare_bind (waitOnInode_walks index) fun _ => induction
      · exact drops

include grounded in
theorem iput_walks (few : bufs.length ≤ 4) (slots : inodes.length ≤ 7)
    (fuel index : Nat) :
    Hoare .any Interrupts (Walking base bufs (index :: inodes))
      (iput fuel (some index)) fun _ => Walking base bufs inodes := by
  apply hoare_bind (waitOnInode_walks index)
  intro _
  apply hoare_get
  intro kernel walking
  have positive := walking.holding.positive
  dsimp only
  rw [if_neg (by omega)]
  apply hoare_at walking
  split
  · exact dropPipe_walks index
  split
  · exact dropCount_walks grounded slots index
  split
  · apply hoare_bind (walks (syncDev_returns releasing_any grounded.room
      (by omega) _ _) (unmarked_anchored (syncDev_within _ _)))
    intro _
    apply hoare_bind (waitOnInode_walks index)
    exact fun _ => iputRepeat_walks grounded few slots fuel index fuel
  · exact iputRepeat_walks grounded few slots fuel index fuel

/-! ## Taking an inode -/

/-- The slot that `get_empty_inode` returns was nobody's. -/
def Spare (base : Kernel) (bufs inodes : List Nat) (index : Nat)
    (kernel : Kernel) : Prop :=
  (base.inodes index).count = 0 ∧
    Walking base bufs (index :: inodes) kernel

/-- The inode that `iget` returns is no mount point. -/
def Taken (base : Kernel) (bufs inodes : List Nat) (index : Nat)
    (kernel : Kernel) : Prop :=
  (base.inodes index).mount = false ∧
    Walking base bufs (index :: inodes) kernel

include grounded in
theorem getEmptyInode_walks (few : bufs.length ≤ 6) (fuel rounds : Nat) :
    Hoare .any Interrupts (Walking base bufs inodes) (getEmptyInode fuel rounds)
      (Spare base bufs inodes) := by
  induction rounds with
  | zero => exact hoare_spent trivial
  | succ rounds induction =>
      apply hoare_read
      intro kernel
      dsimp only
      have searches (last : Nat) :
          Hoare .any Interrupts (Walking base bufs inodes)
            (Prog.modify fun kernel => { kernel with lastInode := last })
            fun _ => Walking base bufs inodes :=
        hoare_modify fun _ walking =>
          walking.lasts ⟨Quiet.elsewhere rfl rfl rfl rfl, rfl, rfl⟩
      refine hoare_bind (searches _) fun _ => ?_
      · split
        · exact hoare_panic trivial
        · rename_i index _
          apply hoare_bind (waitOnInode_walks index)
          intro _
          apply hoare_bind (walks (cleanInode_returns releasing_any
            grounded.room few fuel index fuel) (cleanInode_anchored _ _ _))
          intro _
          apply hoare_get
          intro kernel walking
          split <;> rename_i isUsed
          · exact hoare_at walking induction
          · have unused := not_not.mp isUsed
            rw [walking.holding.inode] at unused
            have nobodys := Nat.eq_zero_of_add_eq_zero_right unused
            have takes : Hoare .any Interrupts (fun current => current = kernel)
                (onInode index fun _ => { Inode.zero with count := 1 })
                fun _ => Spare base bufs inodes index := by
              apply hoare_modify
              rintro state rfl
              refine ⟨nobodys, walking.holding.resettle ?_ ?_,
                walking.tabled.setInode (grounded.unmounted nobodys).symm ?_⟩
              · rw [List.count_cons_self, ← Nat.add_assoc, unused]
              · intro other different
                rw [List.count_cons_of_ne different.symm]
              · exact fun isUsed => absurd nobodys isUsed
            exact hoare_bind takes fun _ => hoare_pure fun _ spare => spare

include grounded in
/-- The number of a slot that was not in use may change. -/
theorem fillInode_walks (few : bufs.length ≤ 6) (fuel empty dev nr : Nat) :
    Hoare .any Interrupts (Spare base bufs inodes empty)
      (fillInode fuel empty dev nr) (Taken base bufs inodes) := by
  apply hoare_given
  intro nobodys
  have renames : Hoare .any Interrupts (Walking base bufs (empty :: inodes))
      (onInode empty fun inode => { inode with dev := dev, num := nr % 65536 })
      fun _ => Walking base bufs (empty :: inodes) := by
    constructor
    intro kernel walking
    have returns := @onInode_returns base bufs (empty :: inodes) .any empty
      (fun inode => { inode with dev := dev, num := nr % 65536 }) fun _ => rfl
    exact ⟨returns.run kernel walking.holding,
      walking.tabled.setInode (walking.tabled.mount empty)
        fun isUsed => absurd nobodys isUsed⟩
  apply hoare_bind renames
  intro _
  apply hoare_bind (walks (readInode_returns releasing_any grounded.room few
    fuel empty) (readInode_anchored fuel empty))
  exact fun _ => hoare_pure fun _ walking =>
    ⟨grounded.unmounted nobodys, walking⟩

theorem findInode_some {kernel : Kernel} {dev nr count index slot : Nat}
    (found : findInode kernel dev nr count index = some slot) :
    (kernel.inodes slot).dev = dev ∧ (kernel.inodes slot).num = nr := by
  induction count generalizing index with
  | zero => cases found
  | succ count induction =>
      unfold findInode at found
      split at found <;> rename_i here
      · rw [Option.some.injEq] at found
        rw [← found]
        exact here
      · exact induction found

theorem findMount_congr {kernel next : Kernel} {inode count index : Nat}
    (same : kernel.supers = next.supers) :
    findMount kernel inode count index = findMount next inode count index := by
  induction count generalizing index with
  | zero => rfl
  | succ count induction =>
      unfold findMount
      rw [same, induction]

/-- A look-up has come to a cached inode, and waits for it. -/
structure Arrived (base : Kernel) (bufs inodes : List Nat) (index dev nr : Nat)
    (kernel : Kernel) : Prop where
  walking : Walking base bufs inodes kernel
  dev : (kernel.inodes index).dev = dev
  num : (kernel.inodes index).num = nr

theorem Arrived.lasts {index dev nr : Nat} {kernel next : Kernel}
    (arrived : Arrived base bufs inodes index dev nr kernel)
    (calm : Interrupts kernel next) :
    Arrived base bufs inodes index dev nr next := by
  refine ⟨arrived.walking.lasts calm, ?_, ?_⟩
  · rw [calm.inodes]
    exact arrived.dev
  · rw [calm.inodes]
    exact arrived.num

theorem waitOnInode_arrived (index dev nr : Nat) :
    Hoare .any Interrupts (Arrived base bufs inodes index dev nr)
      (waitOnInode index)
      fun _ => Arrived base bufs inodes index dev nr :=
  hoare_post (hoare_waitUntil fun _ _ arrived calm => arrived.lasts calm)
    fun _ _ holds => holds.1

include grounded in
/-- The end of `iget` for an inode that is no mount point. -/
theorem settles_walks (few : bufs.length ≤ 4) (slots : inodes.length ≤ 6)
    (fuel empty index : Nat) (unmounted : (base.inodes index).mount = false) :
    Hoare .any Interrupts (Walking base bufs (index :: empty :: inodes)) (do
        iput fuel (some empty)
        return index : Sys Nat)
      (Taken base bufs inodes) := by
  have more : (index :: inodes).length ≤ 7 := Nat.succ_le_succ slots
  apply hoare_bind (hoare_pre
    (iput_walks grounded few more fuel empty)
    fun _ walking => walking.reorder (List.Perm.swap _ _ _))
  exact fun _ => hoare_pure fun _ walking => ⟨unmounted, walking⟩

include grounded in
/-- Beyond a mount point there is no other: it leads to a root. -/
theorem igetWith_beyond (few : bufs.length ≤ 4) (slots : inodes.length ≤ 6)
    (fuel empty rounds dev : Nat) :
    Like Interrupts (Spare base bufs inodes empty)
      (igetWith fuel empty (rounds + 1) dev rootIno)
      (igetBeyond fuel empty dev rootIno) (Taken base bufs inodes) := by
  have more : (empty :: inodes).length ≤ 7 := Nat.succ_le_succ slots
  apply like_get
  rintro kernel ⟨isSpare, walking⟩
  cases found : findInode kernel dev rootIno nrInode 0 with
  | none =>
      exact like_at ⟨isSpare, walking⟩ (like_of_hoare
        (fillInode_walks grounded (by omega) fuel empty dev rootIno))
  | some index =>
      obtain ⟨isDev, isRoot⟩ := findInode_some found
      apply like_at (⟨walking, isDev, isRoot⟩ :
        Arrived base bufs (empty :: inodes) index dev rootIno kernel)
      apply like_then (waitOnInode_arrived index dev rootIno)
      intro _
      apply like_getLeft
      intro state arrived
      have unmounted : (base.inodes index).mount = false := by
        cases isMount : (base.inodes index).mount with
        | false => rfl
        | true =>
            have num := arrived.walking.tabled.num index
              (grounded.held index isMount)
            rw [arrived.num] at num
            exact absurd num.symm (grounded.num index isMount)
      have notMount : ¬(state.inodes index).mount = true := by
        rw [arrived.walking.tabled.mount, unmounted]
        decide
      have stillThere : ¬((state.inodes index).dev ≠ dev ∨
          (state.inodes index).num ≠ rootIno) := by
        rw [arrived.dev, arrived.num]
        simp
      rw [if_neg stillThere]
      apply like_at arrived.walking
      apply like_then (takeCount_walks grounded more index)
      intro _
      rw [if_neg notMount]
      exact like_of_hoare
        (settles_walks grounded few slots fuel empty index unmounted)

include grounded in
/-- `iget` goes over one mount point at most, and finds its superblock. -/
theorem iget_once (few : bufs.length ≤ 4) (slots : inodes.length ≤ 6)
    {fuel : Nat} (enough : 2 ≤ fuel) (dev nr : Nat) :
    Like Interrupts (Walking base bufs inodes) (iget fuel dev nr)
      (igetOnce fuel dev nr) (Taken base bufs inodes) := by
  obtain ⟨rounds, rfl⟩ := Nat.exists_eq_add_of_le' enough
  unfold iget igetOnce
  split
  · exact like_of_hoare (hoare_panic trivial)
  apply like_then (getEmptyInode_walks grounded (by omega) _ _)
  intro empty
  have more : (empty :: inodes).length ≤ 7 := Nat.succ_le_succ slots
  apply like_get
  rintro kernel ⟨isSpare, walking⟩
  cases found : findInode kernel dev nr nrInode 0 with
  | none =>
      exact like_at ⟨isSpare, walking⟩ (like_of_hoare
        (fillInode_walks grounded (by omega) _ empty dev nr))
  | some index =>
      obtain ⟨isDev, isNum⟩ := findInode_some found
      apply like_at (⟨walking, isDev, isNum⟩ :
        Arrived base bufs (empty :: inodes) index dev nr kernel)
      apply like_then (waitOnInode_arrived index dev nr)
      intro _
      apply like_get
      intro state arrived
      have stillThere : ¬((state.inodes index).dev ≠ dev ∨
          (state.inodes index).num ≠ nr) := by
        rw [arrived.dev, arrived.num]
        simp
      rw [if_neg stillThere]
      apply like_at arrived.walking
      apply like_then (takeCount_walks grounded more index)
      intro _
      have sameMount := arrived.walking.tabled.mount index
      split <;> rename_i isMount
      · rw [isMount] at sameMount
        obtain ⟨sb, isSuper⟩ := grounded.super index sameMount.symm
        have isFound : findMount state index nrSuper 0 = some sb := by
          rw [← isSuper]
          exact findMount_congr arrived.walking.tabled.supers
        rw [isFound]
        apply like_then (iput_walks grounded few more _ index)
        intro _
        apply like_get
        intro state walking
        exact like_at ⟨isSpare, walking⟩
          (igetWith_beyond grounded few slots _ empty rounds _)
      · have unmounted : (base.inodes index).mount = false := by
          rw [← sameMount]
          exact Bool.eq_false_iff.mpr isMount
        exact like_of_hoare
          (settles_walks grounded few slots _ empty index unmounted)

/-! ## Following a path -/

include grounded in
theorem crossRoot_walks (few : bufs.length ≤ 4) (slots : inodes.length ≤ 6)
    (fuel : Nat) (process : Process) (dir : Nat) (name : List UInt8) :
    Hoare .any Interrupts (Walking base bufs (dir :: inodes))
      (crossRoot fuel process dir name)
      fun found => Walking base bufs (found.1 :: inodes) := by
  have stays (name : List UInt8) : Hoare .any Interrupts
      (Walking base bufs (dir :: inodes))
      (pure (dir, name) : Sys (Nat × List UInt8))
      fun found => Walking base bufs (found.1 :: inodes) :=
    hoare_pure fun _ walking => walking
  apply hoare_read
  intro kernel
  split
  · exact stays name
  split
  · exact stays dotName
  split
  · exact stays name
  apply hoare_bind (walks (getSuper_returns releasing_any _ _)
    (getSuper_anchored _ _))
  rintro (_ | sb)
  · exact hoare_panic trivial
  · apply hoare_read
    intro kernel
    split
    · exact stays name
    · apply hoare_bind (iput_walks grounded few (by omega) fuel dir)
      intro _
      apply hoare_read
      intro kernel
      split
      · exact hoare_panic trivial
      · rename_i covered _
        apply hoare_bind (takeCount_walks grounded (by omega) covered)
        exact fun _ => hoare_pure fun _ walking => walking

include grounded in
theorem findEntry_walks (few : bufs.length ≤ 4) (slots : inodes.length ≤ 6)
    (fuel : Nat) (process : Process) (dir : Nat) (name : List UInt8) :
    Hoare .any Interrupts (Walking base bufs (dir :: inodes))
      (findEntry fuel process dir name)
      fun found =>
        Walking base (entryBuf found.2 ++ bufs) (found.1 :: inodes) := by
  apply hoare_read
  intro kernel
  dsimp only
  split
  · exact hoare_pure fun _ walking => walking
  · apply hoare_bind
      (crossRoot_walks grounded few slots fuel process dir _)
    rintro ⟨dir, name⟩
    apply hoare_read
    intro kernel
    apply hoare_bind (walks (readBlock_returns releasing_any grounded.room
      (by omega) _ _ _) (readBlock_anchored _ _ _))
    rintro (_ | bh)
    · exact hoare_pure fun _ walking => walking
    · apply hoare_bind (walks (findLoop_returns releasing_any grounded.room
        (by omega) fuel dir _ name _ (some bh) 0 0)
        (findLoop_anchored _ _ _ _ _ _ _ _))
      exact fun found => hoare_pure fun _ walking => walking

/-- A look-up has come to an inode that is no mount point, or to none. -/
def Found (base : Kernel) (inodes : List Nat) (found : Option Nat)
    (kernel : Kernel) : Prop :=
  (∀ index ∈ found, (base.inodes index).mount = false) ∧
    Walking base [] (found.toList ++ inodes) kernel

theorem Taken.found {index : Nat} {kernel : Kernel}
    (taken : Taken base [] inodes index kernel) :
    Found base inodes (some index) kernel := by
  refine ⟨?_, taken.2⟩
  rintro _ ⟨⟩
  exact taken.1

theorem none_found :
    Hoare .any Interrupts (Walking base [] inodes) (pure none : Sys (Option Nat))
      (Found base inodes) :=
  hoare_pure fun _ walking => ⟨by simp, walking⟩

include grounded in
/-- The entry is left for its inode. -/
theorem enter_once (slots : inodes.length ≤ 6) {fuel : Nat} (enough : 2 ≤ fuel)
    {bh dir dev nr : Nat} {next further : Nat → Sys (Option Nat)}
    (continues : ∀ inode, (base.inodes inode).mount = false →
      Like Interrupts (Walking base [] (inode :: inodes)) (next inode)
        (further inode) (Found base inodes)) :
    Like Interrupts (Walking base [bh] (dir :: inodes))
      (do
        brelse (some bh)
        iput fuel (some dir)
        let inode ← iget fuel dev nr
        next inode)
      (do
        brelse (some bh)
        iput fuel (some dir)
        let inode ← igetOnce fuel dev nr
        further inode)
      (Found base inodes) := by
  apply like_then (walks (brelse_returns grounded.room (by decide) bh)
    (brelse_anchored _))
  intro _
  apply like_then (iput_walks grounded (by decide) (by omega) fuel dir)
  intro _
  apply like_bind (iget_once grounded (by decide) slots enough dev nr)
  intro inode
  exact like_given (continues inode)

include grounded in
theorem getDirLoop_once (slots : inodes.length ≤ 6) {fuel : Nat}
    (enough : 2 ≤ fuel) (process : Process) (rounds inode : Nat)
    (unmounted : (base.inodes inode).mount = false) (pathname : List UInt8) :
    Like Interrupts (Walking base [] (inode :: inodes))
      (getDirLoop fuel process rounds inode pathname)
      (getDirLoopWith (igetOnce fuel) fuel process rounds inode pathname)
      (Found base inodes) := by
  have puts (inode : Nat) :
      Like Interrupts (Walking base [] (inode :: inodes))
        (do
          iput fuel (some inode)
          return none : Sys (Option Nat))
        (do
          iput fuel (some inode)
          return none) (Found base inodes) :=
    like_of_hoare (hoare_bind (iput_walks grounded (by decide) (by omega) fuel
      inode) fun _ => none_found)
  induction rounds generalizing inode pathname with
  | zero => exact like_of_hoare (hoare_spent trivial)
  | succ rounds induction =>
      apply like_read
      intro kernel
      split
      · exact puts inode
      · rcases scanName pathname with ⟨thisname, _ | rest⟩
        · exact like_pure fun _ walking => Taken.found ⟨unmounted, walking⟩
        · apply like_then
            (findEntry_walks grounded (by decide) slots fuel process inode _)
          rintro ⟨inode, _ | ⟨bh, de⟩⟩
          · exact puts inode
          · apply like_read
            intro kernel
            exact enter_once grounded slots enough fun inode unmounted =>
              induction inode unmounted _

/-- The process starts from no mount point. -/
def AtHome (base : Kernel) (process : Process) : Prop :=
  ∀ index, process.root = some index ∨ process.pwd = some index →
    (base.inodes index).mount = false

theorem inUse_some {kernel : Kernel} {pointer : Option Nat} {index : Nat}
    (isUsed : inUse kernel pointer = some index) : pointer = some index :=
  (Option.filter_eq_some_iff.mp isUsed).1

include grounded in
theorem getDir_once (slots : inodes.length ≤ 6) {fuel : Nat}
    (enough : 2 ≤ fuel) {process : Process} (home : AtHome base process)
    (pathname : List UInt8) :
    Like Interrupts (Walking base [] inodes) (getDir fuel process pathname)
      (getDirWith (igetOnce fuel) fuel process pathname)
      (Found base inodes) := by
  have follows {inode : Nat} (unmounted : (base.inodes inode).mount = false)
      (pathname : List UInt8) :
      Like Interrupts (Walking base [] inodes)
        (do
          onInode inode Inode.takeCount
          getDirLoop fuel process (pathname.length + 1) inode pathname)
        (do
          onInode inode Inode.takeCount
          getDirLoopWith (igetOnce fuel) fuel process (pathname.length + 1)
            inode pathname)
        (Found base inodes) :=
    like_then (takeCount_walks grounded (by omega) inode) fun _ =>
      getDirLoop_once grounded slots enough process _ inode unmounted pathname
  apply like_read
  intro kernel
  rcases isRoot : inUse kernel process.root with _ | root
  · exact like_of_hoare (hoare_panic trivial)
  rcases isPwd : inUse kernel process.pwd with _ | pwd
  · exact like_of_hoare (hoare_panic trivial)
  have fromRoot := follows (home root (.inl (inUse_some isRoot)))
  have fromPwd := follows (home pwd (.inr (inUse_some isPwd)))
  cases pathname with
  | nil => exact like_of_hoare none_found
  | cons c rest =>
      show Like Interrupts _ (ite (c = slash) _ _) (ite (c = slash) _ _) _
      split
      · exact fromRoot rest
      · exact fromPwd (c :: rest)

include grounded in
/-- A look-up runs as over `igetOnce`, and comes to no mount point. -/
theorem namei_once (slots : inodes.length ≤ 6) {fuel : Nat}
    (enough : 2 ≤ fuel) {process : Process} (home : AtHome base process)
    (pathname : List UInt8) :
    Like Interrupts (Walking base [] inodes) (namei fuel process pathname)
      (nameiWith (igetOnce fuel) fuel process pathname)
      (Found base inodes) := by
  have arrives : Like Interrupts (Walking base [] inodes)
      (dirNamei fuel process pathname)
      (dirNameiWith (igetOnce fuel) fuel process pathname)
      fun found => Found base inodes (found.map Prod.fst) := by
    apply like_bind (getDir_once grounded slots enough home pathname)
    rintro (_ | dir)
    · exact like_pure fun _ found => found
    · exact like_pure fun _ found => found
  apply like_bind arrives
  rintro (_ | ⟨dir, basename⟩)
  · exact like_pure fun _ found => found
  · dsimp only
    split
    · exact like_pure fun _ found => found
    · refine like_pre ?_ fun _ found => found.2
      apply like_then
        (findEntry_walks grounded (by decide) slots fuel process dir basename)
      rintro ⟨dir, _ | ⟨bh, de⟩⟩
      · have puts := @iput_walks base [] inodes grounded (by decide) (by omega)
          fuel dir
        exact like_of_hoare (hoare_bind puts fun _ => none_found)
      · apply like_read
        intro kernel
        refine enter_once grounded slots enough fun inode unmounted => ?_
        apply like_of_hoare
        apply hoare_read
        intro kernel
        have touches := @onInode_returns base [] (inode :: inodes) .any inode
          (fun inode => { inode with atime := kernel.now, dirt := true })
          fun _ => rfl
        have touched := walks touches
          (onInode_anchored inode fun _ => ⟨rfl, rfl, rfl, rfl⟩)
        apply hoare_bind touched
        exact fun _ => hoare_pure fun _ walking => Taken.found ⟨unmounted, walking⟩

end Walks

end Linux011.Fs
