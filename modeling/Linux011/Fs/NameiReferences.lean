import Linux011.Fs.CacheSession
import Linux011.Fs.InodeReferences
import Linux011.Fs.Namei

/-!
# The calls on names balance their references

Every way out of `open_namei`, `sys_mknod`, `sys_mkdir`, `sys_rmdir`,
`sys_unlink` and `sys_link` gives back what the call has taken, as long as
`empty_dir` finds a directory that begins as it should and has no holes, and
`free_block` finds no block in use.  A lemma for each function says what it
leaves its caller with.
-/

namespace Linux011.Fs

open Coop Prog

section References

variable {base : Kernel} {bufs inodes : List Nat} {fate : Fate} {α : Type}
  (releasing : Releasing fate) (room : HasRoom base) (crossed : fate.crossed)

/-! ## Finding blocks -/

include releasing room in
theorem createZone_returns (few : bufs.length ≤ 6) (fuel index entry : Nat)
    (create : Bool) :
    Returns fate base bufs inodes (createZone fuel index entry create) := by
  apply returns_get
  intro kernel
  split
  · apply hoare_bind (newBlock_returns releasing room few _ _)
    intro block
    apply returns_get
    intro kernel
    apply onInode_returns
    intro inode
    dsimp only
    split <;> rfl
  · exact returns_pure ()

include releasing room in
theorem indirectEntry_returns (few : bufs.length ≤ 6)
    (fuel index bh entry : Nat) (create : Bool) :
    Returns fate base bufs inodes
      (indirectEntry fuel index bh entry create) := by
  apply returns_get
  intro kernel
  dsimp only
  split
  · apply hoare_bind (newBlock_returns releasing room few _ _)
    intro block
    split
    · exact returns_pure 0
    · exact hoare_bind (storeMap_returns _ _) fun _ => returns_pure _
  · exact returns_pure _

include releasing room in
theorem throughBlock_returns (few : bufs.length ≤ 5)
    (fuel index block entry : Nat) (create : Bool) :
    Returns fate base bufs inodes
      (throughBlock fuel index block entry create) := by
  apply returns_get
  intro kernel
  apply hoare_bind (bread_returns releasing room (by omega) _ _ _)
  rintro (_ | bh)
  · exact returns_pure 0
  · have deeper : (bh :: bufs).length ≤ 6 := Nat.succ_le_succ few
    apply hoare_bind (indirectEntry_returns releasing room deeper _ _ _ _ _)
    intro found
    apply hoare_bind (brelse_returns room (by omega) bh)
    exact fun _ => returns_pure _

include releasing room in
theorem bmapWith_returns (few : bufs.length ≤ 5) (create : Bool)
    (fuel index block : Nat) :
    Returns fate base bufs inodes (bmapWith create fuel index block) := by
  have creates (entry : Nat) :=
    @createZone_returns base bufs inodes fate releasing room (by omega) fuel
      index entry create
  have reads (block entry : Nat) :=
    @throughBlock_returns base bufs inodes fate releasing room few fuel index
      block entry create
  unfold bmapWith
  split
  · exact hoare_panic (releasing.panic _ (by decide) (by decide))
  split
  · exact hoare_bind (creates _) fun _ => returns_get fun _ => returns_pure _
  split
  · apply hoare_bind (creates _)
    intro _
    apply returns_get
    intro kernel
    split
    · exact returns_pure 0
    · exact reads _ _
  · apply hoare_bind (creates _)
    intro _
    apply returns_get
    intro kernel
    split
    · exact returns_pure 0
    · apply hoare_bind (reads _ _)
      intro middle
      split
      · exact returns_pure 0
      · exact reads _ _

include releasing room in
theorem readBlock_returns (few : bufs.length ≤ 6) (fuel dir block : Nat) :
    Hoare fate Interrupts (Keeping base bufs inodes) (readBlock fuel dir block)
      fun found => Keeping base (found.toList ++ bufs) inodes := by
  apply hoare_read
  intro kernel
  split
  · exact hoare_pure fun _ holding => holding
  · exact bread_returns releasing room few _ _ _

/-! ## Searching a directory -/

/-- The buffer of an entry that has been found. -/
def entryBuf (found : Option (Nat × Nat)) : List Nat :=
  (found.map Prod.fst).toList

theorem compareEntry_returns {name : List UInt8}
    {next : Nat → Nat → Sys (Option (Nat × Nat))} {bh : Nat}
    (continues : ∀ de, Hoare fate Interrupts (Keeping base (bh :: bufs) inodes)
      (next bh de) fun found => Keeping base (entryBuf found ++ bufs) inodes)
    (de : Nat) :
    Hoare fate Interrupts (Keeping base (bh :: bufs) inodes)
      (compareEntry name next bh de)
      fun found => Keeping base (entryBuf found ++ bufs) inodes := by
  apply hoare_read
  intro kernel
  split
  · exact hoare_pure fun _ holding => holding
  · exact continues _

include releasing room in
theorem findLoop_returns (few : bufs.length ≤ 5) (fuel dir entries : Nat)
    (name : List UInt8) (rounds : Nat) (bh : Option Nat) (de i : Nat) :
    Hoare fate Interrupts (Keeping base (bh.toList ++ bufs) inodes)
      (findLoop fuel dir entries name rounds bh de i)
      fun found => Keeping base (entryBuf found ++ bufs) inodes := by
  have less : bufs.length ≤ 6 := Nat.le_succ_of_le few
  induction rounds generalizing bh de i with
  | zero => exact hoare_spent releasing.spent
  | succ rounds induction =>
      have compares (bh : Nat) :=
        @compareEntry_returns base bufs inodes fate name
          (fun bh de =>
            findLoop fuel dir entries name rounds (some bh) de (i + 1))
          bh fun de => induction (some bh) de (i + 1)
      unfold findLoop
      split
      · apply hoare_bind (brelse_pointer room less bh)
        exact fun _ => hoare_pure fun _ holding => holding
      · dsimp only
        split
        · exact compares _ de
        · apply hoare_bind (brelse_pointer room less _)
          intro _
          apply hoare_bind (bmapWith_returns releasing room few _ _ _ _)
          intro block
          apply hoare_bind (readBlock_returns releasing room less _ _ _)
          rintro (_ | bh)
          · exact induction none _ _
          · exact compares bh 0

include releasing room crossed in
theorem crossRoot_returns (few : bufs.length ≤ 4) (slots : inodes.length ≤ 6)
    (fuel : Nat) (process : Process) (dir : Nat) (name : List UInt8) :
    Hoare fate Interrupts (Keeping base bufs (dir :: inodes))
      (crossRoot fuel process dir name)
      fun found => Keeping base bufs (found.1 :: inodes) := by
  have stays (name : List UInt8) : Hoare fate Interrupts
      (Keeping base bufs (dir :: inodes))
      (pure (dir, name) : Sys (Nat × List UInt8))
      fun found => Keeping base bufs (found.1 :: inodes) :=
    hoare_pure fun _ holding => holding
  apply hoare_read
  intro kernel
  split
  · exact stays name
  split
  · exact stays dotName
  split
  · exact stays name
  apply hoare_bind (getSuper_returns releasing _ _)
  rintro (_ | sb)
  · exact hoare_panic (releasing.panic _ (by decide) (by decide))
  · apply hoare_read
    intro kernel
    split
    · exact stays name
    · apply hoare_bind
        (iput_returns releasing room crossed few (by omega) fuel dir)
      intro _
      apply hoare_read
      intro kernel
      split
      · exact hoare_panic (releasing.panic _ (by decide) (by decide))
      · rename_i covered _
        apply hoare_bind (takeCount_returns room (by omega) covered)
        exact fun _ => hoare_pure fun _ holding => holding

include releasing room crossed in
theorem findEntry_returns (few : bufs.length ≤ 4) (slots : inodes.length ≤ 6)
    (fuel : Nat) (process : Process) (dir : Nat) (name : List UInt8) :
    Hoare fate Interrupts (Keeping base bufs (dir :: inodes))
      (findEntry fuel process dir name)
      fun found =>
        Keeping base (entryBuf found.2 ++ bufs) (found.1 :: inodes) := by
  apply hoare_read
  intro kernel
  dsimp only
  split
  · exact hoare_pure fun _ holding => holding
  · apply hoare_bind
      (crossRoot_returns releasing room crossed few slots fuel process dir _)
    rintro ⟨dir, name⟩
    apply hoare_read
    intro kernel
    apply hoare_bind (readBlock_returns releasing room (by omega) _ _ _)
    rintro (_ | bh)
    · exact hoare_pure fun _ holding => holding
    · apply hoare_bind (findLoop_returns releasing room (by omega) fuel dir _ name
        _ (some bh) 0 0)
      exact fun found => hoare_pure fun _ holding => holding

/-! ## Adding an entry -/

theorem occupyEntry_returns {dir i : Nat} {name : List UInt8}
    {next : Nat → Nat → Sys (Option (Nat × Nat))} {bh : Nat}
    (continues : ∀ de, Hoare fate Interrupts (Keeping base (bh :: bufs) inodes)
      (next bh de) fun found => Keeping base (entryBuf found ++ bufs) inodes)
    (de : Nat) :
    Hoare fate Interrupts (Keeping base (bh :: bufs) inodes)
      (occupyEntry dir i name next bh de)
      fun found => Keeping base (entryBuf found ++ bufs) inodes := by
  apply hoare_read
  intro kernel
  have grows : Returns fate base (bh :: bufs) inodes
      (if (kernel.inodes dir).size ≤ i * 16 then do
        onBuffer bh fun buffer =>
          { buffer with data := storeNumber de 0 buffer.data }
        onInode dir fun inode =>
          { inode with size := (i + 1) * 16, dirt := true, ctime := kernel.now }
      else pure () : Sys Unit) := by
    split
    · refine hoare_bind (returns_modify fun _ => setBuffer_undisturbed)
        fun _ => ?_
      exact onInode_returns dir fun _ => rfl
    · exact returns_pure ()
  apply hoare_bind grows
  intro _
  apply hoare_read
  intro kernel
  split
  · refine onInode_then (fun _ => ?_) fun _ => rfl
    apply hoare_bind (storeMap_returns _ _)
    exact fun _ => hoare_pure fun _ holding => holding
  · exact continues _

include releasing room in
theorem addLoop_returns (few : bufs.length ≤ 5) (fuel dir : Nat)
    (name : List UInt8) (rounds : Nat) (bh : Option Nat) (de i : Nat) :
    Hoare fate Interrupts (Keeping base (bh.toList ++ bufs) inodes)
      (addLoop fuel dir name rounds bh de i)
      fun found => Keeping base (entryBuf found ++ bufs) inodes := by
  have less : bufs.length ≤ 6 := Nat.le_succ_of_le few
  induction rounds generalizing bh de i with
  | zero => exact hoare_spent releasing.spent
  | succ rounds induction =>
      have occupies (bh : Nat) :=
        @occupyEntry_returns base bufs inodes fate dir i name
          (fun bh de => addLoop fuel dir name rounds (some bh) de (i + 1))
          bh fun de => induction (some bh) de (i + 1)
      unfold addLoop
      dsimp only
      split
      · exact occupies _ de
      · apply hoare_bind (brelse_pointer room less _)
        intro _
        apply hoare_bind (bmapWith_returns releasing room few _ _ _ _)
        intro block
        split
        · exact hoare_pure fun _ holding => holding
        · apply hoare_bind (readBlock_returns releasing room less _ _ _)
          rintro (_ | bh)
          · exact induction none _ _
          · exact occupies bh 0

include releasing room in
theorem addEntry_returns (few : bufs.length ≤ 5) (fuel dir : Nat)
    (name : List UInt8) :
    Hoare fate Interrupts (Keeping base bufs inodes) (addEntry fuel dir name)
      fun found => Keeping base (entryBuf found ++ bufs) inodes := by
  apply hoare_read
  intro kernel
  dsimp only
  split
  · exact hoare_pure fun _ holding => holding
  · apply hoare_bind (readBlock_returns releasing room (by omega) _ _ _)
    rintro (_ | bh)
    · exact hoare_pure fun _ holding => holding
    · exact addLoop_returns releasing room few fuel dir _ fuel (some bh) 0 0

/-! ## Following a path -/

include releasing room crossed in
theorem getDirLoop_returns (slots : inodes.length ≤ 6) (fuel : Nat)
    (process : Process) (rounds inode : Nat) (pathname : List UInt8) :
    Hoare fate Interrupts (Keeping base [] (inode :: inodes))
      (getDirLoop fuel process rounds inode pathname)
      fun found => Keeping base [] (found.toList ++ inodes) := by
  have puts (inode : Nat) :=
    @iput_returns base [] inodes fate releasing room crossed (by decide)
      (by omega) fuel inode
  have noInode : Hoare fate Interrupts (Keeping base [] inodes)
      (pure none : Sys (Option Nat))
      fun found => Keeping base [] (found.toList ++ inodes) :=
    hoare_pure fun _ holding => holding
  induction rounds generalizing inode pathname with
  | zero => exact hoare_spent releasing.spent
  | succ rounds induction =>
      apply hoare_read
      intro kernel
      split
      · exact hoare_bind (puts inode) fun _ => noInode
      · split
        · exact hoare_pure fun _ holding => holding
        · apply hoare_bind (findEntry_returns releasing room crossed
            (by decide) slots fuel process inode _)
          rintro ⟨inode, _ | ⟨bh, de⟩⟩
          · exact hoare_bind (puts inode) fun _ => noInode
          · apply hoare_read
            intro kernel
            apply hoare_bind (brelse_returns room (by decide) bh)
            intro _
            apply hoare_bind (puts inode)
            intro _
            apply hoare_bind (iget_returns releasing room crossed (by decide)
              slots fuel _ _)
            exact fun inode => induction inode _

include releasing room crossed in
theorem getDir_returns (slots : inodes.length ≤ 6) (fuel : Nat)
    (process : Process) (pathname : List UInt8) :
    Hoare fate Interrupts (Keeping base [] inodes) (getDir fuel process pathname)
      fun found => Keeping base [] (found.toList ++ inodes) := by
  have follows (inode : Nat) (pathname : List UInt8) :
      Hoare fate Interrupts (Keeping base [] inodes) (do
          onInode inode Inode.takeCount
          getDirLoop fuel process (pathname.length + 1) inode pathname)
        fun found => Keeping base [] (found.toList ++ inodes) :=
    hoare_bind (takeCount_returns room (by omega) inode) fun _ =>
      getDirLoop_returns releasing room crossed slots fuel process _ inode _
  apply hoare_read
  intro kernel
  split
  · exact hoare_panic (releasing.panic _ (by decide) (by decide))
  · exact hoare_panic (releasing.panic _ (by decide) (by decide))
  · dsimp only
    split
    · exact hoare_pure fun _ holding => holding
    · split
      · exact follows _ _
      · exact follows _ _

/-- The directory a path leads to. -/
def dirOf (found : Option (Nat × List UInt8)) : List Nat :=
  (found.map Prod.fst).toList

include releasing room crossed in
theorem dirNamei_returns (slots : inodes.length ≤ 6) (fuel : Nat)
    (process : Process) (pathname : List UInt8) :
    Hoare fate Interrupts (Keeping base [] inodes) (dirNamei fuel process pathname)
      fun found => Keeping base [] (dirOf found ++ inodes) := by
  apply hoare_bind
    (getDir_returns releasing room crossed slots fuel process pathname)
  rintro (_ | dir)
  · exact hoare_pure fun _ holding => holding
  · exact hoare_pure fun _ holding => holding

include releasing room crossed in
theorem namei_returns (slots : inodes.length ≤ 6) (fuel : Nat)
    (process : Process) (pathname : List UInt8) :
    Hoare fate Interrupts (Keeping base [] inodes) (namei fuel process pathname)
      fun found => Keeping base [] (found.toList ++ inodes) := by
  have puts (inode : Nat) :=
    @iput_returns base [] inodes fate releasing room crossed (by decide)
      (by omega) fuel inode
  apply hoare_bind
    (dirNamei_returns releasing room crossed slots fuel process pathname)
  rintro (_ | ⟨dir, basename⟩)
  · exact hoare_pure fun _ holding => holding
  · dsimp only
    split
    · exact hoare_pure fun _ holding => holding
    · apply hoare_bind (findEntry_returns releasing room crossed (by decide)
        slots fuel process dir basename)
      rintro ⟨dir, _ | ⟨bh, de⟩⟩
      · exact hoare_bind (puts dir) fun _ =>
          hoare_pure fun _ holding => holding
      · apply hoare_read
        intro kernel
        apply hoare_bind (brelse_returns room (by decide) bh)
        intro _
        apply hoare_bind (puts dir)
        intro _
        apply hoare_bind (iget_returns releasing room crossed (by decide)
          slots fuel _ _)
        intro inode
        apply hoare_read
        intro kernel
        refine onInode_then (fun _ => ?_) fun _ => rfl
        exact hoare_pure fun _ holding => holding

/-! ## The calls -/

/-- A call that hands no inode over has given everything back. -/
abbrev GivesBack (fate : Fate) (base : Kernel) (bufs inodes : List Nat)
    (program : Sys (Int × Option Nat)) : Prop :=
  Hoare fate Interrupts (Keeping base bufs inodes) program
    fun _ => Keeping base [] []

theorem fails_givesBack (errno : Int) :
    GivesBack fate base [] [] (fails errno) :=
  hoare_pure fun _ holding => holding

include releasing room crossed in
/-- A directory is given back. -/
theorem iput_givesBack (fuel dir : Nat) {next : Unit → Sys (Int × Option Nat)}
    (continues : ∀ value, GivesBack fate base bufs inodes (next value))
    (few : bufs.length ≤ 4) (slots : inodes.length ≤ 7) :
    GivesBack fate base bufs (dir :: inodes)
      (iput fuel (some dir) >>= next) :=
  hoare_bind (iput_returns releasing room crossed few slots fuel dir) continues

theorem givesBack_swap {first second : Nat}
    {program : Sys (Int × Option Nat)}
    (givesBack : GivesBack fate base bufs [first, second] program) :
    GivesBack fate base bufs [second, first] program :=
  hoare_pre givesBack fun _ holding =>
    holding.reorder (List.Perm.refl _) (List.Perm.swap _ _ _)

theorem fillEntry_returns (bh de inode : Nat) :
    Returns fate base bufs inodes (fillEntry bh de inode) :=
  returns_get fun _ => storeMap_returns _ _

include releasing room crossed in
theorem openNamei_returns (fuel : Nat) (process : Process)
    (pathname : List UInt8) (flag mode : BitVec 32) :
    Hoare fate Interrupts (Keeping base [] [])
      (openNamei fuel process pathname flag mode)
      fun result => Keeping base [] result.2.toList := by
  have ends (errno : Int) : Hoare fate Interrupts (Keeping base [] []) (fails errno)
      fun result => Keeping base [] result.2.toList :=
    hoare_pure fun _ holding => holding
  have puts (inode : Nat) {slots : List Nat} (few : slots.length ≤ 7) :=
    @iput_returns base [] slots fate releasing room crossed (by decide)
      few fuel inode
  have refuses (dir : Nat) (errno : Int) :
      Hoare fate Interrupts (Keeping base [] [dir]) (do
          iput fuel (some dir)
          fails errno)
        fun result => Keeping base [] result.2.toList :=
    hoare_bind (puts dir (by decide)) fun _ => ends errno
  unfold openNamei
  dsimp only
  generalize Descriptors.truncFlag flag = flag
  apply hoare_bind
    (dirNamei_returns releasing room crossed (by decide) fuel process pathname)
  rintro (_ | ⟨dir, basename⟩)
  · exact ends enoent
  dsimp only
  split
  · split
    · exact hoare_pure fun _ holding => holding
    · exact refuses dir eisdir
  · apply hoare_bind (findEntry_returns releasing room crossed (by decide)
      (by decide) fuel process dir basename)
    rintro ⟨dir, _ | ⟨bh, de⟩⟩
    · apply hoare_read
      intro kernel
      split
      · exact refuses dir enoent
      split
      · exact refuses dir eacces
      · apply hoare_bind (newInode_returns releasing room (by simp [entryBuf])
          (by simp) fuel _ _ _)
        rintro (_ | inode)
        · exact refuses dir enospc
        · refine onInode_then (fun _ => ?_) fun _ => rfl
          apply hoare_bind (addEntry_returns releasing room
            (by simp [entryBuf]) fuel dir basename)
          rintro (_ | ⟨bh, de⟩)
          · refine onInode_then (fun _ => ?_) fun _ => rfl
            apply hoare_bind (puts inode (by simp))
            exact fun _ => refuses dir enospc
          · apply hoare_bind (fillEntry_returns bh de inode)
            intro _
            apply hoare_bind (brelse_returns room (by simp [entryBuf]) bh)
            intro _
            refine hoare_bind (hoare_pre (@puts dir [inode] (by simp)) ?_)
              fun _ => ?_
            · exact fun _ holding =>
                holding.reorder (List.Perm.refl _) (List.Perm.swap _ _ _)
            · exact hoare_pure fun _ holding => holding
    · apply hoare_read
      intro kernel
      apply hoare_bind (brelse_returns room (by simp) bh)
      intro _
      apply hoare_bind (puts dir (by decide))
      intro _
      split
      · exact ends eexist
      · apply hoare_bind (iget_returns releasing room crossed (by decide)
          (by decide) fuel _ _)
        intro inode
        apply hoare_read
        intro kernel
        split
        · exact refuses inode eperm
        · refine onInode_then (fun _ => ?_) fun _ => rfl
          have cuts : Returns fate base [] [inode]
              (if flag &&& oTrunc ≠ 0 then truncate fuel inode
                else pure () : Sys Unit) := by
            split
            · exact truncate_returns releasing room crossed (by decide) _ _
            · exact returns_pure ()
          apply hoare_bind cuts
          exact fun _ => hoare_pure fun _ holding => holding

include releasing room crossed in
theorem newName_givesBack {fuel : Nat} {process : Process}
    {pathname : List UInt8}
    {next : Nat → List UInt8 → Sys (Int × Option Nat)}
    (continues : ∀ dir basename,
      GivesBack fate base [] [dir] (next dir basename)) :
    GivesBack fate base [] [] (newName fuel process pathname next) := by
  have refuses (dir : Nat) (errno : Int) :
      GivesBack fate base [] [dir] (do
        iput fuel (some dir)
        fails errno) :=
    iput_givesBack releasing room crossed fuel dir
      (fun _ => fails_givesBack errno) (by decide) (by decide)
  unfold newName
  split
  · exact fails_givesBack eperm
  · apply hoare_bind (dirNamei_returns releasing room crossed (by decide) fuel
      process pathname)
    rintro (_ | ⟨dir, basename⟩)
    · exact fails_givesBack enoent
    · apply hoare_read
      intro kernel
      split
      · exact refuses dir enoent
      split
      · exact refuses dir eperm
      · apply hoare_bind (findEntry_returns releasing room crossed (by decide)
          (by decide) fuel process dir basename)
        rintro ⟨dir, _ | ⟨bh, de⟩⟩
        · exact continues dir basename
        · exact hoare_bind (brelse_returns room (by simp) bh) fun _ =>
            refuses dir eexist

include releasing room crossed in
/-- The end of a call that has entered a name. -/
theorem named_givesBack (fuel bh dir inode : Nat) :
    GivesBack fate base [bh] [inode, dir] (do
      iput fuel (some dir)
      iput fuel (some inode)
      brelse (some bh)
      return (0, none)) := by
  apply givesBack_swap
  refine iput_givesBack releasing room crossed fuel dir (fun _ => ?_)
    (by simp) (by simp)
  refine iput_givesBack releasing room crossed fuel inode (fun _ => ?_)
    (by simp) (by simp)
  apply hoare_bind (brelse_returns room (by simp) bh)
  exact fun _ => hoare_pure fun _ holding => holding

include releasing room crossed in
theorem sysMknod_givesBack (fuel : Nat) (process : Process)
    (filename : List UInt8) (mode : BitVec 32) (dev : Nat) :
    GivesBack fate base [] [] (sysMknod fuel process filename mode dev) := by
  apply newName_givesBack releasing room crossed
  intro dir basename
  have puts {bufs slots : List Nat} (inode : Nat) {errno : Int}
      (continues : GivesBack fate base bufs slots (fails errno))
      (few : bufs.length ≤ 4) (less : slots.length ≤ 7) :=
    iput_givesBack releasing room crossed fuel inode (fun _ => continues) few
      less
  apply hoare_read
  intro kernel
  apply hoare_bind (newInode_returns releasing room (by simp)
    (by simp) fuel _ _ _)
  rintro (_ | inode)
  · exact puts dir (fails_givesBack enospc) (by decide) (by decide)
  · apply hoare_read
    intro kernel
    refine onInode_then (fun _ => ?_) ?_
    · apply hoare_bind (addEntry_returns releasing room (by simp) fuel dir
        basename)
      rintro (_ | ⟨bh, de⟩)
      · apply givesBack_swap
        refine iput_givesBack releasing room crossed fuel dir (fun _ => ?_)
          (by simp [entryBuf]) (by simp)
        refine onInode_then (fun _ => ?_) fun _ => rfl
        exact puts inode (fails_givesBack enospc) (by decide) (by decide)
      · apply hoare_bind (fillEntry_returns bh de inode)
        intro _
        exact named_givesBack releasing room crossed fuel bh dir inode
    · intro inode
      dsimp only
      split <;> rfl

/-- A call gives back the inodes it holds. -/
theorem givesBack_then {program : Sys α} {next : α → Sys (Int × Option Nat)}
    (returns : Returns fate base bufs inodes program)
    (continues : ∀ value, GivesBack fate base bufs inodes (next value)) :
    GivesBack fate base bufs inodes (program >>= next) :=
  hoare_bind returns continues

include releasing room crossed in
theorem sysMkdir_givesBack (fuel : Nat) (process : Process)
    (pathname : List UInt8) (mode : BitVec 32) :
    GivesBack fate base [] [] (sysMkdir fuel process pathname mode) := by
  apply newName_givesBack releasing room crossed
  intro dir basename
  have puts {slots : List Nat} (inode : Nat)
      {next : Unit → Sys (Int × Option Nat)}
      (continues : ∀ value, GivesBack fate base [] slots (next value))
      (less : slots.length ≤ 7) :=
    iput_givesBack releasing room crossed fuel inode continues (by decide) less
  have drops (inode : Nat) (errno : Int) :
      GivesBack fate base [] [inode] (do
        onInode inode fun inode =>
          { inode with nlinks := (inode.nlinks + 255) % 256 }
        iput fuel (some inode)
        fails errno) := by
    refine onInode_then (fun _ => ?_) fun _ => rfl
    exact puts inode (fun _ => fails_givesBack errno) (by decide)
  apply hoare_read
  intro kernel
  apply hoare_bind (newInode_returns releasing room (by simp) (by simp) fuel
    _ _ _)
  rintro (_ | inode)
  · exact puts dir (fun _ => fails_givesBack enospc) (by decide)
  apply hoare_read
  intro kernel
  refine onInode_then (fun _ => ?_) fun _ => rfl
  apply givesBack_then (newBlock_returns releasing room (by simp) _ _)
  intro block
  refine onInode_then (fun _ => ?_) fun _ => rfl
  split
  · apply givesBack_swap
    exact puts dir (fun _ => drops inode enospc) (by simp)
  refine onInode_then (fun _ => ?_) fun _ => rfl
  apply hoare_read
  intro kernel
  apply hoare_bind (bread_returns releasing room (by simp) _ _ _)
  rintro (_ | dirBlock)
  · apply givesBack_swap
    refine puts dir (fun _ => ?_) (by simp)
    apply hoare_read
    intro kernel
    apply givesBack_then
      (freeBlock_returns releasing room crossed (by simp) _ _ _)
    exact fun _ => drops inode error
  apply hoare_read
  intro kernel
  apply givesBack_then (storeMap_returns _ _)
  intro _
  refine onInode_then (fun _ => ?_) fun _ => rfl
  apply hoare_bind (brelse_returns room (by simp) dirBlock)
  intro _
  refine onInode_then (fun _ => ?_) fun _ => rfl
  apply hoare_bind (addEntry_returns releasing room (by simp) fuel dir basename)
  rintro (_ | ⟨bh, de⟩)
  · apply givesBack_swap
    refine puts dir (fun _ => ?_) (by simp)
    apply hoare_read
    intro kernel
    apply givesBack_then
      (freeBlock_returns releasing room crossed (by simp) _ _ _)
    intro _
    refine onInode_then (fun _ => ?_) fun _ => rfl
    exact puts inode (fun _ => fails_givesBack enospc) (by decide)
  · apply givesBack_then (fillEntry_returns bh de inode)
    intro _
    refine onInode_then (fun _ => ?_) fun _ => rfl
    exact named_givesBack releasing room crossed fuel bh dir inode

/-! ## Removing names -/

theorem checkEntry_returns {next : Nat → Nat → Sys Bool} {bh : Nat}
    (room : HasRoom base) (few : bufs.length ≤ 6)
    (continues : ∀ de, Hoare fate Interrupts (Keeping base (bh :: bufs) inodes)
      (next bh de) fun _ => Keeping base bufs inodes) (de : Nat) :
    Hoare fate Interrupts (Keeping base (bh :: bufs) inodes)
      (checkEntry next bh de) fun _ => Keeping base bufs inodes := by
  apply hoare_read
  intro kernel
  split
  · exact hoare_bind (brelse_returns room few bh) fun _ =>
      hoare_pure fun _ holding => holding
  · exact continues _

include releasing room crossed in
theorem emptyLoop_returns (few : bufs.length ≤ 5) (fuel index len : Nat)
    (rounds bh de nr : Nat) :
    Hoare fate Interrupts (Keeping base (bh :: bufs) inodes)
      (emptyLoop fuel index len rounds bh de nr)
      fun _ => Keeping base bufs inodes := by
  have less : bufs.length ≤ 6 := Nat.le_succ_of_le few
  induction rounds generalizing bh de nr with
  | zero => exact hoare_spent releasing.spent
  | succ rounds induction =>
      have checks (bh : Nat) :=
        @checkEntry_returns base bufs inodes fate
          (fun bh de => emptyLoop fuel index len rounds bh de (nr + 1))
          bh room less fun de => induction bh de (nr + 1)
      unfold emptyLoop
      split
      · exact hoare_bind (brelse_returns room less bh) fun _ =>
          hoare_pure fun _ holding => holding
      · dsimp only
        split
        · exact checks bh de
        · apply hoare_bind (brelse_returns room less bh)
          intro _
          apply hoare_bind (bmapWith_returns releasing room few _ _ _ _)
          intro block
          split
          · exact hoare_cross crossed
          · apply hoare_bind (readBlock_returns releasing room less _ _ _)
            rintro (_ | bh)
            · exact hoare_pure fun _ holding => holding
            · exact checks bh 0

include releasing room crossed in
theorem emptyDir_returns (few : bufs.length ≤ 5) (fuel index : Nat) :
    Returns fate base bufs inodes (emptyDir fuel index) := by
  apply returns_get
  intro kernel
  dsimp only
  split
  · exact returns_pure false
  · apply hoare_bind (readBlock_returns releasing room (by omega) _ _ _)
    rintro (_ | bh)
    · exact returns_pure false
    · apply hoare_read
      intro kernel
      split
      · exact hoare_cross crossed
      · exact emptyLoop_returns releasing room crossed few fuel index _ _ bh 2 2

include releasing room crossed in
theorem refuse_givesBack (fuel first second bh : Nat) (errno : Int) :
    GivesBack fate base [bh] [first, second]
      (refuse fuel first second bh errno) := by
  refine iput_givesBack releasing room crossed fuel first (fun _ => ?_)
    (by simp) (by simp)
  refine iput_givesBack releasing room crossed fuel second (fun _ => ?_)
    (by simp) (by simp)
  exact hoare_bind (brelse_returns room (by decide) bh) fun _ =>
    fails_givesBack errno

include releasing room crossed in
theorem oldName_givesBack {fuel : Nat} {process : Process} {name : List UInt8}
    {next : Nat → Nat → Nat → Nat → Sys (Int × Option Nat)}
    (continues : ∀ dir bh de inode,
      GivesBack fate base [bh] [inode, dir] (next dir bh de inode)) :
    GivesBack fate base [] [] (oldName fuel process name next) := by
  have refuses (dir : Nat) (errno : Int) :
      GivesBack fate base [] [dir] (do
        iput fuel (some dir)
        fails errno) :=
    iput_givesBack releasing room crossed fuel dir
      (fun _ => fails_givesBack errno) (by decide) (by decide)
  apply hoare_bind
    (dirNamei_returns releasing room crossed (by decide) fuel process name)
  rintro (_ | ⟨dir, basename⟩)
  · exact fails_givesBack enoent
  · apply hoare_read
    intro kernel
    split
    · exact refuses dir enoent
    split
    · exact refuses dir eperm
    · apply hoare_bind (findEntry_returns releasing room crossed (by decide)
        (by decide) fuel process dir basename)
      rintro ⟨dir, _ | ⟨bh, de⟩⟩
      · exact refuses dir enoent
      · apply hoare_read
        intro kernel
        apply hoare_bind (iget_returns releasing room crossed
          (by simp [entryBuf]) (by simp) fuel _ _)
        exact fun inode => continues dir bh de inode

include releasing room crossed in
theorem sysRmdir_givesBack (fuel : Nat) (process : Process)
    (name : List UInt8) :
    GivesBack fate base [] [] (sysRmdir fuel process name) := by
  unfold sysRmdir
  split
  · exact fails_givesBack eperm
  apply oldName_givesBack releasing room crossed
  intro dir bh de inode
  have refuses (errno : Int) :=
    refuse_givesBack releasing room crossed fuel inode dir bh errno
  have refusesDir :=
    givesBack_swap (refuse_givesBack releasing room crossed fuel dir inode bh
      eperm)
  apply hoare_read
  intro kernel
  split
  · exact refusesDir
  split
  · exact refusesDir
  split
  · exact refuses eperm
  split
  · exact refuses enotdir
  apply givesBack_then
    (emptyDir_returns releasing room crossed (by simp) fuel inode)
  intro empty
  split
  · exact refuses enotempty
  · apply givesBack_then (storeMap_returns _ _)
    intro _
    apply hoare_bind (brelse_returns room (by simp) bh)
    intro _
    refine onInode_then (fun _ => ?_) fun _ => rfl
    apply hoare_read
    intro kernel
    refine onInode_then (fun _ => ?_) fun _ => rfl
    apply givesBack_swap
    refine iput_givesBack releasing room crossed fuel dir (fun _ => ?_)
      (by simp) (by simp)
    refine iput_givesBack releasing room crossed fuel inode (fun _ => ?_)
      (by simp) (by simp)
    exact hoare_pure fun _ holding => holding

include releasing room crossed in
theorem sysUnlink_givesBack (fuel : Nat) (process : Process)
    (name : List UInt8) :
    GivesBack fate base [] [] (sysUnlink fuel process name) := by
  apply oldName_givesBack releasing room crossed
  intro dir bh de inode
  apply hoare_read
  intro kernel
  split
  · exact givesBack_swap
      (refuse_givesBack releasing room crossed fuel dir inode bh eperm)
  split
  · exact refuse_givesBack releasing room crossed fuel inode dir bh eperm
  · refine onInode_then (fun _ => ?_) fun _ => rfl
    apply givesBack_then (storeMap_returns _ _)
    intro _
    apply hoare_bind (brelse_returns room (by simp) bh)
    intro _
    apply hoare_read
    intro kernel
    refine onInode_then (fun _ => ?_) fun _ => rfl
    refine iput_givesBack releasing room crossed fuel inode (fun _ => ?_)
      (by simp) (by simp)
    refine iput_givesBack releasing room crossed fuel dir (fun _ => ?_)
      (by simp) (by simp)
    exact hoare_pure fun _ holding => holding

include releasing room crossed in
theorem sysLink_givesBack (fuel : Nat) (process : Process)
    (oldname newname : List UInt8) :
    GivesBack fate base [] [] (sysLink fuel process oldname newname) := by
  have puts {slots : List Nat} (inode : Nat)
      {next : Unit → Sys (Int × Option Nat)}
      (continues : ∀ value, GivesBack fate base [] slots (next value))
      (less : slots.length ≤ 7) :=
    iput_givesBack releasing room crossed fuel inode continues (by decide) less
  have single (inode : Nat) (errno : Int) : GivesBack fate base [] [inode] (do
      iput fuel (some inode)
      fails errno) :=
    puts inode (fun _ => fails_givesBack errno) (by decide)
  have both (first second : Nat) (errno : Int) :
      GivesBack fate base [] [first, second] (do
        iput fuel (some first)
        iput fuel (some second)
        fails errno) :=
    puts first (fun _ => single second errno) (by simp)
  apply hoare_bind
    (namei_returns releasing room crossed (by decide) fuel process oldname)
  rintro (_ | oldinode)
  · exact fails_givesBack enoent
  apply hoare_read
  intro kernel
  split
  · exact single oldinode eperm
  apply hoare_bind
    (dirNamei_returns releasing room crossed (by simp) fuel process newname)
  rintro (_ | ⟨dir, basename⟩)
  · exact single oldinode eacces
  apply hoare_read
  intro kernel
  split
  · exact givesBack_swap (both oldinode dir eperm)
  split
  · exact both dir oldinode exdev
  split
  · exact both dir oldinode eacces
  apply hoare_bind (findEntry_returns releasing room crossed (by decide)
    (by simp) fuel process dir basename)
  rintro ⟨dir, _ | ⟨bh, de⟩⟩
  · apply hoare_bind (addEntry_returns releasing room (by simp [entryBuf]) fuel
      dir basename)
    rintro (_ | ⟨bh, de⟩)
    · exact both dir oldinode enospc
    · apply givesBack_then (fillEntry_returns bh de oldinode)
      intro _
      apply hoare_bind (brelse_returns room (by simp [entryBuf]) bh)
      intro _
      refine puts dir (fun _ => ?_) (by simp)
      apply hoare_read
      intro kernel
      refine onInode_then (fun _ => ?_) fun _ => rfl
      refine puts oldinode (fun _ => ?_) (by simp)
      exact hoare_pure fun _ holding => holding
  · apply hoare_bind (brelse_returns room (by simp) bh)
    exact fun _ => both dir oldinode eexist

end References

/-! ## Balance -/

/-- The counts after a call are those before it, but for the inode that it
hands over. -/
structure BalancedCall (before after : Kernel) (handed : Option Nat) :
    Prop where
  buffer : ∀ bh, (after.buffers bh).count = (before.buffers bh).count
  inode : ∀ slot, (after.inodes slot).count =
    (before.inodes slot).count + handed.toList.count slot

/-- Only `open_namei` hands an inode over. -/
def NameiCall.handed : NameiCall → Option Nat → Option Nat
  | openNamei _ _ _, inode => inode
  | _, _ => none

/-- Up to the marks, and as long as nothing that is free is given back. -/
def Fate.untilMark : Fate where
  panic := fun message => message ≠ "Trying to free free buffer" ∧
    message ≠ "iput: trying to free free inode"
  spent := True
  crossed := True

theorem untilMark_releasing : Releasing Fate.untilMark :=
  ⟨trivial, fun _ notBuffer notInode => ⟨notBuffer, notInode⟩⟩

/-- A run that does not come to a mark gives back what it has taken, and
gives nothing back that is free. -/
theorem namei_balanced {kernel : Kernel} (lists : Lists kernel)
    (room : HasRoom kernel) (fuel : Nat) (process : Process)
    (call : NameiCall) :
    (call.program fuel process).wp Fate.untilMark Interrupts
      (fun result next => BalancedCall kernel next (call.handed result.2))
      kernel := by
  have begins := Keeping.begin lists
  have releasing := untilMark_releasing
  have givesBack {program : Sys (Int × Option Nat)}
      (gives : GivesBack Fate.untilMark kernel [] [] program) :
      program.wp Fate.untilMark Interrupts
        (fun _ next => BalancedCall kernel next none) kernel :=
    wp_mono (gives.run kernel begins) fun _ _ keeping =>
      ⟨keeping.buffer, keeping.inode⟩
  cases call with
  | openNamei pathname flag mode =>
      refine wp_mono ((openNamei_returns releasing room trivial fuel process
        pathname flag mode).run kernel begins) ?_
      exact fun _ _ keeping => ⟨keeping.buffer, keeping.inode⟩
  | mknod filename mode dev =>
      exact givesBack (sysMknod_givesBack releasing room trivial _ _ _ _ _)
  | mkdir pathname mode =>
      exact givesBack (sysMkdir_givesBack releasing room trivial _ _ _ _)
  | rmdir name =>
      exact givesBack (sysRmdir_givesBack releasing room trivial _ _ _)
  | unlink name =>
      exact givesBack (sysUnlink_givesBack releasing room trivial _ _ _)
  | link oldname newname =>
      exact givesBack (sysLink_givesBack releasing room trivial _ _ _ _)

section Witness

/-- The entries `.`, `..` and `d` of a root directory in block 2. -/
def rootEntries : Nat → UInt8
  | 2048 => 1
  | 2050 => 46
  | 2064 => 1
  | 2066 => 46
  | 2067 => 46
  | 2080 => 2
  | 2082 => 100
  | _ => 0

/-- A ram disk with an inode 2 that is a directory of this size; its only
block is full of zeros but for what `first` says. -/
def twoDirectories (size : Nat) (first : Nat → UInt8) : Kernel :=
  { ramKernel 4 with
    disk := fun _ position =>
      if position < 3072 then rootEntries position
      else first (position - 3072)
    lastInode := 1
    inodes := fun slot =>
      if slot = 0 then
        { Inode.zero with
          mode := 16877
          size := 48
          nlinks := 3
          dev := 257
          num := 1
          count := 2
          zone := fun entry => if entry = 0 then 2 else 0 }
      else if slot = 1 then
        { Inode.zero with
          mode := 16877
          size := size
          nlinks := 2
          dev := 257
          num := 2
          zone := fun entry => if entry = 0 then 3 else 0 }
      else Inode.zero }

theorem twoDirectories_lists (size : Nat) (first : Nat → UInt8) :
    Lists (twoDirectories size first) := by
  have lists := (ramKernel_begins (by decide : 0 < 4)).sound.lists
  exact lists.congr (SameLists.elsewhere rfl rfl rfl rfl)

theorem twoDirectories_room (size : Nat) (first : Nat → UInt8) :
    HasRoom (twoDirectories size first) where
  buffer := fun _ => show 0 + 8 ≤ 255 by decide
  inode := by
    intro slot
    show (if slot = 0 then _ else if slot = 1 then _ else Inode.zero :
      Inode).count + 8 ≤ 65535
    split
    · show 2 + 8 ≤ 65535
      decide
    · split
      · show 0 + 8 ≤ 65535
        decide
      · show 0 + 8 ≤ 65535
        decide

/-- The superuser, at the root. -/
def superuser : Process where
  euid := 0
  egid := 0
  umask := 0
  root := some 0
  pwd := some 0

/-- The root directory is opened. -/
theorem namei_balanced_root :
    ∃ next, NameiCall.program 5 superuser (.openNamei [slash] 0 0)
        (twoDirectories 32 fun _ => 0) = .done (0, some 0) next ∧
      BalancedCall (twoDirectories 32 fun _ => 0) next (some 0) := by
  obtain ⟨next, returns⟩ : ∃ next,
      NameiCall.program 5 superuser (.openNamei [slash] 0 0)
        (twoDirectories 32 fun _ => 0) = .done (0, some 0) next := ⟨_, rfl⟩
  have right := namei_balanced (twoDirectories_lists 32 fun _ => 0)
    (twoDirectories_room 32 _) 5 superuser (.openNamei [slash] 0 0)
  unfold Prog.wp at right
  rw [returns] at right
  exact ⟨next, returns, right⟩

/-- The message a run without sleep stops with, marks left out. -/
def stopMessage {α : Type} : Run Kernel α → Option String
  | .panic message => some message
  | .crossed rest => stopMessage rest
  | _ => none

/-- The first entries of a directory that is empty. -/
def dots : Nat → UInt8
  | 0 => 2
  | 2 => 46
  | 16 => 1
  | 18 => 46
  | 19 => 46
  | _ => 0

/-- If the directory `d` does not begin with `.`, it is not removed and its
block stays in use; if its second block is missing, the first one is released
twice. -/
theorem sysRmdir_unbalanced :
    (Lists (twoDirectories 32 fun _ => 0) ∧
      HasRoom (twoDirectories 32 fun _ => 0) ∧
      ∃ result next,
        (NameiCall.program 5 superuser (.rmdir [100])
          (twoDirectories 32 fun _ => 0)).outcome = some (result, next) ∧
        ¬BalancedCall (twoDirectories 32 fun _ => 0) next none) ∧
    Lists (twoDirectories 1040 dots) ∧ HasRoom (twoDirectories 1040 dots) ∧
      stopMessage (NameiCall.program 5 superuser (.rmdir [100])
        (twoDirectories 1040 dots)) = some "Trying to free free buffer" := by
  refine ⟨⟨twoDirectories_lists 32 _, twoDirectories_room 32 _, ?_⟩,
    twoDirectories_lists 1040 _, twoDirectories_room 1040 _, ?_⟩
  · have ends : ((NameiCall.program 5 superuser (.rmdir [100])
        (twoDirectories 32 fun _ => 0)).outcome.map fun result =>
          (result.1.1, (result.2.buffers 1).count)) = some (-39, 1) := by
      decide +kernel
    obtain ⟨⟨result, next⟩, runs, holds⟩ := Option.map_eq_some_iff.mp ends
    simp only [Prod.mk.injEq] at holds
    refine ⟨result, next, runs, ?_⟩
    intro balanced
    have unused : (next.buffers 1).count = 0 := balanced.buffer 1
    omega
  · decide +kernel

end Witness

end Linux011.Fs
