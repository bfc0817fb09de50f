import Linux011.Fs.MountSupers

/-!
# Mount records

A mount is recorded twice, in the flag of the covered inode and in the pointer
of the superblock, and it holds a reference to the inode and one to each block
of the maps.  `Mounts` says how all this fits together between two calls.
-/

namespace Linux011.Fs

open Coop Prog

/-! ## The records -/

/-- The superblock of a device other than the root's is mounted on the inode. -/
def Covers (rootDev : Nat) (kernel : Kernel) (slot sb : Nat) : Prop :=
  sb < nrSuper ∧ (kernel.supers sb).dev ≠ rootDev ∧
    (kernel.supers sb).imount = some slot

/-- Both records of every mount, with the references that go with them: the
root is used four times, and each mount point once. -/
structure Records (rootDev root : Nat) (kernel : Kernel) : Prop where
  count : ∀ slot, (kernel.inodes slot).count =
    (if slot = root then 4 else 0) + (kernel.inodes slot).mount.toNat
  isPlain : (kernel.inodes root).mount = false
  num : ∀ slot, (kernel.inodes slot).mount = true →
    (kernel.inodes slot).num ≠ rootIno
  isDevice : rootDev ≠ 0
  rootHeld : ∃ sb, sb < nrSuper ∧ (kernel.supers sb).dev = rootDev
  rootSuper : ∀ sb, sb < nrSuper → (kernel.supers sb).dev = rootDev →
    (kernel.supers sb).imount = some root
  distinct : ∀ first second, first < nrSuper → second < nrSuper →
    (kernel.supers first).dev ≠ 0 →
      (kernel.supers first).dev = (kernel.supers second).dev → first = second
  unused : ∀ sb, sb < nrSuper → (kernel.supers sb).dev = 0 →
    (kernel.supers sb).isup = none ∧ (kernel.supers sb).imount = none
  used : ∀ sb, sb < nrSuper → (kernel.supers sb).dev ≠ 0 →
    (kernel.supers sb).dev ≠ rootDev →
      (kernel.supers sb).isup = none ∧ ∃ slot, Covers rootDev kernel slot sb
  mount : ∀ slot, (kernel.inodes slot).mount = true ↔
    ∃ sb, Covers rootDev kernel slot sb
  once : ∀ slot first second, Covers rootDev kernel slot first →
    Covers rootDev kernel slot second → first = second

namespace Records

variable {rootDev root : Nat} {kernel next : Kernel}

/-- The records do not depend on anything else. -/
theorem congr (records : Records rootDev root kernel)
    (supers : next.supers = kernel.supers)
    (mount : ∀ slot, (next.inodes slot).mount = (kernel.inodes slot).mount)
    (count : ∀ slot, (next.inodes slot).count = (kernel.inodes slot).count)
    (num : ∀ slot, (kernel.inodes slot).count ≠ 0 →
      (next.inodes slot).num = (kernel.inodes slot).num) :
    Records rootDev root next := by
  have covers (slot sb : Nat) :
      Covers rootDev next slot sb ↔ Covers rootDev kernel slot sb := by
    unfold Covers
    rw [supers]
  constructor
  · intro slot
    rw [count, mount]
    exact records.count slot
  · rw [mount]
    exact records.isPlain
  · intro slot isMount
    rw [mount] at isMount
    have isUsed : (kernel.inodes slot).count ≠ 0 := by
      rw [records.count, isMount]
      exact Nat.succ_ne_zero _
    rw [num slot isUsed]
    exact records.num slot isMount
  · exact records.isDevice
  · rw [supers]
    exact records.rootHeld
  · rw [supers]
    exact records.rootSuper
  · rw [supers]
    exact records.distinct
  · rw [supers]
    exact records.unused
  · intro sb inRange isUsed notRoot
    rw [supers] at isUsed notRoot ⊢
    obtain ⟨isup, slot, isCovered⟩ := records.used sb inRange isUsed notRoot
    exact ⟨isup, slot, (covers slot sb).mpr isCovered⟩
  · intro slot
    rw [mount]
    simp only [covers]
    exact records.mount slot
  · intro slot first second left right
    exact records.once slot first second ((covers slot first).mp left)
      ((covers slot second).mp right)

theorem held (records : Records rootDev root kernel) {slot : Nat}
    (isMount : (kernel.inodes slot).mount = true) :
    (kernel.inodes slot).count ≠ 0 := by
  rw [records.count, isMount]
  exact Nat.succ_ne_zero _

theorem notRoot (records : Records rootDev root kernel) {slot : Nat}
    (isMount : (kernel.inodes slot).mount = true) : slot ≠ root := by
  rintro rfl
  rw [records.isPlain] at isMount
  cases isMount

/-- Both records of a mount agree, as the code expects. -/
theorem unique (records : Records rootDev root kernel) (slot : Nat) :
    (kernel.inodes slot).mount = true ↔ ∃! sb, Covers rootDev kernel slot sb := by
  rw [records.mount]
  constructor
  · rintro ⟨sb, isCovered⟩
    exact ⟨sb, isCovered, fun other otherCovers =>
      records.once slot other sb otherCovers isCovered⟩
  · rintro ⟨sb, isCovered, _⟩
    exact ⟨sb, isCovered⟩

/-- A slot that is not in use may be filled with anything of the kind. -/
theorem spare (records : Records rootDev root kernel) {sb : Nat}
    (inRange : sb < nrSuper) (isFree : (kernel.supers sb).dev = 0)
    {super : Super} (stays : super.dev = 0) (isup : super.isup = none)
    (imount : super.imount = none) :
    Records rootDev root (kernel.setSuper sb super) := by
  have at_ (other : Nat) : (kernel.setSuper sb super).supers other =
      if other = sb then super else kernel.supers other := rfl
  have dev (other : Nat) : ((kernel.setSuper sb super).supers other).dev =
      (kernel.supers other).dev := by
    rw [at_]
    split <;> rename_i here
    · rw [here, stays, isFree]
    · rfl
  have pointers (other : Nat) :
      ((kernel.setSuper sb super).supers other).isup =
          (kernel.supers other).isup ∧
        ((kernel.setSuper sb super).supers other).imount =
          (kernel.supers other).imount := by
    rw [at_]
    split <;> rename_i here
    · rw [here, isup, imount]
      obtain ⟨noIsup, noImount⟩ := records.unused sb inRange isFree
      exact ⟨noIsup.symm, noImount.symm⟩
    · exact ⟨rfl, rfl⟩
  have covers (slot other : Nat) :
      Covers rootDev (kernel.setSuper sb super) slot other ↔
        Covers rootDev kernel slot other := by
    unfold Covers
    rw [dev, (pointers other).2]
  constructor
  · exact records.count
  · exact records.isPlain
  · exact records.num
  · exact records.isDevice
  · simp only [dev]
    exact records.rootHeld
  · intro other otherRange
    rw [dev, (pointers other).2]
    exact records.rootSuper other otherRange
  · intro first second
    rw [dev, dev]
    exact records.distinct first second
  · intro other otherRange
    rw [dev, (pointers other).1, (pointers other).2]
    exact records.unused other otherRange
  · intro other otherRange
    rw [dev, (pointers other).1]
    simp only [covers]
    exact records.used other otherRange
  · intro slot
    simp only [covers]
    exact records.mount slot
  · intro slot first second
    rw [covers, covers]
    exact records.once slot first second

section Change

variable {sb slot : Nat} {super : Super} {inode : Inode}

/-- The records where one slot of each table is filled with something else. -/
abbrev changed (kernel : Kernel) (sb slot : Nat) (super : Super)
    (inode : Inode) : Kernel :=
  (kernel.setSuper sb super).setInode slot inode

theorem changed_sb :
    (changed kernel sb slot super inode).supers sb = super := if_pos rfl

theorem changed_super {other : Nat} (different : other ≠ sb) :
    (changed kernel sb slot super inode).supers other = kernel.supers other :=
  if_neg different

theorem changed_slot :
    (changed kernel sb slot super inode).inodes slot = inode := if_pos rfl

theorem changed_inode {other : Nat} (different : other ≠ slot) :
    (changed kernel sb slot super inode).inodes other = kernel.inodes other :=
  if_neg different

theorem changed_covers {other index : Nat} (different : other ≠ sb) :
    Covers rootDev (changed kernel sb slot super inode) index other ↔
      Covers rootDev kernel index other := by
  unfold Covers
  rw [changed_super different]

/-- A device is mounted on a directory that nobody used. -/
theorem mounted (records : Records rootDev root kernel)
    (inRange : sb < nrSuper) (isFree : (kernel.supers sb).dev = 0)
    (missing : ∀ other, other < nrSuper →
      (kernel.supers other).dev ≠ super.dev)
    (notZero : super.dev ≠ 0) (isup : super.isup = none)
    (imount : super.imount = some slot)
    (wasUnused : (kernel.inodes slot).count = 0) (count : inode.count = 1)
    (mount : inode.mount = true) (num : inode.num ≠ rootIno) :
    Records rootDev root (changed kernel sb slot super inode) := by
  obtain ⟨rootSb, rootRange, isRootSb⟩ := records.rootHeld
  have notRootDev : super.dev ≠ rootDev := by
    rw [← isRootSb]
    exact (missing rootSb rootRange).symm
  have slotNotRoot : slot ≠ root := by
    rintro rfl
    have four := records.count slot
    rw [wasUnused, if_pos rfl] at four
    omega
  have wasPlain : (kernel.inodes slot).mount = false := by
    cases isMount : (kernel.inodes slot).mount with
    | false => rfl
    | true => exact absurd wasUnused (records.held isMount)
  have freeCovers (index : Nat) : ¬Covers rootDev kernel index sb := by
    rintro ⟨_, _, isCovered⟩
    rw [(records.unused sb inRange isFree).2] at isCovered
    cases isCovered
  have newCovers (index : Nat) :
      Covers rootDev (changed kernel sb slot super inode) index sb ↔
        index = slot := by
    unfold Covers
    rw [changed_sb, imount, Option.some.injEq]
    exact ⟨fun holds => holds.2.2.symm,
      fun same => ⟨inRange, notRootDev, same.symm⟩⟩
  have noOther (other : Nat) : ¬Covers rootDev kernel slot other := by
    intro isCovered
    rw [(records.mount slot).mpr ⟨other, isCovered⟩] at wasPlain
    cases wasPlain
  constructor
  · intro index
    by_cases here : index = slot
    · rw [here, changed_slot, count, mount, if_neg slotNotRoot]
      rfl
    · rw [changed_inode here]
      exact records.count index
  · rw [changed_inode slotNotRoot.symm]
    exact records.isPlain
  · intro index
    by_cases here : index = slot
    · rw [here, changed_slot]
      exact fun _ => num
    · rw [changed_inode here]
      exact records.num index
  · exact records.isDevice
  · refine ⟨rootSb, rootRange, ?_⟩
    rw [changed_super]
    · exact isRootSb
    · rintro rfl
      exact records.isDevice (isRootSb.symm.trans isFree)
  · intro other otherRange
    by_cases here : other = sb
    · rw [here, changed_sb]
      exact fun isRoot => absurd isRoot notRootDev
    · rw [changed_super here]
      exact records.rootSuper other otherRange
  · intro first second firstRange secondRange
    by_cases left : first = sb
    · by_cases right : second = sb
      · exact fun _ _ => left.trans right.symm
      · rw [left, changed_sb, changed_super right]
        exact fun _ same => absurd same.symm (missing second secondRange)
    · by_cases right : second = sb
      · rw [right, changed_sb, changed_super left]
        exact fun _ same => absurd same (missing first firstRange)
      · rw [changed_super left, changed_super right]
        exact records.distinct first second firstRange secondRange
  · intro other otherRange
    by_cases here : other = sb
    · rw [here, changed_sb]
      exact fun isZero => absurd isZero notZero
    · rw [changed_super here]
      exact records.unused other otherRange
  · intro other otherRange
    by_cases here : other = sb
    · rw [here, changed_sb]
      exact fun _ _ => ⟨isup, slot, (newCovers slot).mpr rfl⟩
    · rw [changed_super here]
      simp only [changed_covers here]
      exact records.used other otherRange
  · intro index
    by_cases here : index = slot
    · rw [here, changed_slot]
      exact ⟨fun _ => ⟨sb, (newCovers slot).mpr rfl⟩, fun _ => mount⟩
    · rw [changed_inode here, records.mount]
      constructor
      · rintro ⟨other, isCovered⟩
        refine ⟨other, (changed_covers ?_).mpr isCovered⟩
        rintro rfl
        exact freeCovers index isCovered
      · rintro ⟨other, isCovered⟩
        refine ⟨other, (changed_covers ?_).mp isCovered⟩
        rintro rfl
        exact here ((newCovers index).mp isCovered)
  · intro index first second
    by_cases left : first = sb
    · by_cases right : second = sb
      · exact fun _ _ => left.trans right.symm
      · rw [left, newCovers, changed_covers right]
        rintro rfl isCovered
        exact absurd isCovered (noOther second)
    · by_cases right : second = sb
      · rw [right, newCovers, changed_covers left]
        rintro isCovered rfl
        exact absurd isCovered (noOther first)
      · rw [changed_covers left, changed_covers right]
        exact records.once index first second

/-- A mount is undone. -/
theorem unmounted (records : Records rootDev root kernel)
    (isCovered : Covers rootDev kernel slot sb) (dev : super.dev = 0)
    (isup : super.isup = none) (imount : super.imount = none)
    (count : inode.count = 0) (mount : inode.mount = false) :
    Records rootDev root (changed kernel sb slot super inode) := by
  have wasMount := (records.mount slot).mpr ⟨sb, isCovered⟩
  have slotNotRoot := records.notRoot wasMount
  have noCover (index : Nat) :
      ¬Covers rootDev (changed kernel sb slot super inode) index sb := by
    rintro ⟨_, _, isSome⟩
    rw [changed_sb, imount] at isSome
    cases isSome
  constructor
  · intro index
    by_cases here : index = slot
    · rw [here, changed_slot, count, mount, if_neg slotNotRoot]
      rfl
    · rw [changed_inode here]
      exact records.count index
  · rw [changed_inode slotNotRoot.symm]
    exact records.isPlain
  · intro index
    by_cases here : index = slot
    · rw [here, changed_slot, mount]
      intro isMount
      cases isMount
    · rw [changed_inode here]
      exact records.num index
  · exact records.isDevice
  · obtain ⟨rootSb, rootRange, isRootSb⟩ := records.rootHeld
    refine ⟨rootSb, rootRange, ?_⟩
    rw [changed_super]
    · exact isRootSb
    · rintro rfl
      exact isCovered.2.1 isRootSb
  · intro other otherRange
    by_cases here : other = sb
    · rw [here, changed_sb, dev]
      exact fun isRoot => absurd isRoot.symm records.isDevice
    · rw [changed_super here]
      exact records.rootSuper other otherRange
  · intro first second firstRange secondRange
    by_cases left : first = sb
    · rw [left, changed_sb]
      exact fun isUsed => absurd dev isUsed
    · by_cases right : second = sb
      · rw [right, changed_sb, changed_super left]
        exact fun isUsed same => absurd (same.trans dev) isUsed
      · rw [changed_super left, changed_super right]
        exact records.distinct first second firstRange secondRange
  · intro other otherRange
    by_cases here : other = sb
    · rw [here, changed_sb]
      exact fun _ => ⟨isup, imount⟩
    · rw [changed_super here]
      exact records.unused other otherRange
  · intro other otherRange
    by_cases here : other = sb
    · rw [here, changed_sb]
      exact fun isUsed => absurd dev isUsed
    · rw [changed_super here]
      simp only [changed_covers here]
      exact records.used other otherRange
  · intro index
    by_cases here : index = slot
    · rw [here, changed_slot, mount]
      constructor
      · intro isMount
        cases isMount
      · rintro ⟨other, otherCovers⟩
        by_cases same : other = sb
        · exact absurd (same ▸ otherCovers) (noCover slot)
        · have covers := (changed_covers same).mp otherCovers
          exact absurd (records.once slot other sb covers isCovered) same
    · rw [changed_inode here, records.mount]
      constructor
      · rintro ⟨other, otherCovers⟩
        refine ⟨other, (changed_covers ?_).mpr otherCovers⟩
        rintro rfl
        exact here (Option.some.inj
          (otherCovers.2.2.symm.trans isCovered.2.2))
      · rintro ⟨other, otherCovers⟩
        refine ⟨other, (changed_covers ?_).mp otherCovers⟩
        rintro rfl
        exact noCover index otherCovers
  · intro index first second leftCovers rightCovers
    have left : first ≠ sb := by
      rintro rfl
      exact noCover index leftCovers
    have right : second ≠ sb := by
      rintro rfl
      exact noCover index rightCovers
    exact records.once index first second
      ((changed_covers left).mp leftCovers)
      ((changed_covers right).mp rightCovers)

end Change

end Records

/-! ## The references to map blocks -/

/-- The references of a slot; one that is not in use has none. -/
def Super.references (super : Super) : List Nat :=
  if super.dev = 0 then [] else super.maps

theorem Super.references_length (super : Super) :
    super.references.length ≤ 16 := by
  unfold Super.references
  split
  · exact Nat.zero_le 16
  · exact super.maps_length

/-- The blocks that the superblocks in use hold. -/
def heldMaps (supers : Nat → Super) : List Nat :=
  (List.range nrSuper).flatMap fun sb => (supers sb).references

theorem heldMaps_length (supers : Nat → Super) :
    (heldMaps supers).length ≤ 128 := by
  have upTo (count : Nat) : ((List.range count).flatMap
      fun sb => (supers sb).references).length ≤ 16 * count := by
    induction count with
    | zero => exact Nat.zero_le 0
    | succ count induction =>
        rw [List.range_succ, List.flatMap_append, List.length_append,
          List.flatMap_singleton]
        have last := (supers count).references_length
        omega
  exact upTo nrSuper

/-- A slot that changes exchanges its references. -/
theorem heldMaps_change {supers others : Nat → Super} {sb : Nat}
    (inRange : sb < nrSuper)
    (same : ∀ other, other ≠ sb → others other = supers other) :
    ((supers sb).references ++ heldMaps others).Perm
      ((others sb).references ++ heldMaps supers) := by
  have before {count : Nat} (within : count ≤ sb) :
      (List.range count).flatMap (fun sb => (others sb).references) =
        (List.range count).flatMap fun sb => (supers sb).references := by
    apply List.flatMap_congr
    intro other member
    rw [same other (by have := List.mem_range.mp member; omega)]
  have upTo (count : Nat) (inRange : sb < count) :
      ((supers sb).references ++
        (List.range count).flatMap fun sb => (others sb).references).Perm
      ((others sb).references ++
        (List.range count).flatMap fun sb => (supers sb).references) := by
    induction count with
    | zero => exact absurd inRange (Nat.not_lt_zero sb)
    | succ count induction =>
        rw [List.range_succ, List.flatMap_append, List.flatMap_append,
          List.flatMap_singleton, List.flatMap_singleton]
        rcases Nat.lt_or_ge sb count with earlier | here
        · rw [same count (Nat.ne_of_gt earlier), ← List.append_assoc,
            ← List.append_assoc]
          exact (induction earlier).append_right _
        · have isLast : count = sb := by omega
          subst isLast
          rw [before (le_refl count), ← List.append_assoc]
          exact List.perm_append_comm.trans
            (List.perm_append_comm.append_left _)
  exact upTo nrSuper inRange

theorem Super.references_free {super : Super} (isFree : super.dev = 0) :
    super.references = [] := if_pos isFree

theorem Super.references_used {super : Super} (isUsed : super.dev ≠ 0) :
    super.references = super.maps := if_neg isUsed

/-- What another superblock in a slot makes of the references. -/
theorem heldMaps_setSuper {kernel : Kernel} {sb : Nat} (inRange : sb < nrSuper)
    (super : Super) (bh : Nat) :
    (kernel.supers sb).references.count bh +
        (heldMaps (kernel.setSuper sb super).supers).count bh =
      super.references.count bh + (heldMaps kernel.supers).count bh := by
  have exchanged := @heldMaps_change kernel.supers
    (kernel.setSuper sb super).supers sb inRange fun other different =>
      if_neg different
  have is : (kernel.setSuper sb super).supers sb = super := if_pos rfl
  rw [is] at exchanged
  have counts := exchanged.count_eq bh
  rw [List.count_append, List.count_append] at counts
  exact counts

/-! ## Between two calls -/

/-- The state of the tables while no call is under way. -/
structure Mounts (rootDev root : Nat) (kernel : Kernel) : Prop where
  lists : Lists kernel
  buffer : ∀ bh, (kernel.buffers bh).count = (heldMaps kernel.supers).count bh
  records : Records rootDev root kernel

theorem findMount_finds {kernel : Kernel} {slot sb count index : Nat}
    (isCovered : (kernel.supers sb).imount = some slot)
    (from_ : index ≤ sb) (inRange : sb < index + count) :
    ∃ found, findMount kernel slot count index = some found := by
  induction count generalizing index with
  | zero => omega
  | succ count induction =>
      unfold findMount
      split <;> rename_i here
      · exact ⟨index, rfl⟩
      · refine induction ?_ (by omega)
        rcases Nat.eq_or_lt_of_le from_ with same | later
        · rw [same] at here
          exact absurd isCovered here
        · exact later

section Mounted

variable {rootDev root : Nat} {base kernel : Kernel} {bufs : List Nat}

theorem Records.small (records : Records rootDev root kernel) (slot : Nat) :
    (kernel.inodes slot).count ≤ 5 := by
  rw [records.count]
  have flag := Bool.toNat_le (kernel.inodes slot).mount
  split <;> omega

theorem Records.grounded (records : Records rootDev root kernel)
    (room : HasRoom kernel) : Grounded kernel where
  room := room
  held := fun _ isMount => records.held isMount
  num := records.num
  super := by
    intro slot isMount
    obtain ⟨sb, inRange, _, isCovered⟩ := (records.mount slot).mp isMount
    exact findMount_finds isCovered (Nat.zero_le sb)
      (by rw [Nat.zero_add]; exact inRange)

theorem Mounts.space (mounts : Mounts rootDev root kernel) :
    HasSpace kernel 16 where
  buffer := by
    intro bh
    have most : (heldMaps kernel.supers).count bh ≤ _ := List.count_le_length
    have length := heldMaps_length kernel.supers
    rw [mounts.buffer]
    omega
  inode := by
    intro slot
    have small := mounts.records.small slot
    omega

theorem Mounts.grounded (mounts : Mounts rootDev root kernel) :
    Grounded kernel :=
  mounts.records.grounded mounts.space.bare

theorem Mounts.begin (mounts : Mounts rootDev root kernel) :
    Walking kernel [] [] kernel :=
  ⟨Keeping.begin mounts.lists, Tabled.refl kernel⟩

/-- The superblock and the inode that is held change along with the records. -/
theorem Slotted.changed {sb slot : Nat} {super other : Super} {inode : Inode}
    (slotted : Slotted base sb super bufs [slot] kernel) :
    Walking (Records.changed base sb slot other inode) bufs []
      (Records.changed kernel sb slot other inode) := by
  have holding := slotted.holding
  refine ⟨⟨holding.size, holding.lists.congr
    (SameLists.elsewhere rfl rfl rfl rfl), holding.buffer, ?_⟩,
    slotted.slot.tabled.supers, ?_, ?_⟩
  · intro index
    by_cases here : index = slot
    · rw [here, Records.changed_slot, Records.changed_slot]
      rfl
    · have count := holding.inode index
      rw [List.count_singleton, if_neg (by simpa using Ne.symm here)] at count
      rw [Records.changed_inode here, Records.changed_inode here]
      exact count
  · intro index
    by_cases here : index = slot
    · rw [here, Records.changed_slot, Records.changed_slot]
    · rw [Records.changed_inode here, Records.changed_inode here]
      exact slotted.tabled.mount index
  · intro index isUsed
    by_cases here : index = slot
    · rw [here, Records.changed_slot, Records.changed_slot]
    · rw [Records.changed_inode here] at isUsed
      rw [Records.changed_inode here, Records.changed_inode here]
      exact slotted.tabled.num index isUsed

/-- What a call that holds nothing any more leaves behind. -/
theorem Records.settled (records : Records rootDev root base)
    (walking : Walking base bufs [] kernel)
    (held : ∀ bh, (base.buffers bh).count + bufs.count bh =
      (heldMaps base.supers).count bh) :
    Mounts rootDev root kernel where
  lists := walking.holding.lists
  buffer := by
    intro bh
    rw [walking.tabled.supers, walking.holding.buffer, held]
  records := by
    refine records.congr walking.tabled.supers walking.tabled.mount ?_
      walking.tabled.num
    intro slot
    rw [walking.holding.inode]
    rfl

theorem Mounts.walked (mounts : Mounts rootDev root base)
    (walking : Walking base [] [] kernel) : Mounts rootDev root kernel :=
  mounts.records.settled walking mounts.buffer

end Mounted

end Linux011.Fs
