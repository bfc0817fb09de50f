import Linux011.Fs.Namei
import Linux011.Fs.Volumes
import Linux011.Fs.ZoneTree

/-!
# The block map of a file

`bmap` reads the tree of the zones of a file, and `create_block` fills the
slots on the way to a block where they are empty.  Each new zone was free and
is blank, so that it brings no further block into the tree: all other blocks
of the file keep their zones.
-/

namespace Linux011.Fs

open Coop Prog

/-- The tree of the zones of an in-core inode. -/
def Kernel.tree (kernel : Kernel) (index : Nat) : ZoneTree where
  root := (kernel.inodes index).zone
  word zone entry :=
    shortAt (kernel.content (kernel.inodes index).dev zone) (2 * entry)

/-- A data zone that is marked in the zone map. -/
structure InUse (super : Super) (kernel : Kernel) (zone : Nat) : Prop where
  lower : super.firstdatazone ≤ zone
  upper : zone < super.nzones
  isUsed : mapBit kernel super.zmap (zone + 1 - super.firstdatazone) = some true

/-- A file of a volume, with indirect blocks that are well formed: they are
data zones in use, and no two are the same. -/
structure FileMapped (dev sb limit index : Nat) (kernel : Kernel) : Prop where
  volume : Volume dev sb limit kernel
  isDev : (kernel.inodes index).dev = dev
  apart : (kernel.tree index).Apart
  inUse : ∀ block : Indirect, block.Valid → (kernel.tree index).block block ≠ 0 →
    InUse (kernel.supers sb) kernel ((kernel.tree index).block block)

/-- The zones that the block map of a file may write to: its own indirect
blocks, and whatever is not in use. -/
def Kernel.ownZones (kernel : Kernel) (sb index : Nat) : Set Nat :=
  fun zone => ¬InUse (kernel.supers sb) kernel zone ∨
    ∃ block : Indirect, block.Valid ∧ (kernel.tree index).block block = zone

/-- Slots of a file have been filled, those of a path at most.  No zone of the
file is lost, and no other zone in use is written to. -/
structure Extended (dev sb limit index : Nat) (path : List ZoneSlot)
    (kernel next : Kernel) : Prop
    extends Advanced dev sb limit 0 (kernel.ownZones sb index) kernel next where
  mapped : FileMapped dev sb limit index next
  other : ∀ other, other ≠ index → ∃ dirt lock,
    next.inodes other = { kernel.inodes other with dirt, lock }
  own : ∃ zone ctime dirt lock,
    next.inodes index = { kernel.inodes index with zone, ctime, dirt, lock }
  value : ∀ slot : ZoneSlot, slot.Valid → slot ∉ path →
    (next.tree index).value slot = (kernel.tree index).value slot
  kept : ∀ slot : ZoneSlot, slot.Valid → (kernel.tree index).value slot ≠ 0 →
    (next.tree index).value slot = (kernel.tree index).value slot
  blocks : ∀ block : Indirect, block.Valid →
    (next.tree index).block block = (kernel.tree index).block block ∨
      mapBit kernel (kernel.supers sb).zmap ((next.tree index).block block + 1 -
        (kernel.supers sb).firstdatazone) = some false

/-- One slot has this value now.  Where it was empty, the zone is a new one. -/
structure SlotFilled (dev sb limit index : Nat) (slot : ZoneSlot) (zone : Nat)
    (kernel next : Kernel) : Prop
    extends Extended dev sb limit index [slot] kernel next where
  filled : (next.tree index).value slot = zone
  fresh : (kernel.tree index).value slot = 0 → zone ≠ 0 →
    FreshZone dev (kernel.supers sb) kernel next zone

section Extended

variable {dev sb limit index : Nat} {kernel middle next : Kernel}
  {path further : List ZoneSlot}

theorem InUse.notFree {super : Super} {zone : Nat}
    (inUse : InUse super kernel zone) :
    mapBit kernel super.zmap (zone + 1 - super.firstdatazone) ≠ some false := by
  rw [inUse.isUsed]
  exact nofun

theorem Volume.notInUse_zero (volume : Volume dev sb limit kernel) :
    ¬InUse (kernel.supers sb) kernel 0 := by
  intro inUse
  have lower := inUse.lower
  have ordered := volume.ordered
  unfold Super.tableStart at ordered
  omega

/-- The zones in use stay so. -/
theorem Advanced.inUse {gain : Nat → Nat} {touched : Set Nat}
    (advanced : Advanced dev sb limit gain touched kernel next) {zone : Nat}
    (inUse : InUse (kernel.supers sb) kernel zone) :
    InUse (next.supers sb) next zone := by
  rw [advanced.carried.supers]
  exact ⟨inUse.lower, inUse.upper, advanced.bits _ inUse.isUsed⟩

theorem FreshZone.inUse {super : Super} {zone : Nat}
    (fresh : FreshZone dev super kernel next zone) : InUse super next zone :=
  ⟨fresh.lower, fresh.upper, fresh.isUsed⟩

/-- The words of a zone whose content is the same. -/
theorem shortAt_same {first second : Block} {entry : Nat} (inBlock : entry < 512)
    (same : ∀ offset, offset < 1024 → second offset = first offset) :
    shortAt second (2 * entry) = shortAt first (2 * entry) := by
  unfold shortAt
  rw [same _ (by omega), same _ (by omega)]

/-- What the file owns later is its own or free now. -/
theorem Extended.ownZones (extended : Extended dev sb limit index path kernel middle) :
    middle.ownZones sb index ⊆ kernel.ownZones sb index := by
  rintro zone (notInUse | ⟨block, valid, isBlock⟩)
  · exact .inl fun inUse => notInUse (extended.inUse inUse)
  · obtain same | isFree := extended.blocks block valid
    · exact .inr ⟨block, valid, same.symm.trans isBlock⟩
    · rw [isBlock] at isFree
      exact .inl fun inUse => inUse.notFree isFree

theorem Extended.trans
    (before : Extended dev sb limit index path kernel middle)
    (after : Extended dev sb limit index further middle next) :
    Extended dev sb limit index (path ++ further) kernel next where
  toAdvanced :=
    { before.toAdvanced.trans (after.toAdvanced.touching before.ownZones) with
      carried := (before.carried.trans after.carried).gains fun bh =>
        Nat.zero_add 0 }
  mapped := after.mapped
  other := by
    intro other different
    obtain ⟨_, _, wasSame⟩ := before.other other different
    obtain ⟨dirt, lock, isSame⟩ := after.other other different
    exact ⟨dirt, lock, by rw [isSame, wasSame]⟩
  own := by
    obtain ⟨_, _, _, _, wasSame⟩ := before.own
    obtain ⟨zone, ctime, dirt, lock, isSame⟩ := after.own
    exact ⟨zone, ctime, dirt, lock, by rw [isSame, wasSame]⟩
  value := by
    intro slot valid outside
    rw [List.mem_append, not_or] at outside
    rw [after.value slot valid outside.2, before.value slot valid outside.1]
  kept := by
    intro slot valid isZone
    have same := before.kept slot valid isZone
    rw [after.kept slot valid (same ▸ isZone), same]
  blocks := by
    intro block valid
    obtain same | isFree := after.blocks block valid
    · rw [same]
      exact before.blocks block valid
    · rw [before.carried.supers] at isFree
      exact .inr (before.frees _ isFree)

/-- Work that fills no slot. -/
theorem FileMapped.passed (mapped : FileMapped dev sb limit index kernel)
    {touched : Set Nat} (passed : Passed dev sb limit 0 touched kernel next)
    (unused : ∀ zone ∈ touched, ¬InUse (kernel.supers sb) kernel zone) :
    Extended dev sb limit index [] kernel next := by
  obtain ⟨_, _, sameInode⟩ := passed.inode index
  have isDev : (next.inodes index).dev = dev := by
    rw [sameInode]
    exact mapped.isDev
  have sameTree : (kernel.tree index).Same (next.tree index) := by
    refine ⟨?_, ?_⟩
    · intro entry
      show (next.inodes index).zone entry = (kernel.inodes index).zone entry
      rw [sameInode]
    · intro block entry valid inBlock isZone
      have inUse := mapped.inUse block valid isZone
      show shortAt (next.content (next.inodes index).dev _) _ =
        shortAt (kernel.content (kernel.inodes index).dev _) _
      rw [isDev, mapped.isDev]
      exact shortAt_same inBlock fun offset => passed.data _ offset inUse.lower
        fun isTouched => unused _ isTouched inUse
  have blocks (block : Indirect) (valid : block.Valid) :
      (next.tree index).block block = (kernel.tree index).block block :=
    sameTree.block valid
  refine ⟨passed.toAdvanced.touching fun zone isTouched =>
    .inl (unused zone isTouched), ⟨passed.volume, isDev, ?_, ?_⟩,
    fun other _ => passed.inode other, ?_, ?_, ?_, ?_⟩
  · intro first second firstValid secondValid same isZone
    rw [blocks first firstValid] at same isZone
    rw [blocks second secondValid] at same
    exact mapped.apart first second firstValid secondValid same isZone
  · intro block valid isZone
    rw [blocks block valid] at isZone ⊢
    exact passed.toAdvanced.inUse (mapped.inUse block valid isZone)
  · exact ⟨_, _, _, _, sameInode⟩
  · exact fun slot valid _ => sameTree.value valid
  · exact fun slot valid _ => sameTree.value valid
  · exact fun block valid => .inl (blocks block valid)

/-- A new zone is put into an empty slot. -/
theorem FileMapped.fill (mapped : FileMapped dev sb limit index kernel)
    (advanced : Advanced dev sb limit 0 (kernel.ownZones sb index) kernel next)
    (other : ∀ other, other ≠ index → ∃ dirt lock,
      next.inodes other = { kernel.inodes other with dirt, lock })
    (own : ∃ zone ctime dirt lock,
      next.inodes index = { kernel.inodes index with zone, ctime, dirt, lock })
    {slot : ZoneSlot} {zone : Nat} (valid : slot.Valid)
    (empty : (kernel.tree index).value slot = 0)
    (inBlock : ∀ block entry, slot = .cell block entry →
      (kernel.tree index).block block ≠ 0)
    (fresh : FreshZone dev (kernel.supers sb) kernel next zone)
    (fills : (kernel.tree index).Fills (next.tree index) slot zone) :
    SlotFilled dev sb limit index slot zone kernel next := by
  have ordered := mapped.volume.ordered
  have lower := fresh.lower
  unfold Super.tableStart at ordered
  have fillable : (kernel.tree index).Fillable slot zone := by
    refine ⟨by omega, empty, ?_, inBlock⟩
    intro block blockValid same
    have inUse := mapped.inUse block blockValid (by omega)
    rw [same] at inUse
    exact inUse.notFree fresh.wasFree
  have values {other : ZoneSlot} (otherValid : other.Valid) :
      (next.tree index).value other =
        if slot = other then zone else (kernel.tree index).value other :=
    fills.value fillable otherValid
  have blocks {block : Indirect} (blockValid : block.Valid) :
      (next.tree index).block block =
        if slot = block.slot then zone else (kernel.tree index).block block :=
    fills.block fillable blockValid
  refine ⟨⟨advanced, ⟨advanced.volume, ?_, fills.apart fillable mapped.apart, ?_⟩,
    other, own, ?_, ?_, ?_⟩, ?_, fun _ _ => fresh⟩
  · obtain ⟨_, _, _, _, same⟩ := own
    rw [same]
    exact mapped.isDev
  · intro block blockValid isZone
    rw [blocks blockValid] at isZone ⊢
    split at isZone <;> rename_i isOwn
    · rw [if_pos isOwn, advanced.carried.supers]
      exact fresh.inUse
    · rw [if_neg isOwn]
      exact advanced.inUse (mapped.inUse block blockValid isZone)
  · intro other otherValid outside
    rw [values otherValid, if_neg]
    rintro rfl
    exact outside (List.mem_singleton_self slot)
  · intro other otherValid isZone
    rw [values otherValid, if_neg]
    rintro rfl
    exact isZone empty
  · intro block blockValid
    rw [blocks blockValid]
    split
    · exact .inr fresh.wasFree
    · exact .inl rfl
  · rw [values valid, if_pos rfl]

/-- A slot that is left as it is. -/
theorem Extended.unfilled (extended : Extended dev sb limit index [] kernel next)
    {slot : ZoneSlot} (valid : slot.Valid) :
    SlotFilled dev sb limit index slot ((kernel.tree index).value slot) kernel
      next where
  toExtended := { extended with
    value := fun other otherValid _ =>
      extended.value other otherValid List.not_mem_nil }
  filled := extended.value slot valid List.not_mem_nil
  fresh := fun empty isZone => absurd empty isZone

theorem FileMapped.unfilled (mapped : FileMapped dev sb limit index kernel)
    {slot : ZoneSlot} (valid : slot.Valid) :
    SlotFilled dev sb limit index slot ((kernel.tree index).value slot) kernel
      kernel := by
  have passed : Passed dev sb limit 0 ∅ kernel kernel :=
    mapped.volume.passed (.refl kernel) mapped.volume
  exact (mapped.passed passed fun _ isIn => isIn.elim).unfilled valid

end Extended

/-! ## Filling one slot -/

section Slots

variable {dev sb limit index : Nat} {kernel : Kernel}

theorem setZone_same {inode : Inode} {entry value : Nat}
    (same : inode.zone entry = value) : inode.setZone entry value = inode := by
  unfold Inode.setZone
  have zones : (fun other => if other = entry then value else inode.zone other) =
      inode.zone := by
    funext other
    split <;> rename_i here
    · rw [here, same]
    · rfl
  rw [zones]

theorem setInode_same (kernel : Kernel) (index : Nat) :
    kernel.setInode index (kernel.inodes index) = kernel := by
  unfold Kernel.setInode
  have inodes : (fun other => if other = index then kernel.inodes index
      else kernel.inodes other) = kernel.inodes := by
    funext other
    split <;> rename_i here
    · rw [here]
    · rfl
  rw [inodes]

/-- The new zone is put into the inode. -/
theorem Allocated.root {middle : Kernel} {entry zone : Nat}
    (allocated : Allocated dev sb limit kernel middle zone)
    (mapped : FileMapped dev sb limit index kernel) (valid : entry < 9)
    (empty : (kernel.inodes index).zone entry = 0) (isZone : zone ≠ 0)
    (now : Nat) :
    SlotFilled dev sb limit index (.root entry) zone kernel
      (middle.setInode index
        { (middle.inodes index).setZone entry zone with
          ctime := now
          dirt := true }) := by
  have fresh := allocated.fresh isZone
  obtain ⟨_, lock, sameInode⟩ := allocated.inode index
  have isDev : (middle.inodes index).dev = dev := by
    rw [sameInode]
    exact mapped.isDev
  have notIn : ¬InUse (kernel.supers sb) kernel zone :=
    fun inUse => inUse.notFree fresh.wasFree
  have own : (middle.setInode index
      { (middle.inodes index).setZone entry zone with
        ctime := now
        dirt := true }).inodes index =
      { (kernel.inodes index).setZone entry zone with
        ctime := now
        dirt := true
        lock } := by
    show (if index = index then _ else _) = _
    rw [if_pos rfl, sameInode]
    rfl
  apply mapped.fill
  · have advanced : Advanced dev sb limit 0 (kernel.ownZones sb index) kernel
        middle := by
      apply allocated.toAdvanced.touching
      rintro _ rfl
      exact .inl notIn
    exact advanced.setInode rfl rfl isDev
  · intro other different
    obtain ⟨dirt, lock, same⟩ := allocated.inode other
    refine ⟨dirt, lock, ?_⟩
    rw [← same]
    exact if_neg different
  · exact ⟨_, _, _, _, own⟩
  · exact valid
  · exact empty
  · exact nofun
  · exact ⟨fresh.lower, fresh.upper, fresh.wasFree, fresh.isUsed, fresh.blank⟩
  · refine ⟨?_, ?_, ?_⟩
    · intro other
      show ((middle.setInode index _).inodes index).zone other = _
      rw [own]
      show (if other = entry then zone else (kernel.inodes index).zone other) = _
      by_cases here : other = entry
      · rw [here, if_pos rfl, if_pos rfl]
      · rw [if_neg here, if_neg fun same => here (ZoneSlot.root.inj same).symm]
        rfl
    · intro block other blockValid inBlock isIndirect
      have inUse := mapped.inUse block blockValid isIndirect
      rw [if_neg nofun]
      show shortAt (middle.content ((middle.setInode index _).inodes index).dev _)
          _ = shortAt (kernel.content (kernel.inodes index).dev _) _
      rw [own]
      show shortAt (middle.content (kernel.inodes index).dev _) _ = _
      rw [mapped.isDev]
      apply shortAt_same inBlock
      intro offset
      apply allocated.data _ offset inUse.lower
      rintro isNew
      exact notIn (isNew ▸ inUse)
    · intro other inBlock
      show shortAt (middle.content ((middle.setInode index _).inodes index).dev _)
          _ = 0
      rw [own]
      show shortAt (middle.content (kernel.inodes index).dev _) _ = 0
      rw [mapped.isDev]
      unfold shortAt
      rw [fresh.blank _ (by omega), fresh.blank _ (by omega)]
      rfl

/-- Where `new_block` returns 0, nothing is filled. -/
theorem Allocated.none {middle : Kernel}
    (allocated : Allocated dev sb limit kernel middle 0)
    (mapped : FileMapped dev sb limit index kernel) :
    Extended dev sb limit index [] kernel middle := by
  apply mapped.passed allocated.toPassed
  rintro _ rfl
  exact mapped.volume.notInUse_zero

/-- Zones fit into the words of the disk. -/
theorem Allocated.small {middle : Kernel} {zone : Nat}
    (allocated : Allocated dev sb limit kernel middle zone)
    (volume : Volume dev sb limit kernel) : zone < 65536 := by
  by_cases isZone : zone = 0
  · rw [isZone]
    decide
  · exact (allocated.fresh isZone).upper.trans volume.short

theorem FileMapped.createZone_marks
    (mapped : FileMapped dev sb limit index kernel) (room : limit < 255)
    {entry : Nat} (valid : entry < 9) (fuel : Nat) (create : Bool) :
    (createZone fuel index entry create).wp .uncrossed Io
      (fun _ next => SlotFilled dev sb limit index (.root entry)
          ((next.inodes index).zone entry) kernel next ∧
        (create = true → Marks sb ((next.inodes index).zone entry) kernel next))
      kernel := by
  unfold createZone
  rw [wp_bind, wp_get]
  split <;> rename_i empty
  · rw [wp_bind, mapped.isDev]
    apply wp_mono (mapped.volume.newBlock_marks room fuel)
    rintro zone middle ⟨allocated, marks⟩
    have small : zone % 65536 = zone :=
      Nat.mod_eq_of_lt (allocated.small mapped.volume)
    rw [wp_bind, wp_get, small]
    unfold onInode
    rw [wp_modify]
    dsimp only
    by_cases isZone : zone = 0
    · subst isZone
      have extended := allocated.none mapped
      obtain ⟨_, _, sameInode⟩ := allocated.inode index
      have stillEmpty : (middle.inodes index).zone entry = 0 := by
        rw [sameInode]
        exact empty.2
      rw [if_pos rfl, setZone_same stillEmpty, setInode_same, stillEmpty]
      refine ⟨?_, fun _ => marks⟩
      rw [← empty.2]
      exact extended.unfilled valid
    · have filled := allocated.root mapped valid empty.2 isZone middle.now
      rw [if_neg isZone]
      have isOwn : ((middle.setInode index
          { (middle.inodes index).setZone entry zone with
            ctime := middle.now
            dirt := true }).inodes index).zone entry = zone := filled.filled
      rw [isOwn]
      exact ⟨filled, fun _ => marks.after allocated.carried.supers fun _ => rfl⟩
  · refine ⟨mapped.unfilled valid, fun isCreate => ⟨fun _ _ _ _ _ => rfl, ?_⟩⟩
    intro isZero
    rw [isCreate] at empty
    exact absurd ⟨rfl, isZero⟩ empty

/-- The words of a block, once one of them is stored. -/
theorem shortAt_store {value : Nat} (small : value < 65536) (data : Block)
    (entry other : Nat) :
    shortAt (storeShort (2 * entry) value data) (2 * other) =
      if other = entry then value else shortAt data (2 * other) := by
  unfold shortAt storeShort
  by_cases here : other = entry
  · subst here
    simp only [if_true, if_neg (show 2 * other + 1 ≠ 2 * other by omega),
      UInt8.toNat_ofNat']
    omega
  · rw [if_neg here]
    simp only [if_neg (show 2 * other ≠ 2 * entry by omega),
      if_neg (show 2 * other ≠ 2 * entry + 1 by omega),
      if_neg (show 2 * other + 1 ≠ 2 * entry by omega),
      if_neg (show 2 * other + 1 ≠ 2 * entry + 1 by omega)]

section Indirect

variable {block : Indirect} {entry bh : Nat} {got : Kernel}

/-- The words of the buffer of an indirect block are those of the tree. -/
theorem FileMapped.word_read (mapped : FileMapped dev sb limit index kernel)
    (valid : block.Valid) (isZone : (kernel.tree index).block block ≠ 0)
    (inBlock : entry < 512)
    (read : Read kernel dev ((kernel.tree index).block block) bh got) :
    shortAt (got.buffers bh).data (2 * entry) =
      (kernel.tree index).value (.cell block entry) := by
  have inUse := mapped.inUse block valid isZone
  have content := (mapped.volume.got read.toGot).content_held read.isBuffer
    read.isFor.1 read.fresh
  rw [read.isFor.2] at content
  show _ = (kernel.tree index).cell _ entry
  rw [ZoneTree.cell_zone isZone, ← content]
  show _ = shortAt (kernel.content (kernel.inodes index).dev _) _
  rw [mapped.isDev]
  exact shortAt_same inBlock fun offset isOffset =>
    (mapped.volume.taken read.toGot).data _ offset inUse.lower (fun isIn => isIn)
      isOffset

/-- What is known of an indirect block that is held while `new_block` runs. -/
structure HeldBlock (dev zone bh : Nat) (kernel : Kernel) : Prop where
  isBuffer : bh < kernel.nrBuffers
  isFresh : (kernel.buffers bh).uptodate = true
  isDev : (kernel.buffers bh).dev = dev
  isBlock : (kernel.buffers bh).block = zone

theorem Allocated.held {alloc : Kernel} {number zone : Nat}
    (allocated : Allocated dev sb (limit + 1) got alloc zone)
    (read : Read kernel dev number bh got) : HeldBlock dev number bh alloc := by
  have isHeld : 0 < (got.buffers bh).count := by
    rw [read.settled.count, one_same]
    omega
  obtain ⟨sameDev, sameBlock, stillFresh⟩ := allocated.carried.held bh isHeld
  refine ⟨?_, stillFresh read.fresh, sameDev.trans read.isFor.1,
    sameBlock.trans read.isFor.2⟩
  rw [allocated.carried.size]
  exact read.isBuffer

/-- The block is written to. -/
theorem Allocated.edited {alloc : Kernel} {number zone : Nat}
    (allocated : Allocated dev sb (limit + 1) got alloc zone)
    (read : Read kernel dev number bh got)
    (inUse : InUse (kernel.supers sb) kernel number) (data : Block) :
    Passed dev sb (limit + 1) 0 {number} alloc (alloc.edit bh data true) := by
  have held := allocated.held read
  have supers : alloc.supers = kernel.supers :=
    allocated.carried.supers.trans read.settled.supers
  rw [← held.isBlock]
  apply allocated.volume.edited held.isBuffer (.inl held.isFresh) held.isDev
  · rw [held.isBlock, supers]
    exact inUse.lower
  · rw [held.isBlock, supers]
    exact inUse.upper

/-- A new zone, and an indirect block with a new content. -/
structure Linked (dev sb limit number zone : Nat) (bytes : Block)
    (kernel next : Kernel) : Prop
    extends Passed dev sb limit 0 {zone, number} kernel next where
  different : zone ≠ number
  content : ∀ offset, offset < 1024 →
    next.content dev number offset = bytes offset
  fresh : FreshZone dev (kernel.supers sb) kernel next zone

theorem Allocated.linked {alloc next : Kernel} {number zone : Nat} {data : Block}
    (allocated : Allocated dev sb (limit + 1) got alloc zone)
    (volume : Volume dev sb limit kernel)
    (read : Read kernel dev number bh got)
    (inUse : InUse (kernel.supers sb) kernel number) (isZone : zone ≠ 0)
    (released : Released bh (alloc.edit bh data true) next) :
    Linked dev sb limit number zone data kernel next := by
  have held := allocated.held read
  have edited := allocated.edited read inUse data
  have taken := volume.taken read.toGot
  have fresh := allocated.fresh isZone
  have supers := taken.carried.supers
  have lower := fresh.lower
  have upper := fresh.upper
  have wasFree := fresh.wasFree
  rw [supers] at lower upper wasFree
  have isFree := taken.frees _ wasFree
  have different : zone ≠ number := by
    rintro rfl
    exact inUse.notFree isFree
  have passed : Passed dev sb limit 0 {zone, number} kernel next := by
    have made := ((taken.touching (Set.empty_subset {zone, number})).trans
      (allocated.toPassed.touching (Set.singleton_subset_iff.mpr
        (Set.mem_insert zone {number})))).trans
      (edited.touching (Set.subset_insert zone {number}))
    exact (made.gains fun _ => Nat.add_zero _).released volume released
  have content (other offset : Nat) (isOffset : offset < 1024) :
      next.content dev other offset =
        if other = number then data offset
        else alloc.content dev other offset := by
    rw [released.content dev other offset volume.hasDev isOffset,
      edit_content allocated.volume.sound held.isBuffer
        ⟨held.isDev, held.isBlock⟩ volume.hasDev volume.hasDev]
    by_cases here : other = number
    · rw [if_pos ⟨rfl, here⟩, if_pos here]
    · rw [if_neg fun both => here both.2, if_neg here]
  refine ⟨passed, different, ?_, lower, upper, isFree, ?_, ?_⟩
  · intro offset isOffset
    rw [content number offset isOffset, if_pos rfl]
  · have isUsed := edited.bits _ (allocated.carried.supers ▸ fresh.isUsed)
    have sameBit := released.mapBit edited.volume
      (zone + 1 - (kernel.supers sb).firstdatazone)
    rw [allocated.carried.supers, supers] at isUsed
    rw [edited.carried.supers, allocated.carried.supers, supers] at sameBit
    rw [sameBit]
    exact isUsed
  · intro offset isOffset
    rw [content zone offset isOffset, if_neg different]
    exact fresh.blank offset isOffset

/-- The words of the file, where one word of an indirect block is new. -/
theorem Linked.fills {next : Kernel} {zone : Nat} {data : Block}
    (linked : Linked dev sb limit ((kernel.tree index).block block) zone data
      kernel next)
    (mapped : FileMapped dev sb limit index kernel) (valid : block.Valid)
    (words : ∀ other, other < 512 → shortAt data (2 * other) =
      if other = entry then zone
      else (kernel.tree index).word ((kernel.tree index).block block) other) :
    (kernel.tree index).Fills (next.tree index) (.cell block entry) zone := by
  obtain ⟨_, _, sameInode⟩ := linked.inode index
  have isDev : (next.inodes index).dev = dev := by
    rw [sameInode]
    exact mapped.isDev
  refine ⟨?_, ?_, ?_⟩
  · intro other
    rw [if_neg nofun]
    show (next.inodes index).zone other = (kernel.inodes index).zone other
    rw [sameInode]
  · intro other place otherValid inBlock isOther
    have inUse := mapped.inUse other otherValid isOther
    show shortAt (next.content (next.inodes index).dev _) _ = _
    rw [isDev]
    by_cases same : other = block
    · subst same
      have stored : shortAt (next.content dev ((kernel.tree index).block other))
          (2 * place) = shortAt data (2 * place) :=
        shortAt_same inBlock linked.content
      rw [stored, words place inBlock]
      by_cases here : place = entry
      · rw [if_pos here, if_pos (by rw [here])]
      · rw [if_neg here, if_neg fun isCell =>
          here (ZoneSlot.cell.inj isCell).2.symm]
    · rw [if_neg fun isCell => same (ZoneSlot.cell.inj isCell).1.symm]
      show _ = shortAt (kernel.content (kernel.inodes index).dev _) _
      rw [mapped.isDev]
      apply shortAt_same inBlock
      intro offset isOffset
      apply linked.data _ offset inUse.lower _ isOffset
      rintro (isNew | isBlock)
      · rw [isNew] at inUse
        exact inUse.notFree linked.fresh.wasFree
      · exact same (mapped.apart other block otherValid valid isBlock isOther)
  · intro other isOther
    show shortAt (next.content (next.inodes index).dev _) _ = 0
    rw [isDev]
    unfold shortAt
    rw [linked.fresh.blank _ (by omega), linked.fresh.blank _ (by omega)]
    rfl

/-- The new zone is put into an indirect block, which is given back. -/
theorem Allocated.cell {alloc next : Kernel} {zone : Nat}
    (allocated : Allocated dev sb (limit + 1) got alloc zone)
    (mapped : FileMapped dev sb limit index kernel) (valid : block.Valid)
    (isIndirect : (kernel.tree index).block block ≠ 0) (inBlock : entry < 512)
    (read : Read kernel dev ((kernel.tree index).block block) bh got)
    (empty : (kernel.tree index).value (.cell block entry) = 0)
    (isZone : zone ≠ 0)
    (released : Released bh (alloc.edit bh
      (storeShort (2 * entry) zone (alloc.buffers bh).data) true) next) :
    SlotFilled dev sb limit index (.cell block entry) zone kernel next := by
  have inUse := mapped.inUse block valid isIndirect
  have held := allocated.held read
  have taken := mapped.volume.taken read.toGot
  have linked := allocated.linked mapped.volume read inUse isZone released
  have words (other : Nat) (isOther : other < 512) :
      shortAt (storeShort (2 * entry) zone (alloc.buffers bh).data) (2 * other) =
        if other = entry then zone
        else (kernel.tree index).word ((kernel.tree index).block block) other := by
    rw [shortAt_store (allocated.small (mapped.volume.got read.toGot))]
    have old : shortAt (alloc.buffers bh).data (2 * other) =
        shortAt (kernel.content dev ((kernel.tree index).block block))
          (2 * other) := by
      rw [← allocated.volume.content_held held.isBuffer held.isDev held.isFresh,
        held.isBlock]
      apply shortAt_same isOther
      intro offset isOffset
      rw [allocated.data _ offset (taken.carried.supers ▸ inUse.lower)
        (fun isIn => linked.different isIn.symm) isOffset]
      exact taken.data _ offset inUse.lower (fun isIn => isIn) isOffset
    rw [old]
    show _ = if other = entry then zone
      else shortAt (kernel.content (kernel.inodes index).dev _) _
    rw [mapped.isDev]
  obtain ⟨_, _, sameInode⟩ := linked.inode index
  apply mapped.fill
  · apply linked.toAdvanced.touching
    rintro _ (rfl | rfl)
    · exact .inl fun isIn => isIn.notFree linked.fresh.wasFree
    · exact .inr ⟨block, valid, rfl⟩
  · exact fun other _ => linked.inode other
  · exact ⟨_, _, _, _, sameInode⟩
  · exact ⟨valid, inBlock⟩
  · exact empty
  · intro _ _ same
    cases same
    exact isIndirect
  · exact linked.fresh
  · exact linked.fills mapped valid words

/-- The indirect block is given back as it was read. -/
theorem FileMapped.returned {alloc next : Kernel}
    (mapped : FileMapped dev sb limit index kernel) (valid : block.Valid)
    (inBlock : entry < 512)
    (read : Read kernel dev ((kernel.tree index).block block) bh got)
    (allocated : Allocated dev sb (limit + 1) got alloc 0)
    (released : Released bh alloc next) :
    SlotFilled dev sb limit index (.cell block entry)
      ((kernel.tree index).value (.cell block entry)) kernel next := by
  have taken := (mapped.volume.taken read.toGot).touching
    (Set.empty_subset {0})
  have passed : Passed dev sb limit 0 {0} kernel next :=
    ((taken.trans allocated.toPassed).gains fun _ => Nat.add_zero _).released
      mapped.volume released
  have extended : Extended dev sb limit index [] kernel next := by
    apply mapped.passed passed
    rintro _ rfl
    exact mapped.volume.notInUse_zero
  exact extended.unfilled ⟨valid, inBlock⟩

/-- What was done to the zone map while the block was held. -/
theorem Marks.held {alloc next : Kernel} {number zone : Nat}
    (marks : Marks sb zone got alloc) (volume : Volume dev sb limit kernel)
    (read : Read kernel dev number bh got)
    (supers : alloc.supers = got.supers) (same : SameBits sb alloc next) :
    Marks sb zone kernel next :=
  (marks.after supers same).before read.settled.supers
    (volume.sameBits read.sound read.settled)

theorem FileMapped.throughBlock_marks
    (mapped : FileMapped dev sb limit index kernel) (room : limit + 1 < 255)
    (valid : block.Valid) (isIndirect : (kernel.tree index).block block ≠ 0)
    (inBlock : entry < 512) (fuel : Nat) (create : Bool) :
    (throughBlock fuel index ((kernel.tree index).block block) entry create).wp
      .uncrossed Io
      (fun found next => SlotFilled dev sb limit index (.cell block entry) found
          kernel next ∧
        (create = true → Marks sb found kernel next)) kernel := by
  have inUse := mapped.inUse block valid isIndirect
  unfold throughBlock
  rw [wp_bind, wp_get, mapped.isDev, wp_bind]
  apply wp_mono (mapped.volume.bread_wp trivial (by omega) inUse.upper fuel)
  rintro _ got ⟨bh, rfl, read⟩
  have word := mapped.word_read valid isIndirect inBlock read
  have grown := mapped.volume.got read.toGot
  have nothing : Allocated dev sb (limit + 1) got got 0 :=
    (grown.passed (.refl got) grown).unallocated
  have gotDev : (got.inodes index).dev = dev := by
    obtain ⟨_, _, same, _⟩ := read.settled.inode index
    rw [same]
    exact mapped.isDev
  have held : 0 < (got.buffers bh).count := by
    rw [read.settled.count, one_same]
    omega
  have giveBack (alloc : Kernel) (allocated : Allocated dev sb (limit + 1) got
      alloc 0) : (brelse (some bh)).wp .uncrossed Io (fun _ next =>
        SlotFilled dev sb limit index (.cell block entry)
            ((kernel.tree index).value (.cell block entry)) kernel next ∧
          SameBits sb alloc next) alloc := by
    have count := allocated.carried.count bh
    apply wp_mono (brelse_released allocated.volume.sound
      (Nat.lt_of_lt_of_le held (count ▸ Nat.le_add_right _ _))
      (Nat.le_trans (allocated.volume.few bh) (by omega)))
    intro _ next released
    exact ⟨mapped.returned valid inBlock read allocated released,
      released.mapBit allocated.volume⟩
  unfold indirectEntry
  rw [wp_bind, wp_bind, wp_get]
  dsimp only
  rw [word]
  split <;> rename_i empty
  · rw [wp_bind, gotDev]
    apply wp_mono (grown.newBlock_marks room fuel)
    rintro zone alloc ⟨allocated, marks⟩
    have supers := allocated.carried.supers
    split <;> rename_i isZone
    · subst isZone
      rw [wp_pure, wp_bind]
      apply wp_mono (giveBack alloc allocated)
      rintro _ next ⟨filled, same⟩
      rw [empty.2] at filled
      exact ⟨filled, fun _ => marks.held mapped.volume read supers same⟩
    · have isFresh : (alloc.buffers bh).uptodate = true :=
        (allocated.carried.held bh held).2.2 read.fresh
      have stores : alloc.setBuffer bh
          { alloc.buffers bh with
            data := storeShort (2 * entry) zone (alloc.buffers bh).data
            dirt := true } =
          alloc.edit bh (storeShort (2 * entry) zone (alloc.buffers bh).data)
            true := by
        unfold Kernel.edit
        rw [← isFresh]
      have count := allocated.carried.count bh
      have few := allocated.volume.few bh
      have edited := allocated.edited read inUse
        (storeShort (2 * entry) zone (alloc.buffers bh).data)
      have isBlock := (allocated.held read).isBlock
      unfold storeMap onBuffer
      rw [wp_bind, wp_modify, stores, wp_pure, wp_bind]
      apply wp_mono (brelse_released edited.volume.sound ?_ ?_)
      · intro _ next released
        refine ⟨allocated.cell mapped valid isIndirect inBlock read empty.2
          isZone released, fun _ => marks.held mapped.volume read supers ?_⟩
        intro nr
        rw [← allocated.volume.mapBit_edit (by
          rw [isBlock, supers, read.settled.supers]
          exact inUse.lower)]
        exact released.mapBit edited.volume nr
      · rw [edit_own]
        show 0 < (alloc.buffers bh).count
        omega
      · rw [edit_own]
        show (alloc.buffers bh).count ≤ 255
        omega
  · rw [wp_pure, wp_bind]
    apply wp_mono (giveBack got nothing)
    rintro _ next ⟨filled, same⟩
    refine ⟨filled, fun isCreate => ?_⟩
    have marks : Marks sb ((kernel.tree index).value (.cell block entry)) got
        got := by
      refine ⟨fun _ _ _ _ _ => rfl, fun isZero => ?_⟩
      rw [isCreate] at empty
      exact absurd ⟨rfl, isZero⟩ empty
    exact marks.held mapped.volume read rfl same

/-- An indirect block is only read. -/
theorem FileMapped.lookThrough_wp
    (mapped : FileMapped dev sb limit index kernel) {fate : Fate}
    (spent : fate.spent) (room : limit < 255) (valid : block.Valid)
    (isIndirect : (kernel.tree index).block block ≠ 0) (inBlock : entry < 512)
    (fuel : Nat) :
    (throughBlock fuel index ((kernel.tree index).block block) entry false).wp
      fate Io
      (fun found next => found = (kernel.tree index).value (.cell block entry) ∧
        Sound next ∧ Settled 0 kernel next) kernel := by
  have inUse := mapped.inUse block valid isIndirect
  unfold throughBlock
  rw [wp_bind, wp_get, mapped.isDev, wp_bind]
  apply wp_mono (mapped.volume.bread_wp spent room inUse.upper fuel)
  rintro _ got ⟨bh, rfl, read⟩
  have held : 0 < (got.buffers bh).count := by
    rw [read.settled.count, one_same]
    omega
  unfold indirectEntry
  rw [wp_bind, wp_bind, wp_get, if_neg (by simp), wp_pure, wp_bind,
    mapped.word_read valid isIndirect inBlock read]
  apply wp_mono (brelse_wp read.sound held read.small)
  intro _ next released
  have settled : Settled (0 + one bh) kernel got := by
    rw [zero_add]
    exact read.settled
  exact ⟨rfl, released.1, released.2 kernel 0 settled⟩

end Indirect

theorem FileMapped.settled {next : Kernel}
    (mapped : FileMapped dev sb limit index kernel) (sound : Sound next)
    (settled : Settled 0 kernel next) :
    Extended dev sb limit index [] kernel next :=
  mapped.passed (mapped.volume.passed settled
    (mapped.volume.later settled sound)) fun _ isIn => isIn.elim

end Slots

end Linux011.Fs
