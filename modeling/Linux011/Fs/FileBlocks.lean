import Mathlib.Logic.Relation
import Linux011.Fs.BlockMap

/-!
# `bmap` and `create_block`

Three depths of the block map, each a path of slots: the slot of a block of
the file, and before it those of the indirect blocks on the way.  `bmap` looks
the path up, `create_block` fills it where it is empty.
-/

namespace Linux011.Fs

open Coop Prog

/-! ## `bmap` -/

section Bmap

open ZoneTree

variable {dev sb limit index block : Nat} {kernel : Kernel}

theorem createZone_none {fate : Fate} {env : Kernel → Kernel → Prop}
    {post : Unit → Kernel → Prop} {fuel entry : Nat} (holds : post () kernel) :
    (createZone fuel index entry false).wp fate env post kernel := by
  unfold createZone
  rw [wp_bind, wp_get, if_neg (by simp)]
  exact holds

theorem leaf_direct (direct : block < 7) : leaf block = .root block :=
  if_pos direct

theorem leaf_single (notDirect : ¬block < 7) (inSingle : block - 7 < 512) :
    leaf block = .cell .single (block - 7) := by
  unfold leaf
  rw [if_neg notDirect, if_pos inSingle]

theorem leaf_double (notDirect : ¬block < 7) (notSingle : ¬block - 7 < 512) :
    leaf block = .cell (.middle ((block - 7 - 512) / 512))
      ((block - 7 - 512) % 512) := by
  unfold leaf
  rw [if_neg notDirect, if_neg notSingle]

/-- `bmap` finds the zone of the tree, and leaves everything as it is but for
what the cache writes out on its way. -/
theorem FileMapped.bmap_wp (mapped : FileMapped dev sb limit index kernel)
    {fate : Fate} (spent : fate.spent) (room : limit < 255)
    (inRange : block < 7 + 512 + 512 * 512) (fuel : Nat) :
    (bmap fuel index block).wp fate Io
      (fun zone next => zone = (kernel.tree index).map block ∧ Sound next ∧
        Settled 0 kernel next) kernel := by
  have unchanged : Sound kernel ∧ Settled 0 kernel kernel :=
    ⟨mapped.volume.sound, .refl kernel⟩
  unfold bmap bmapWith map
  rw [if_neg (by omega)]
  split <;> rename_i direct
  · rw [wp_bind, leaf_direct direct]
    apply createZone_none
    exact ⟨rfl, unchanged⟩
  · split <;> rename_i inSingle
    · rw [wp_bind, leaf_single direct inSingle]
      apply createZone_none
      rw [wp_bind, wp_get]
      split <;> rename_i absent
      · refine ⟨?_, unchanged⟩
        show 0 = (kernel.tree index).cell ((kernel.inodes index).zone 7) _
        rw [absent, cell_zero]
      · have isSingle : Indirect.single.Valid := trivial
        exact mapped.lookThrough_wp spent room isSingle absent inSingle fuel
    · rw [wp_bind, leaf_double direct inSingle]
      apply createZone_none
      have middle : (block - 7 - 512) / 512 < 512 := by omega
      have entry : (block - 7 - 512) % 512 < 512 := by omega
      rw [wp_bind, wp_get]
      split <;> rename_i absent
      · refine ⟨?_, unchanged⟩
        show 0 = (kernel.tree index).cell
          ((kernel.tree index).cell ((kernel.inodes index).zone 8) _) _
        rw [absent, cell_zero, cell_zero]
      · have isDouble : Indirect.double.Valid := trivial
        rw [wp_bind]
        apply wp_mono (mapped.lookThrough_wp spent room isDouble absent middle
          fuel)
        rintro _ state ⟨rfl, sound, settled⟩
        have later := mapped.settled sound settled
        have isMiddle : Indirect.Valid (.middle ((block - 7 - 512) / 512)) :=
          middle
        have same (slot : ZoneSlot) (valid : slot.Valid) :
            (state.tree index).value slot = (kernel.tree index).value slot :=
          later.value slot valid List.not_mem_nil
        split <;> rename_i noMiddle
        · refine ⟨?_, sound, settled⟩
          show 0 = (kernel.tree index).cell
            ((kernel.tree index).value (.cell .double _)) _
          rw [noMiddle, cell_zero]
        · have number := same _ (show ZoneSlot.Valid (.cell .double _) from
            ⟨isDouble, middle⟩)
          rw [← number] at noMiddle ⊢
          apply wp_mono (later.mapped.lookThrough_wp spent room isMiddle noMiddle
            entry fuel)
          rintro _ next ⟨rfl, nextSound, nextSettled⟩
          refine ⟨same _ ⟨isMiddle, entry⟩, nextSound, ?_⟩
          exact settled.after nextSettled

end Bmap

/-! ## `create_block` -/

/-- What `create_block` leaves behind. -/
structure Created (dev sb limit index block zone : Nat) (kernel next : Kernel) :
    Prop extends Advanced dev sb limit 0 (kernel.ownZones sb index) kernel next
    where
  mapped : FileMapped dev sb limit index next
  other : ∀ other, other ≠ index → ∃ dirt lock,
    next.inodes other = { kernel.inodes other with dirt, lock }
  own : ∃ zone ctime dirt lock,
    next.inodes index = { kernel.inodes index with zone, ctime, dirt, lock }
  isMapped : (next.tree index).map block = zone
  others : ∀ other, other < 7 + 512 + 512 * 512 → other ≠ block →
    (next.tree index).map other = (kernel.tree index).map other
  kept : (kernel.tree index).map block ≠ 0 →
    zone = (kernel.tree index).map block
  fresh : (kernel.tree index).map block = 0 → zone ≠ 0 →
    FreshZone dev (kernel.supers sb) kernel next zone

section Create

open ZoneTree

variable {dev sb limit index block zone : Nat} {kernel middle next : Kernel}
  {path : List ZoneSlot}

/-- The slots on the way to a block of the file hold the numbers of its
indirect blocks. -/
theorem Extended.created
    (extended : Extended dev sb limit index path kernel next)
    (inRange : block < 7 + 512 + 512 * 512)
    (isPath : ∀ slot ∈ path, slot = leaf block ∨
      ∃ indirect : Indirect, slot = indirect.slot)
    (isMapped : (next.tree index).map block = zone)
    (fresh : (kernel.tree index).map block = 0 → zone ≠ 0 →
      FreshZone dev (kernel.supers sb) kernel next zone) :
    Created dev sb limit index block zone kernel next where
  toAdvanced := extended.toAdvanced
  mapped := extended.mapped
  other := extended.other
  own := extended.own
  isMapped := isMapped
  others := by
    intro other isOther different
    apply extended.value _ (leaf_valid isOther)
    intro isIn
    obtain same | ⟨indirect, isSlot⟩ := isPath _ isIn
    · exact different (leaf_injective same)
    · exact leaf_ne_slot other indirect isSlot
  kept := by
    intro isZone
    rw [← isMapped]
    exact extended.kept _ (leaf_valid inRange) isZone
  fresh := fresh

theorem SlotFilled.created
    (filled : SlotFilled dev sb limit index (leaf block) zone kernel next)
    (inRange : block < 7 + 512 + 512 * 512) :
    Created dev sb limit index block zone kernel next :=
  filled.toExtended.created inRange
    (fun _ isIn => .inl (List.mem_singleton.mp isIn)) filled.filled filled.fresh

/-- The slot of the block, after slots of indirect blocks. -/
theorem SlotFilled.after
    (filled : SlotFilled dev sb limit index (leaf block) zone middle next)
    (before : Extended dev sb limit index path kernel middle)
    (isPath : ∀ slot ∈ path, ∃ indirect : Indirect, slot = indirect.slot)
    (inRange : block < 7 + 512 + 512 * 512) :
    Created dev sb limit index block zone kernel next := by
  apply (before.trans filled.toExtended).created inRange
  · intro slot isIn
    obtain isFirst | isLast := List.mem_append.mp isIn
    · exact .inr (isPath slot isFirst)
    · exact .inl (List.mem_singleton.mp isLast)
  · exact filled.filled
  · intro empty isZone
    have notIn : leaf block ∉ path := by
      intro isIn
      obtain ⟨indirect, isSlot⟩ := isPath _ isIn
      exact leaf_ne_slot block indirect isSlot
    have stillEmpty : (middle.tree index).value (leaf block) = 0 := by
      rw [before.value _ (leaf_valid inRange) notIn]
      exact empty
    exact (filled.fresh stillEmpty isZone).earlier before.toAdvanced

/-- An indirect block on the way cannot be had. -/
theorem Extended.missed
    (extended : Extended dev sb limit index path kernel next)
    (isPath : ∀ slot ∈ path, ∃ indirect : Indirect, slot = indirect.slot)
    (inRange : block < 7 + 512 + 512 * 512)
    (absent : (next.tree index).map block = 0) :
    Created dev sb limit index block 0 kernel next :=
  extended.created inRange (fun slot isIn => .inr (isPath slot isIn)) absent
    fun _ isZone => absurd rfl isZone

/-- Slots of a file are filled, one after the other. -/
def SlotsFilled (dev sb limit index : Nat) : Kernel → Kernel → Prop :=
  Relation.ReflTransGen fun kernel next => ∃ slot zone, slot.Valid ∧
    SlotFilled dev sb limit index slot zone kernel next ∧
      Marks sb zone kernel next

theorem SlotsFilled.then (filling : SlotsFilled dev sb limit index kernel middle)
    {slot : ZoneSlot}
    (filled : SlotFilled dev sb limit index slot zone middle next)
    (valid : slot.Valid) (marks : Marks sb zone middle next) :
    SlotsFilled dev sb limit index kernel next :=
  filling.tail ⟨slot, zone, valid, filled, marks⟩

/-- What `create_block` leaves behind, slot by slot.  It returns 0 where no
zone is left. -/
structure BlockFilled (dev sb limit index block zone : Nat) (kernel next : Kernel) :
    Prop extends Created dev sb limit index block zone kernel next where
  slots : SlotsFilled dev sb limit index kernel next
  full : zone = 0 → NoneFree sb next

/-- `create_block` fills the slots on the way to the block one by one. -/
theorem FileMapped.createBlock_fills
    (mapped : FileMapped dev sb limit index kernel) (room : limit + 1 < 255)
    (inRange : block < 7 + 512 + 512 * 512) (fuel : Nat) :
    (createBlock fuel index block).wp .uncrossed Io
      (fun zone next => BlockFilled dev sb limit index block zone kernel next)
      kernel := by
  have isRoom : limit < 255 := by omega
  have begins : SlotsFilled dev sb limit index kernel kernel := .refl
  unfold createBlock bmapWith
  rw [if_neg (by omega)]
  split <;> rename_i direct
  · rw [wp_bind]
    apply wp_mono (mapped.createZone_marks isRoom (by omega) fuel true)
    rintro _ next ⟨filled, marks⟩
    have marks := marks rfl
    rw [wp_bind, wp_get]
    have valid : ZoneSlot.Valid (.root block) := Nat.lt_trans direct (by decide)
    have slots := begins.then filled valid marks
    rw [← leaf_direct direct] at filled
    exact ⟨filled.created inRange, slots,
      fun isZero => (marks.full isZero).later filled.toAdvanced⟩
  · split <;> rename_i inSingle
    · rw [wp_bind]
      apply wp_mono (mapped.createZone_marks isRoom (by omega) fuel true)
      rintro _ middle ⟨filled, marks⟩
      have marks := marks rfl
      have grown := begins.then filled (show 7 < 9 by decide) marks
      have isPath : ∀ slot ∈ [ZoneSlot.root 7],
          ∃ indirect : Indirect, slot = indirect.slot := by
        intro slot isIn
        exact ⟨.single, List.mem_singleton.mp isIn⟩
      rw [wp_bind, wp_get]
      split <;> rename_i absent
      · refine ⟨filled.toExtended.missed isPath inRange ?_, grown,
          fun _ => (marks.full absent).later filled.toAdvanced⟩
        unfold map
        rw [leaf_single direct inSingle]
        show (middle.tree index).cell ((middle.inodes index).zone 7) _ = 0
        rw [absent, cell_zero]
      · have isSingle : Indirect.single.Valid := trivial
        apply wp_mono (filled.mapped.throughBlock_marks room isSingle absent
          inSingle fuel true)
        rintro zone next ⟨last, marks⟩
        have marks := marks rfl
        have slots := grown.then last ⟨isSingle, inSingle⟩ marks
        rw [← leaf_single direct inSingle] at last
        exact ⟨last.after filled.toExtended isPath inRange, slots,
          fun isZero => (marks.full isZero).later last.toAdvanced⟩
    · rw [wp_bind]
      apply wp_mono (mapped.createZone_marks isRoom (by omega) fuel true)
      rintro _ first ⟨filled, marks⟩
      have marks := marks rfl
      have grown := begins.then filled (show 8 < 9 by decide) marks
      have middle : (block - 7 - 512) / 512 < 512 := by omega
      have entry : (block - 7 - 512) % 512 < 512 := by omega
      have isRoot : ∀ slot ∈ [ZoneSlot.root 8],
          ∃ indirect : Indirect, slot = indirect.slot := by
        intro slot isIn
        exact ⟨.double, List.mem_singleton.mp isIn⟩
      rw [wp_bind, wp_get]
      split <;> rename_i absent
      · refine ⟨filled.toExtended.missed isRoot inRange ?_, grown,
          fun _ => (marks.full absent).later filled.toAdvanced⟩
        unfold map
        rw [leaf_double direct inSingle]
        show (first.tree index).cell ((first.tree index).cell
          ((first.inodes index).zone 8) _) _ = 0
        rw [absent, cell_zero, cell_zero]
      · have isDouble : Indirect.double.Valid := trivial
        rw [wp_bind]
        apply wp_mono (filled.mapped.throughBlock_marks room isDouble absent
          middle fuel true)
        rintro number second ⟨linked, marks⟩
        have marks := marks rfl
        have further := grown.then linked ⟨isDouble, middle⟩ marks
        have extended := filled.toExtended.trans linked.toExtended
        have isPath : ∀ slot ∈ [ZoneSlot.root 8] ++
            [ZoneSlot.cell .double ((block - 7 - 512) / 512)],
            ∃ indirect : Indirect, slot = indirect.slot := by
          intro slot isIn
          obtain isFirst | isSecond := List.mem_append.mp isIn
          · exact isRoot slot isFirst
          · exact ⟨.middle _, List.mem_singleton.mp isSecond⟩
        have isMiddle : Indirect.Valid (.middle ((block - 7 - 512) / 512)) :=
          middle
        have isNumber : (second.tree index).block
            (.middle ((block - 7 - 512) / 512)) = number := linked.filled
        split <;> rename_i noMiddle
        · refine ⟨extended.missed isPath inRange ?_, further,
            fun _ => (marks.full noMiddle).later linked.toAdvanced⟩
          unfold map
          rw [leaf_double direct inSingle]
          show (second.tree index).cell ((second.tree index).block _) _ = 0
          rw [isNumber, noMiddle, cell_zero]
        · rw [← isNumber] at noMiddle ⊢
          apply wp_mono (linked.mapped.throughBlock_marks room isMiddle noMiddle
            entry fuel true)
          rintro zone next ⟨last, marks⟩
          have marks := marks rfl
          have slots := further.then last ⟨isMiddle, entry⟩ marks
          rw [← leaf_double direct inSingle] at last
          exact ⟨last.after extended isPath inRange, slots,
            fun isZero => (marks.full isZero).later last.toAdvanced⟩

theorem FileMapped.createBlock_wp (mapped : FileMapped dev sb limit index kernel)
    (room : limit + 1 < 255) (inRange : block < 7 + 512 + 512 * 512)
    (fuel : Nat) :
    (createBlock fuel index block).wp .uncrossed Io
      (fun zone next => Created dev sb limit index block zone kernel next)
      kernel :=
  wp_mono (mapped.createBlock_fills room inRange fuel)
    fun _ _ filled => filled.toCreated

end Create

/-! ## The mapping before and after -/

/-- The zone of a block of the file: every run of `bmap` that returns gives
it, and none stops the machine. -/
structure Maps (index block zone : Nat) (kernel : Kernel) : Prop where
  inTree : (kernel.tree index).map block = zone
  returns : ∀ (fate : Fate) (fuel : Nat), fate.spent →
    (bmap fuel index block).wp fate Io (fun found _ => found = zone) kernel

/-- A run has changed nothing but the flags of inodes, and bytes of the inode
table that belong to an inode the cache has written out. -/
structure OnlyRead (dev sb : Nat) (kernel next : Kernel) : Prop where
  inode : ∀ index, ∃ dirt lock,
    next.inodes index = { kernel.inodes index with dirt, lock } ∧
      (dirt = true → (kernel.inodes index).dirt = true)
  zmap : ∀ nr, mapBit next (kernel.supers sb).zmap nr =
    mapBit kernel (kernel.supers sb).zmap nr
  outside : ∀ number offset, offset < 1024 →
    number < (kernel.supers sb).tableStart ∨
        (kernel.supers sb).firstdatazone ≤ number →
      next.content dev number offset = kernel.content dev number offset
  content : ∀ other number offset, other ≠ 0 → offset < 1024 →
    Updated kernel next other number offset
      (kernel.content other number offset) (next.content other number offset)

section Mapping

variable {dev sb limit index block : Nat} {kernel : Kernel}

theorem FileMapped.maps (mapped : FileMapped dev sb limit index kernel)
    (room : limit < 255) (inRange : block < 7 + 512 + 512 * 512) :
    Maps index block ((kernel.tree index).map block) kernel where
  inTree := rfl
  returns := fun _ fuel spent =>
    wp_mono (mapped.bmap_wp spent room inRange fuel) fun _ _ found => found.1

/-- `create_block` gives a block its zone and leaves all others as they are;
`bmap` only reads, up to the inodes that the cache writes out. -/
theorem createBlock_extends (mapped : FileMapped dev sb limit index kernel)
    (room : limit + 1 < 255) (inRange : block < 7 + 512 + 512 * 512)
    (fuel : Nat) :
    (createBlock fuel index block).wp .uncrossed Io
      (fun zone next => Maps index block zone next ∧
        ((kernel.tree index).map block ≠ 0 →
          zone = (kernel.tree index).map block) ∧
        ((kernel.tree index).map block = 0 → zone ≠ 0 →
          FreshZone dev (kernel.supers sb) kernel next zone) ∧
        ∀ other, other < 7 + 512 + 512 * 512 → other ≠ block →
          Maps index other ((kernel.tree index).map other) next) kernel ∧
    ∀ other, other < 7 + 512 + 512 * 512 →
      Maps index other ((kernel.tree index).map other) kernel ∧
      ∀ fate : Fate, fate.spent →
        (bmap fuel index other).wp fate Io
          (fun _ next => OnlyRead dev sb kernel next) kernel := by
  have isRoom : limit < 255 := by omega
  refine ⟨?_, ?_⟩
  · apply wp_mono (mapped.createBlock_wp room inRange fuel)
    intro zone next created
    have isMapped := created.mapped.maps isRoom inRange
    rw [created.isMapped] at isMapped
    refine ⟨isMapped, created.kept, created.fresh, ?_⟩
    intro other isOther different
    have same := created.mapped.maps isRoom isOther
    rw [created.others other isOther different] at same
    exact same
  · intro other isOther
    refine ⟨mapped.maps isRoom isOther, ?_⟩
    intro fate spent
    apply wp_mono (mapped.bmap_wp spent isRoom isOther fuel)
    rintro _ next ⟨_, sound, settled⟩
    exact ⟨settled.inode, mapped.volume.mapBit_settled sound settled,
      fun _ _ inBlock apart => mapped.volume.outside settled apart inBlock,
      settled.content⟩

end Mapping

/-! ## A small disk -/

/-- A ram disk of eight blocks: the zone map in block 2, the inode table in
block 3, and a changed inode whose indirect block is block 5. -/
def mappedDisk (count : Nat) : Kernel :=
  bufferInit count idleKernel.buffers
    { idleKernel with
      driver := fun major => if major = 1 then .ram 8192 else .absent
      disk := fun dev offset => if dev = 257 ∧ offset = 2048 then 5 else 0
      supers := fun index =>
        if index = 0 then
          { idleKernel.supers 0 with
            dev := 257
            ninodes := 32
            nzones := 8
            zmapBlocks := 1
            firstdatazone := 4
            zmap := fun index => if index = 0 then some 0 else none }
        else idleKernel.supers index
      inodes := fun index =>
        if index = 0 then
          { Inode.zero with
            mode := 0x81A4
            nlinks := 1
            zone := fun entry => if entry = 7 then 5 else 0
            dev := 257
            num := 1
            count := 1
            dirt := true }
        else idleKernel.inodes index }

/-- The zone map is loaded, and block 6 is changed. -/
def crowd : Sys Bool := do
  match ← bread 5 257 2 with
  | some 0 =>
      match ← bread 5 257 6 with
      | none => return false
      | some bh => do
          storeMap bh fun data => data
          brelse (some bh)
          return true
  | _ => return false

theorem mappedDisk_serves (count : Nat) {block : Nat} (inDevice : block < 8) :
    Serves (mappedDisk count) 257 block := by
  refine ⟨by omega, by decide, by decide, ?_⟩
  omega

theorem mappedDisk_inode {count index : Nat}
    (isOwn : ((mappedDisk count).inodes index).dev = 257) : index = 0 := by
  by_contra isOther
  have isZero : (if index = 0 then _ else idleKernel.inodes index : Inode).dev =
      257 := isOwn
  rw [if_neg isOther] at isZero
  cases isZero

theorem mappedDisk_begins {count : Nat} (some : 0 < count) :
    Begins (mappedDisk count) := by
  apply bufferInit_begins some
  · rfl
  · exact fun _ => rfl
  · exact fun _ => rfl
  · intro index _ isDirty _
    by_cases isFirst : index = 0
    · subst isFirst
      exact ⟨0, rfl, mappedDisk_serves count (by decide)⟩
    · have isClean : (if index = 0 then _ else idleKernel.inodes index :
          Inode).dirt = true := isDirty
      rw [if_neg isFirst] at isClean
      cases isClean

theorem mappedDisk_table (count : Nat) :
    inodeBlock ((mappedDisk count).supers 0) ((mappedDisk count).inodes 0).num =
      3 := by
  have isBlock : inodeBlock ((mappedDisk count).supers 0)
      ((mappedDisk count).inodes 0).num = 2 + 0 + 1 + (1 - 1) / 32 := rfl
  rw [isBlock]

/-- The first byte of the zone map. -/
theorem mappedDisk_bit (count : Nat) {nr : Nat} (inByte : nr < 8) :
    bitOf ((mappedDisk count).stored 257 2) nr = Nat.testBit 5 nr := by
  unfold bitOf
  have byte : (mappedDisk count).stored 257 2 0 = 5 := by
    show (if 257 = 257 ∧ 2 * 1024 + 0 = 2048 then (5 : UInt8) else 0) = 5
    decide
  rw [show nr / 8 = 0 by omega, show nr % 8 = nr by omega, byte]
  rfl

section Disk

variable {count bh : Nat} {kernel next : Kernel}

/-- A zone map that was read is loaded, and holds the bits of the disk. -/
structure DiskLoaded (count : Nat) (kernel : Kernel) : Prop where
  volume : Volume 257 0 1 kernel
  supers : kernel.supers = (mappedDisk count).supers
  zones : (kernel.inodes 0).zone = ((mappedDisk count).inodes 0).zone
  isDev : (kernel.inodes 0).dev = 257
  bits : ∀ nr, nr < 8192 → mapBit kernel (kernel.supers 0).zmap nr =
    some (bitOf ((mappedDisk count).stored 257 2) nr)

theorem mappedDisk_loaded (some : 0 < count)
    (read : Read (mappedDisk count) 257 2 0 next) : DiskLoaded count next := by
  have begins := mappedDisk_begins some
  have supers := read.settled.supers
  have counts (other : Nat) : (next.buffers other).count = one 0 other := by
    rw [read.settled.count]
    exact Nat.zero_add _
  have data (offset : Nat) (inBlock : offset < 1024) :
      (next.buffers 0).data offset = (mappedDisk count).stored 257 2 offset := by
    have cached := Kernel.content_of_cached read.sound.lists (by decide)
      read.isBuffer read.isFor.1 read.isFor.2
    rw [← begins.original 257 2 offset (by decide) inBlock,
      ← show next.value 0 = (next.buffers 0).data from if_pos (.inl read.fresh),
      ← cached]
    obtain ⟨_, same⟩ | ⟨index, _, isByte, _⟩ :=
      read.settled.content 257 2 offset (by decide) inBlock
    · exact same
    · -- the only inode of the device lies in block 3
      have isFirst := mappedDisk_inode isByte.isDev
      obtain ⟨sb, found, isBlock⟩ := isByte.isBlock
      subst isFirst
      have isSb : 0 = sb := Option.some.inj found
      subst isSb
      have isThree := isBlock.trans (mappedDisk_table count)
      exact absurd isThree (by decide)
  have bits (nr : Nat) (inMap : nr < 8192) :
      mapBit next (next.supers 0).zmap nr =
        Option.some (bitOf ((mappedDisk count).stored 257 2) nr) := by
    unfold mapBit
    rw [supers, show nr / 8192 = 0 by omega, show nr % 8192 = nr by omega]
    show Option.some (bitOf (next.buffers 0).data nr) = _
    unfold bitOf
    rw [data _ (by omega)]
  obtain ⟨_, _, sameInode, _⟩ := read.settled.inode 0
  refine ⟨⟨read.sound, by decide, ?_, ?_, ?_, ?_, ?_, ?_, ?_, ?_, ?_, ?_, ?_⟩,
    supers, ?_, ?_, bits⟩
  · rw [supers]
    rfl
  · rw [supers]
    exact (by decide : 8 < 65536)
  · rw [supers]
    exact (by decide : 4 ≤ 8)
  · rw [supers]
    exact (by decide : 3 ≤ 4)
  · rw [supers]
    exact fun zone inDevice =>
      (mappedDisk_serves count inDevice).congr read.settled.driver
  · exact fun other block isBlind =>
      begins.notBlind other block (read.settled.blind other block isBlind)
  · intro other
    rw [counts]
    by_cases here : other = 0
    · rw [here, one_same]
    · rw [one_other here]
      decide
  · rw [supers]
    intro index map isMap
    by_cases isFirst : index = 0
    · subst isFirst
      have isBuffer : 0 = map := Option.some.inj isMap
      subst isBuffer
      refine ⟨read.isBuffer, ?_, read.fresh, read.isFor.1, ?_⟩
      · rw [counts, one_same]
        decide
      · rw [read.isFor.2]
        exact (by decide : 2 < 3)
    · change (if index = 0 then Option.some 0 else none) = Option.some map at isMap
      rw [if_neg isFirst] at isMap
      cases isMap
  · rw [bits 0 (by decide), mappedDisk_bit count (by decide)]
    decide
  · intro index inRange isDirty hasDev
    obtain ⟨_, _, same, wasDirty⟩ := read.settled.inode index
    rw [same] at isDirty hasDev
    obtain ⟨sb, found, serves⟩ := begins.placed index inRange (wasDirty isDirty)
      hasDev
    rw [same, supers]
    exact ⟨sb, found, serves.congr read.settled.driver⟩
  · intro index inRange isOwn
    obtain ⟨_, _, same, _⟩ := read.settled.inode index
    rw [same] at isOwn ⊢
    have isFirst := mappedDisk_inode isOwn
    subst isFirst
    rw [supers]
    show inodeBlock ((mappedDisk count).supers 0) ((mappedDisk count).inodes 0).num < 4
    rw [mappedDisk_table]
    decide
  · rw [sameInode]
  · rw [sameInode]
    rfl

/-- The only indirect block of the file is block 5, which is in use. -/
theorem DiskLoaded.mapped (loaded : DiskLoaded count kernel) :
    FileMapped 257 0 1 0 kernel := by
  have root (entry : Nat) : (kernel.tree 0).root entry =
      if entry = 7 then 5 else 0 := by
    show (kernel.inodes 0).zone entry = _
    rw [loaded.zones]
    rfl
  have double : (kernel.tree 0).block .double = 0 := root 8
  have middle (entry : Nat) : (kernel.tree 0).block (.middle entry) = 0 := by
    show (kernel.tree 0).cell ((kernel.tree 0).root 8) entry = 0
    rw [root]
    exact ZoneTree.cell_zero entry
  have onlySingle (block : Indirect) (isZone : (kernel.tree 0).block block ≠ 0) :
      block = .single := by
    cases block with
    | single => rfl
    | double => exact absurd double isZone
    | middle entry => exact absurd (middle entry) isZone
  refine ⟨loaded.volume, loaded.isDev, ?_, ?_⟩
  · intro first second _ _ same isZone
    rw [onlySingle first isZone, onlySingle second (same ▸ isZone)]
  · intro block _ isZone
    rw [onlySingle block isZone]
    have isFive : (kernel.tree 0).block .single = 5 := root 7
    rw [isFive]
    refine ⟨?_, ?_, ?_⟩
    · rw [loaded.supers]
      exact (by decide : 4 ≤ 5)
    · rw [loaded.supers]
      exact (by decide : 5 < 8)
    · have isBit : 5 + 1 - (kernel.supers 0).firstdatazone = 2 := by
        rw [loaded.supers]
        rfl
      rw [isBit, loaded.bits 2 (by decide), mappedDisk_bit count (by decide)]
      decide

/-- A zone that is not in use is written to. -/
theorem DiskLoaded.crowded (loaded : DiskLoaded count kernel) :
    (do
      match ← bread 5 257 6 with
      | none => return false
      | some bh => do
          storeMap bh fun data => data
          brelse (some bh)
          return true : Sys Bool).wp .uncrossed Io
      (fun _ next => FileMapped 257 0 1 0 next ∧ Carried 0 kernel next)
      kernel := by
  have volume := loaded.volume
  have inDevice : 6 < (kernel.supers 0).nzones := by
    rw [loaded.supers]
    exact (by decide : 6 < 8)
  rw [wp_bind]
  apply wp_mono (Fs.bread_wp volume.sound (volume.ready (by decide))
    (volume.room (by decide) 6) volume.hasDev (volume.serves 6 inDevice)
    (volume.notBlind 257 6) trivial)
  rintro _ got ⟨bh, rfl, read⟩
  have inData : (kernel.supers 0).firstdatazone ≤ 6 := by
    rw [loaded.supers]
    exact (by decide : 4 ≤ 6)
  have stores : got.setBuffer bh
      { got.buffers bh with
        data := (got.buffers bh).data
        dirt := true } =
      got.edit bh (got.buffers bh).data true := by
    unfold Kernel.edit
    rw [← read.fresh]
  have held : 0 < (got.buffers bh).count := by
    rw [read.settled.count, one_same]
    omega
  have edited : Sound (got.edit bh (got.buffers bh).data true) := by
    apply edit_sound read.sound (read.sound.notReading (.inl read.fresh))
    · rw [read.isFor.1]
      decide
    · rw [read.isFor.1, read.isFor.2]
      exact (volume.serves 6 inDevice).congr read.settled.driver
  have same : ((got.edit bh (got.buffers bh).data true).buffers bh).count =
      (got.buffers bh).count := by
    rw [edit_own]
  unfold storeMap onBuffer
  rw [wp_bind, wp_modify, stores, wp_bind]
  apply wp_mono (brelse_released edited (same ▸ held) (same ▸ read.small))
  intro _ next released
  have passed := volume.rewritten read.toGot inData inDevice _ released
  refine ⟨(loaded.mapped.passed passed ?_).mapped, passed.carried⟩
  rintro _ rfl inUse
  apply inUse.notFree
  have isBit : 6 + 1 - (kernel.supers 0).firstdatazone = 3 := by
    rw [loaded.supers]
    rfl
  rw [isBit, loaded.bits 3 (by decide), mappedDisk_bit count (by decide)]
  decide

/-- After `crowd` the file is as it should be, and only the zone map is
held. -/
theorem crowd_held (isSome : 0 < count) :
    crowd.wp .uncrossed Io
      (fun done next => done = true → FileMapped 257 0 1 0 next ∧
        next.supers = (mappedDisk count).supers ∧
        ∀ bh, (next.buffers bh).count = one 0 bh)
      (mappedDisk count) := by
  have begins := mappedDisk_begins isSome
  have ready : Ready .uncrossed (mappedDisk count) := by
    refine ⟨begins.small, .inr (.inr fun bh _ => Nat.zero_lt_succ 254), ?_⟩
    intro index inRange isDirty hasDev
    obtain ⟨sb, found, serves⟩ := begins.placed index inRange isDirty hasDev
    exact ⟨sb, found, serves, begins.notBlind _ _⟩
  unfold crowd
  rw [wp_bind]
  apply wp_mono (Fs.bread_wp begins.sound ready
    (.inr fun bh _ _ => Nat.zero_lt_succ 254) (by decide)
    (mappedDisk_serves count (by decide)) (begins.notBlind 257 2) trivial)
  rintro _ next ⟨bh, rfl, read⟩
  cases bh with
  | zero =>
      have loaded := mappedDisk_loaded isSome read
      apply wp_mono loaded.crowded
      rintro _ last ⟨mapped, carried⟩ _
      refine ⟨mapped, carried.supers.trans loaded.supers, fun bh => ?_⟩
      rw [carried.count, read.settled.count]
      exact Nat.zero_add _
  | succ bh =>
      intro isFalse
      cases isFalse

theorem crowd_wp (isSome : 0 < count) :
    crowd.wp .uncrossed Io
      (fun done next => done = true → FileMapped 257 0 1 0 next)
      (mappedDisk count) :=
  wp_mono (crowd_held isSome) fun _ _ held isDone => (held isDone).1

end Disk

/-- `crowd`, and then a program, with the state between them. -/
def afterCrowd (count : Nat) (program : Sys Nat) :
    Option ((Kernel × Nat) × Kernel) :=
  ((do
    if ← crowd then do
      let kernel ← Prog.get
      let zone ← program
      return (kernel, zone)
    else Prog.spent : Sys (Kernel × Nat)) (mappedDisk count)).play false id

/-- The state in which the program begins, and its run. -/
theorem afterCrowd_ends {count zone : Nat} (isSome : 0 < count)
    {program : Sys Nat} {kernel next : Kernel}
    (played : afterCrowd count program = some ((kernel, zone), next)) :
    FileMapped 257 0 1 0 kernel ∧
      (program kernel).MayReturn False Io zone next := by
  have returns := Run.mayReturn_play Io.refl played
  obtain ⟨done, state, first, returns⟩ := Run.mayReturn_bind returns
  have first := first.mono Bool.false_ne_true
  cases done with
  | false => exact returns.elim
  | true =>
      obtain ⟨_, _, ⟨rfl, rfl⟩, returns⟩ := Run.mayReturn_bind returns
      obtain ⟨_, _, second, isEnd, rfl⟩ := Run.mayReturn_bind returns
      cases isEnd
      exact ⟨first.meets_uncrossed (crowd_wp isSome) rfl,
        second.mono Bool.false_ne_true⟩

theorem afterCrowd_creates :
    (afterCrowd 3 (createBlock 5 0 1000)).any (fun ((kernel, zone), _) =>
      zone = 7 ∧ (kernel.tree 0).map 1000 = 0) = true := by
  decide +kernel

/-- Both indirect blocks on the way to block 1000 are made, and the block
itself is zone 7. -/
theorem createBlock_extends_double :
    ∃ kernel next, (createBlock 5 0 1000 kernel).MayReturn False Io 7 next ∧
      Maps 0 1000 0 kernel ∧ Maps 0 1000 7 next ∧
      FreshZone 257 (kernel.supers 0) kernel next 7 := by
  have creates := afterCrowd_creates
  rw [Option.any_eq_true] at creates
  obtain ⟨⟨⟨kernel, zone⟩, next⟩, played, holds⟩ := creates
  obtain ⟨rfl, empty⟩ := of_decide_eq_true holds
  obtain ⟨mapped, returns⟩ := afterCrowd_ends (by decide) played
  have inRange : 1000 < 7 + 512 + 512 * 512 := by decide
  obtain ⟨creates, finds⟩ := createBlock_extends mapped (by decide) inRange 5
  obtain ⟨isMapped, _, fresh, _⟩ := returns.meets_uncrossed creates
  have before := (finds 1000 inRange).1
  rw [empty] at before
  exact ⟨kernel, next, returns, before, isMapped, fresh empty (by decide)⟩

theorem afterCrowd_writes :
    (afterCrowd 2 (bmap 5 0 8)).any (fun ((kernel, _), next) =>
      (kernel.inodes 0).dirt = true ∧ (next.inodes 0).dirt = false ∧
        kernel.content 257 3 0 = 0 ∧ next.content 257 3 0 = 0xA4) = true := by
  decide +kernel

/-- Where all free buffers are dirty, `bmap` writes out the inode. -/
theorem bmap_writesOut :
    ∃ kernel zone next, FileMapped 257 0 1 0 kernel ∧
      (bmap 5 0 8 kernel).MayReturn False Io zone next ∧
      next.inodes 0 ≠ kernel.inodes 0 ∧
      next.content 257 3 0 ≠ kernel.content 257 3 0 := by
  have writes := afterCrowd_writes
  rw [Option.any_eq_true] at writes
  obtain ⟨⟨⟨kernel, zone⟩, next⟩, played, holds⟩ := writes
  obtain ⟨wasDirty, isClean, before, after⟩ := of_decide_eq_true holds
  obtain ⟨mapped, returns⟩ := afterCrowd_ends (by decide) played
  refine ⟨kernel, zone, next, mapped, returns, fun same => ?_, ?_⟩
  · rw [same, wasDirty] at isClean
    cases isClean
  · rw [before, after]
    decide

end Linux011.Fs
