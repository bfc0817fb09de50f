import Linux011.Fs.FileBlocks
import Linux011.Fs.FilePositions
import Linux011.Library.ByteFiles

/-!
# The bytes of the files of a volume

Files whose zones are in use, and no two of whose slots hold the same zone, do
not disturb each other: whoever fills a slot of one of them, or writes to a
block of one, changes none of the others.  A slot that is filled gets a blank
zone, which reads as the hole did that was there before.
-/

namespace Linux011.Fs

open Coop Prog ByteFiles

/-- The byte at a place of a file. -/
def Kernel.byteAt (kernel : Kernel) (index place : Nat) : UInt8 :=
  let zone := (kernel.tree index).map (place / 1024)
  if mappedBytes ≤ place ∨ zone = 0 then 0
  else kernel.content (kernel.inodes index).dev zone (place % 1024)

/-- What a file holds. -/
def Kernel.fileAt (kernel : Kernel) (index : Nat) : ByteFile where
  size := (kernel.inodes index).size
  byte := kernel.byteAt index

/-- The inode is of the same file still. -/
structure Inode.SameFile (inode next : Inode) : Prop where
  dev : next.dev = inode.dev
  mode : next.mode = inode.mode
  pipe : next.pipe = inode.pipe

/-- Regular files of a volume.  Every zone in their trees is a data zone in
use, and it stands in one slot only. -/
structure FilesHeld (dev sb limit : Nat) (held : Set Nat) (kernel : Kernel) :
    Prop where
  volume : Volume dev sb limit kernel
  isDev : ∀ index ∈ held, (kernel.inodes index).dev = dev
  isFile : ∀ index ∈ held, (kernel.inodes index).isRegular = true ∧
    (kernel.inodes index).pipe = false
  inUse : ∀ index ∈ held, ∀ slot : ZoneSlot, slot.Valid →
    (kernel.tree index).value slot ≠ 0 →
      InUse (kernel.supers sb) kernel ((kernel.tree index).value slot)
  once : ∀ index ∈ held, ∀ other ∈ held, ∀ slot place : ZoneSlot,
    slot.Valid → place.Valid →
      (kernel.tree index).value slot = (kernel.tree other).value place →
        (kernel.tree index).value slot ≠ 0 → index = other ∧ slot = place

section Held

variable {dev sb limit more index : Nat} {kernel middle next : Kernel}
  {held touched : Set Nat} {gain : Nat → Nat}

theorem Inode.SameFile.isRegular {inode next : Inode}
    (same : inode.SameFile next) : next.isRegular = inode.isRegular := by
  unfold Inode.isRegular Inode.fileType
  rw [same.mode]

theorem Indirect.slot_valid {block : Indirect} (valid : block.Valid) :
    block.slot.Valid := by
  cases block with
  | single => exact (by decide : 7 < 9)
  | double => exact (by decide : 8 < 9)
  | middle entry => exact ⟨trivial, valid⟩

theorem Indirect.slot_injective {first second : Indirect}
    (same : first.slot = second.slot) : first = second := by
  cases first <;> cases second <;> cases same <;> rfl

/-! ## What work leaves of a file -/

/-- The data zones that are not touched keep their content. -/
def KeepsData (dev sb : Nat) (touched : Set Nat) (kernel next : Kernel) : Prop :=
  ∀ zone offset, (kernel.supers sb).firstdatazone ≤ zone → zone ∉ touched →
    offset < 1024 →
      next.content dev zone offset = kernel.content dev zone offset

theorem Kernel.byteAt_beyond {place : Nat} (beyond : mappedBytes ≤ place) :
    kernel.byteAt index place = 0 := if_pos (.inl beyond)

theorem leaf_inRange {place : Nat} (inRange : place < mappedBytes) :
    (ZoneTree.leaf (place / 1024)).Valid := by
  apply ZoneTree.leaf_valid
  unfold mappedBytes mappedBlocks at inRange
  omega

/-- Files that hold the same bytes. -/
theorem Kernel.fileAt_same (size : (next.inodes index).size =
      (kernel.inodes index).size)
    (bytes : ∀ place, place < mappedBytes →
      next.byteAt index place = kernel.byteAt index place) :
    next.fileAt index = kernel.fileAt index := by
  refine ByteFile.ext size (funext fun place => ?_)
  by_cases inRange : place < mappedBytes
  · exact bytes place inRange
  · have beyond : mappedBytes ≤ place := Nat.le_of_not_lt inRange
    show next.byteAt index place = kernel.byteAt index place
    rw [Kernel.byteAt_beyond beyond, Kernel.byteAt_beyond beyond]

theorem FilesHeld.filled_inode {slot : ZoneSlot} {zone : Nat}
    (filled : SlotFilled dev sb limit index slot zone kernel next)
    (other : Nat) :
    (kernel.inodes other).SameFile (next.inodes other) ∧
      (next.inodes other).size = (kernel.inodes other).size := by
  by_cases isOwn : other = index
  · subst isOwn
    obtain ⟨_, _, _, _, same⟩ := filled.own
    rw [same]
    exact ⟨⟨rfl, rfl, rfl⟩, rfl⟩
  · obtain ⟨_, _, same⟩ := filled.other other isOwn
    rw [same]
    exact ⟨⟨rfl, rfl, rfl⟩, rfl⟩

/-! ## Whose the zones are -/

/-- The zones in the trees of the files. -/
def Kernel.zonesOf (kernel : Kernel) (held : Set Nat) : Set Nat :=
  {zone | ∃ index ∈ held, ∃ slot : ZoneSlot, slot.Valid ∧
    (kernel.tree index).value slot = zone}

/-- The zones in use are those of the files and these others. -/
structure Ledger (sb : Nat) (held others : Set Nat) (kernel : Kernel) : Prop
    where
  inUse : ∀ zone ∈ others, InUse (kernel.supers sb) kernel zone
  apart : ∀ zone ∈ others, zone ∉ kernel.zonesOf held
  all : ∀ zone, InUse (kernel.supers sb) kernel zone →
    zone ∈ others ∨ zone ∈ kernel.zonesOf held

/-- No zone in use is lost, and none that is not a file's gets one. -/
def KeepsLedger (sb : Nat) (held : Set Nat) (kernel next : Kernel) : Prop :=
  (kernel.supers sb).MapsApart → ∀ others, Ledger sb held others kernel →
    Ledger sb held others next

theorem KeepsLedger.trans (before : KeepsLedger sb held kernel middle)
    (supers : middle.supers = kernel.supers)
    (after : KeepsLedger sb held middle next) :
    KeepsLedger sb held kernel next := by
  intro apart others ledger
  apply after _ others (before apart others ledger)
  rw [supers]
  exact apart

/-- A slot holds the zone that it held, or none, and `own` at most one that was
free. -/
structure SlotsKept (dev sb limit : Nat) (held : Set Nat)
    (own : Option (Nat × ZoneSlot)) (kernel next : Kernel) : Prop where
  volume : Volume dev sb limit next
  same : ∀ index ∈ held, (kernel.inodes index).SameFile (next.inodes index)
  slot : ∀ index ∈ held, ∀ slot : ZoneSlot, slot.Valid →
    (next.tree index).value slot ≠ 0 →
      InUse (next.supers sb) next ((next.tree index).value slot) ∧
      ((next.tree index).value slot = (kernel.tree index).value slot ∨
        own = some (index, slot) ∧
          ¬InUse (kernel.supers sb) kernel ((next.tree index).value slot))

/-! ## What is left of the files -/

/-- The files are held, and what each of them holds was changed so. -/
structure FilesChanged (dev sb limit : Nat) (held : Set Nat)
    (change : Nat → ByteFile → ByteFile) (kernel next : Kernel) : Prop where
  files : FilesHeld dev sb limit held next
  same : ∀ other ∈ held,
    next.fileAt other = change other (kernel.fileAt other)
  carried : Carried 0 kernel next
  ledger : KeepsLedger sb held kernel next

/-- The files hold what they held. -/
abbrev FilesKept (dev sb limit : Nat) (held : Set Nat) : Kernel → Kernel → Prop :=
  FilesChanged dev sb limit held fun _ file => file

theorem FilesChanged.trans {first second : Nat → ByteFile → ByteFile}
    (before : FilesChanged dev sb limit held first kernel middle)
    (after : FilesChanged dev sb more held second middle next) :
    FilesChanged dev sb more held (fun other file =>
      second other (first other file)) kernel next where
  files := after.files
  same := by
    intro other isOther
    rw [after.same other isOther, before.same other isOther]
  carried := (before.carried.trans after.carried).gains fun _ => Nat.zero_add 0
  ledger := before.ledger.trans before.carried.supers after.ledger

section Files

variable (files : FilesHeld dev sb limit held kernel)

include files

theorem FilesHeld.stillFile (same : ∀ index ∈ held,
      (kernel.inodes index).SameFile (next.inodes index)) :
    (∀ index ∈ held, (next.inodes index).dev = dev) ∧
      ∀ index ∈ held, (next.inodes index).isRegular = true ∧
        (next.inodes index).pipe = false := by
  constructor
  · intro index isHeld
    exact (same index isHeld).dev.trans (files.isDev index isHeld)
  · intro index isHeld
    rw [(same index isHeld).isRegular, (same index isHeld).pipe]
    exact files.isFile index isHeld

theorem FilesHeld.mapped (isHeld : index ∈ held) :
    FileMapped dev sb limit index kernel where
  volume := files.volume
  isDev := files.isDev index isHeld
  apart := by
    intro first second firstValid secondValid same isZone
    rw [← ZoneTree.value_slot, ← ZoneTree.value_slot] at same
    rw [← ZoneTree.value_slot] at isZone
    exact Indirect.slot_injective (files.once index isHeld index isHeld _ _
      (Indirect.slot_valid firstValid) (Indirect.slot_valid secondValid) same
      isZone).2
  inUse := by
    intro block valid isZone
    rw [← ZoneTree.value_slot] at isZone ⊢
    exact files.inUse index isHeld _ (Indirect.slot_valid valid) isZone

/-- No number and no indirect block of the file is written to. -/
theorem FilesHeld.sameTree (keeps : KeepsData dev sb touched kernel next)
    (isHeld : index ∈ held)
    (zones : (next.inodes index).zone = (kernel.inodes index).zone)
    (sameDev : (next.inodes index).dev = (kernel.inodes index).dev)
    (apart : ∀ block : Indirect, block.Valid →
      (kernel.tree index).block block ≠ 0 →
        (kernel.tree index).block block ∉ touched) :
    (kernel.tree index).Same (next.tree index) where
  root := fun entry => congrFun zones entry
  word := by
    intro block entry valid inBlock isZone
    have inUse := (files.mapped isHeld).inUse block valid isZone
    show shortAt (next.content (next.inodes index).dev _) _ =
      shortAt (kernel.content (kernel.inodes index).dev _) _
    rw [sameDev, files.isDev index isHeld]
    exact shortAt_same inBlock fun offset =>
      keeps _ offset inUse.lower (apart block valid isZone)

/-- A byte of a block whose zone is the same and is not written to. -/
theorem FilesHeld.sameByte (keeps : KeepsData dev sb touched kernel next)
    (isHeld : index ∈ held) {place : Nat}
    (sameDev : (next.inodes index).dev = (kernel.inodes index).dev)
    (inRange : place < mappedBytes)
    (sameMap : (next.tree index).map (place / 1024) =
      (kernel.tree index).map (place / 1024))
    (apart : (kernel.tree index).map (place / 1024) ≠ 0 →
      (kernel.tree index).map (place / 1024) ∉ touched) :
    next.byteAt index place = kernel.byteAt index place := by
  unfold Kernel.byteAt
  rw [sameMap, sameDev, files.isDev index isHeld]
  dsimp only
  split <;> rename_i isHole
  · rfl
  · have isZone := (not_or.mp isHole).2
    have inUse := files.inUse index isHeld _ (leaf_inRange inRange) isZone
    exact keeps _ _ inUse.lower (apart isZone) (Nat.mod_lt _ (by decide))

section SlotsKept

variable {own : Option (Nat × ZoneSlot)}

/-- No two slots come to hold one zone. -/
theorem SlotsKept.hold (kept : SlotsKept dev sb more held own kernel next) :
    FilesHeld dev sb more held next := by
  have still := files.stillFile kept.same
  refine ⟨kept.volume, still.1, still.2, fun other isOther slot valid isZone =>
    (kept.slot other isOther slot valid isZone).1, ?_⟩
  intro first isFirst second isSecond left right leftValid rightValid same isZone
  have isAlso : (next.tree second).value right ≠ 0 := same ▸ isZone
  obtain ⟨_, oldLeft | ⟨isOwn, wasFree⟩⟩ :=
    kept.slot first isFirst left leftValid isZone
  · obtain ⟨_, oldRight | ⟨_, wasFree⟩⟩ :=
      kept.slot second isSecond right rightValid isAlso
    · rw [oldLeft] at same isZone
      rw [oldRight] at same
      exact files.once first isFirst second isSecond left right leftValid
        rightValid same isZone
    · rw [oldLeft] at same isZone
      rw [← same] at wasFree
      exact absurd (files.inUse first isFirst left leftValid isZone) wasFree
  · obtain ⟨_, oldRight | ⟨isAlsoOwn, _⟩⟩ :=
      kept.slot second isSecond right rightValid isAlso
    · rw [oldRight] at same isAlso
      rw [same] at wasFree
      exact absurd (files.inUse second isSecond right rightValid isAlso) wasFree
    · exact Prod.mk.inj (Option.some.inj (isOwn.symm.trans isAlsoOwn))

/-- What is in use besides the zones of the files is so before and after. -/
theorem SlotsKept.ledger (kept : SlotsKept dev sb more held own kernel next)
    (stays : ∀ zone, InUse (kernel.supers sb) kernel zone →
      zone ∉ kernel.zonesOf held → InUse (next.supers sb) next zone)
    (was : (kernel.supers sb).MapsApart → ∀ zone,
      InUse (next.supers sb) next zone → zone ∉ next.zonesOf held →
        InUse (kernel.supers sb) kernel zone ∧ zone ∉ kernel.zonesOf held) :
    KeepsLedger sb held kernel next := by
  intro apart others ledger
  refine ⟨fun zone isOther => stays zone (ledger.inUse zone isOther)
    (ledger.apart zone isOther), ?_, ?_⟩
  · rintro zone isOther ⟨owner, isOwner, slot, valid, rfl⟩
    have inUse := ledger.inUse _ isOther
    have isZone : (next.tree owner).value slot ≠ 0 := by
      intro isNone
      rw [isNone] at inUse
      exact files.volume.notInUse_zero inUse
    obtain ⟨_, old | ⟨_, wasFree⟩⟩ := kept.slot owner isOwner slot valid isZone
    · exact ledger.apart _ isOther ⟨owner, isOwner, slot, valid, old.symm⟩
    · exact wasFree inUse
  · intro zone isUsed
    by_cases isOwn : zone ∈ next.zonesOf held
    · exact .inr isOwn
    · obtain ⟨wasUsed, notOwn⟩ := was apart zone isUsed isOwn
      exact .inl ((ledger.all zone wasUsed).resolve_right notOwn)

end SlotsKept

/-! ## A slot is filled -/

/-- A zone of a file is none that the block map of another file writes to,
and none of its own indirect blocks unless it is one. -/
theorem FilesHeld.notOwn (isHeld : index ∈ held) {other : Nat}
    (isOther : other ∈ held)
    {slot : ZoneSlot} (valid : slot.Valid)
    (isZone : (kernel.tree other).value slot ≠ 0)
    (apart : other = index → ∀ block : Indirect, slot ≠ block.slot) :
    (kernel.tree other).value slot ∉ kernel.ownZones sb index := by
  rintro (notInUse | ⟨block, blockValid, isBlock⟩)
  · exact notInUse (files.inUse other isOther slot valid isZone)
  · rw [← ZoneTree.value_slot] at isBlock
    obtain ⟨same, isSlot⟩ := files.once other isOther index isHeld slot
      block.slot valid (Indirect.slot_valid blockValid) isBlock.symm isZone
    exact apart same block isSlot

section Filled

variable (isHeld : index ∈ held) {slot : ZoneSlot} {zone : Nat}
  (filled : SlotFilled dev sb limit index slot zone kernel next)

include isHeld filled

/-- A slot of a file, after one was filled: it is as it was, or it is the one
that was filled, with a new zone. -/
theorem FilesHeld.filled_slot {other : Nat} (isOther : other ∈ held)
    {place : ZoneSlot} (valid : place.Valid) :
    (next.tree other).value place = (kernel.tree other).value place ∨
      (other = index ∧ place = slot ∧ (kernel.tree other).value place = 0 ∧
        (next.tree other).value place = zone ∧
        FreshZone dev (kernel.supers sb) kernel next zone) := by
  by_cases isOwn : other = index
  · subst isOwn
    by_cases isSlot : place = slot
    · subst isSlot
      rw [filled.filled]
      by_cases empty : (kernel.tree other).value place = 0
      · rw [empty]
        by_cases isZone : zone = 0
        · exact .inl isZone
        · exact .inr ⟨rfl, rfl, rfl, rfl, filled.fresh empty isZone⟩
      · left
        rw [← filled.filled]
        exact filled.kept place valid empty
    · exact .inl (filled.value place valid
        (fun isIn => isSlot (List.mem_singleton.mp isIn)))
  · left
    obtain ⟨_, _, sameInode⟩ := filled.other other isOwn
    apply (files.sameTree filled.data isOther (by rw [sameInode])
      (by rw [sameInode]) ?_).value valid
    intro block blockValid isZone
    rw [← ZoneTree.value_slot] at isZone ⊢
    exact files.notOwn isHeld isOther (Indirect.slot_valid blockValid) isZone
      fun same => absurd same isOwn

theorem FilesHeld.filled_kept :
    SlotsKept dev sb limit held (some (index, slot)) kernel next where
  volume := filled.mapped.volume
  same := fun other _ => (filled_inode filled other).1
  slot := by
    intro other isOther place valid isZone
    obtain same | ⟨rfl, rfl, _, isNew, fresh⟩ :=
      files.filled_slot isHeld filled isOther valid
    · rw [same] at isZone ⊢
      exact ⟨filled.inUse (files.inUse other isOther place valid isZone), .inl rfl⟩
    · rw [isNew, filled.carried.supers]
      exact ⟨fresh.inUse, .inr ⟨rfl, fun inUse => inUse.notFree fresh.wasFree⟩⟩

/-- A new zone is blank, as the hole was. -/
theorem FilesHeld.filled_file {other : Nat} (isOther : other ∈ held) :
    next.fileAt other = kernel.fileAt other := by
  obtain ⟨⟨sameDev, _, _⟩, size⟩ := filled_inode filled other
  apply Kernel.fileAt_same size
  intro place inRange
  have valid := leaf_inRange inRange
  obtain same | ⟨_, _, empty, isNew, fresh⟩ :=
    files.filled_slot isHeld filled isOther valid
  · apply files.sameByte filled.data isOther sameDev inRange same
    intro isZone
    exact files.notOwn isHeld isOther valid isZone fun _ block =>
      ZoneTree.leaf_ne_slot _ block
  · have wasHole : kernel.byteAt other place = 0 := if_pos (.inr empty)
    rw [wasHole]
    unfold Kernel.byteAt ZoneTree.map
    rw [isNew, sameDev, files.isDev other isOther]
    dsimp only
    split
    · rfl
    · exact fresh.blank _ (Nat.mod_lt _ (by decide))

/-- At most the bit of its zone is set. -/
theorem FilesHeld.filled_ledger (valid : slot.Valid)
    (marks : Marks sb zone kernel next) : KeepsLedger sb held kernel next := by
  apply (files.filled_kept isHeld filled).ledger files
  · exact fun _ inUse _ => filled.inUse inUse
  · rintro mapsApart other isUsed notOwn
    rw [filled.carried.supers] at isUsed
    have isOther : other ≠ zone := fun isZone =>
      notOwn ⟨index, isHeld, slot, valid, filled.filled.trans isZone.symm⟩
    have wasUsed : InUse (kernel.supers sb) kernel other :=
      ⟨isUsed.lower, isUsed.upper, by
        rw [← marks.only mapsApart other isUsed.lower isUsed.upper isOther]
        exact isUsed.isUsed⟩
    refine ⟨wasUsed, ?_⟩
    rintro ⟨owner, isOwner, place, placeValid, rfl⟩
    obtain same | ⟨_, _, empty, _⟩ :=
      files.filled_slot isHeld filled isOwner placeValid
    · exact notOwn ⟨owner, isOwner, place, placeValid, same⟩
    · rw [empty] at wasUsed
      exact files.volume.notInUse_zero wasUsed

end Filled

theorem FilesHeld.still :
    FilesKept dev sb limit held kernel kernel :=
  ⟨files, fun _ _ => rfl, .refl kernel, fun _ _ ledger => ledger⟩

/-- What `create_block` does to the files. -/
theorem FilesHeld.filling (isHeld : index ∈ held)
    (filling : SlotsFilled dev sb limit index kernel next) :
    FilesKept dev sb limit held kernel next := by
  induction filling with
  | refl => exact files.still
  | tail _ last induction =>
      obtain ⟨slot, zone, valid, filled, marks⟩ := last
      have before := induction.files
      exact induction.trans ⟨(before.filled_kept isHeld filled).hold before,
        fun _ isOther => before.filled_file isHeld filled isOther,
        filled.carried, before.filled_ledger isHeld filled valid marks⟩

end Files

end Held

end Linux011.Fs
