import Linux011.Fs.FileTrees

/-!
# What `file_read` and `file_write` do to the bytes of a file

A round of the loop of `file_write` maps one block and stores a piece of the
buffer into it, a round of that of `file_read` copies a piece out.  The pieces
lie one behind the other, so that the loops read and write the file as a
sequence of bytes, whatever its zones are.
-/

namespace Linux011.Fs

open Coop Prog ByteFiles Sched

section Held

variable {dev sb limit more index : Nat} {kernel middle next : Kernel}
  {held touched : Set Nat} {gain : Nat → Nat}

section Advanced

variable (files : FilesHeld dev sb limit held kernel)

include files

section Apart

variable (advanced : Advanced dev sb more gain touched kernel next)
  (inode : ∀ other, (next.inodes other).zone = (kernel.inodes other).zone ∧
    (kernel.inodes other).SameFile (next.inodes other))
  (apart : ∀ other ∈ held, ∀ block : Indirect, block.Valid →
    (kernel.tree other).block block ≠ 0 →
      (kernel.tree other).block block ∉ touched)

include advanced inode apart

/-- Work that writes to no indirect block of the files. -/
theorem FilesHeld.sameValue {other : Nat} (isOther : other ∈ held)
    {slot : ZoneSlot} (valid : slot.Valid) :
    (next.tree other).value slot = (kernel.tree other).value slot :=
  (files.sameTree advanced.data isOther (inode other).1 (inode other).2.dev
    (apart other isOther)).value valid

/-- If it leaves the zone map as it was, too, the zones are whose they were. -/
theorem FilesHeld.later (bits : SameBits sb kernel next) :
    FilesHeld dev sb more held next ∧ KeepsLedger sb held kernel next := by
  have supers := advanced.carried.supers
  have inUse (zone : Nat) : InUse (next.supers sb) next zone ↔
      InUse (kernel.supers sb) kernel zone := by
    rw [supers]
    exact ⟨fun ⟨lower, upper, isUsed⟩ =>
        ⟨lower, upper, (bits _).symm.trans isUsed⟩,
      fun ⟨lower, upper, isUsed⟩ => ⟨lower, upper, (bits _).trans isUsed⟩⟩
  have kept : SlotsKept dev sb more held none kernel next := by
    refine ⟨advanced.volume, fun other _ => (inode other).2, ?_⟩
    intro other isOther slot valid isZone
    have same := files.sameValue advanced inode apart isOther valid
    rw [same] at isZone ⊢
    exact ⟨(inUse _).mpr (files.inUse other isOther slot valid isZone), .inl rfl⟩
  refine ⟨kept.hold files, kept.ledger files
    (fun zone isUsed _ => (inUse zone).mpr isUsed) ?_⟩
  intro _ zone isUsed notOwn
  refine ⟨(inUse zone).mp isUsed, ?_⟩
  rintro ⟨owner, isOwner, slot, valid, isZone⟩
  exact notOwn ⟨owner, isOwner, slot, valid,
    (files.sameValue advanced inode apart isOwner valid).trans isZone⟩

end Apart

/-- Work that writes to no zone in use. -/
theorem FilesHeld.kept (advanced : Advanced dev sb more 0 ∅ kernel next)
    (bits : SameBits sb kernel next)
    (inode : ∀ other, (next.inodes other).zone = (kernel.inodes other).zone ∧
      (kernel.inodes other).SameFile (next.inodes other))
    (size : ∀ other, (next.inodes other).size = (kernel.inodes other).size) :
    FilesKept dev sb more held kernel next := by
  have apart : ∀ other ∈ held, ∀ block : Indirect, block.Valid →
      (kernel.tree other).block block ≠ 0 →
        (kernel.tree other).block block ∉ (∅ : Set Nat) :=
    fun _ _ _ _ _ isIn => isIn
  obtain ⟨later, ledger⟩ := files.later advanced inode apart bits
  refine ⟨later, ?_, advanced.carried, ledger⟩
  intro other isOther
  apply Kernel.fileAt_same (size other)
  intro place inRange
  exact files.sameByte advanced.data isOther (inode other).2.dev inRange
    (files.sameValue advanced inode apart isOther (leaf_inRange inRange))
    fun _ isIn => isIn

theorem FilesHeld.passed (passed : Passed dev sb more 0 ∅ kernel next)
    (bits : SameBits sb kernel next) :
    FilesKept dev sb more held kernel next := by
  apply files.kept passed.toAdvanced bits
  · intro other
    obtain ⟨_, _, same⟩ := passed.inode other
    rw [same]
    exact ⟨rfl, rfl, rfl, rfl⟩
  · intro other
    obtain ⟨_, _, same⟩ := passed.inode other
    rw [same]

theorem FilesHeld.settled (sound : Sound next)
    (settled : Settled 0 kernel next) :
    FilesKept dev sb limit held kernel next :=
  files.passed (files.volume.passed settled (files.volume.later settled sound))
    (files.volume.sameBits sound settled)

/-- The times of an inode. -/
theorem FilesHeld.touch (isHeld : index ∈ held) (atime mtime ctime : Nat) :
    FilesKept dev sb limit held kernel (kernel.setInode index
      { kernel.inodes index with atime, mtime, ctime }) := by
  generalize isTouched : { kernel.inodes index with atime, mtime, ctime } = touched
  have passed : Passed dev sb limit 0 ∅ kernel kernel :=
    files.volume.passed (.refl kernel) files.volume
  have own (other : Nat) :
      let next := (kernel.setInode index touched).inodes other
      (next.zone = (kernel.inodes other).zone ∧
        (kernel.inodes other).SameFile next) ∧
        next.size = (kernel.inodes other).size := by
    unfold Kernel.setInode
    subst isTouched
    dsimp only
    split <;> rename_i here
    · rw [here]
      exact ⟨⟨rfl, rfl, rfl, rfl⟩, rfl⟩
    · exact ⟨⟨rfl, rfl, rfl, rfl⟩, rfl⟩
  exact files.kept (passed.toAdvanced.setInode (isTouched ▸ rfl)
    (isTouched ▸ rfl) (files.isDev index isHeld)) (fun _ => rfl)
    (fun other => (own other).1) fun other => (own other).2

end Advanced

/-! ## A piece is stored -/

/-- A data zone has new bytes, and an inode a size. -/
structure Stored (dev sb limit index zone size : Nat) (bytes : Block)
    (kernel next : Kernel) : Prop
    extends Advanced dev sb limit 0 {zone} kernel next where
  sameBits : SameBits sb kernel next
  content : ∀ offset, offset < 1024 →
    next.content dev zone offset = bytes offset
  other : ∀ other, other ≠ index → ∃ dirt lock,
    next.inodes other = { kernel.inodes other with dirt, lock }
  own : ∃ dirt lock,
    next.inodes index = { kernel.inodes index with size, dirt, lock }

theorem Stored.inode {zone size : Nat} {bytes : Block}
    (stored : Stored dev sb limit index zone size bytes kernel next)
    (other : Nat) :
    (next.inodes other).zone = (kernel.inodes other).zone ∧
      (kernel.inodes other).SameFile (next.inodes other) := by
  by_cases isOwn : other = index
  · subst isOwn
    obtain ⟨_, _, same⟩ := stored.own
    rw [same]
    exact ⟨rfl, rfl, rfl, rfl⟩
  · obtain ⟨_, _, same⟩ := stored.other other isOwn
    rw [same]
    exact ⟨rfl, rfl, rfl, rfl⟩

/-- The buffer of a block is changed while it is held, and given back; the
size of an inode is changed before. -/
theorem Read.store_wp {zone bh size : Nat} {dirt : Bool}
    (read : Read kernel dev zone bh middle)
    (volume : Volume dev sb limit kernel)
    (isDev : (kernel.inodes index).dev = dev)
    (lower : (kernel.supers sb).firstdatazone ≤ zone)
    (upper : zone < (kernel.supers sb).nzones) (data : Block) :
    (brelse (some bh)).wp .uncrossed Io
      (fun _ next => Stored dev sb limit index zone size data kernel next)
      ((middle.setInode index { middle.inodes index with size, dirt }).edit bh
        data true) := by
  obtain ⟨_, _, sameInode, _⟩ := read.settled.inode index
  have middleDev : (middle.inodes index).dev = dev := by
    rw [sameInode]
    exact isDev
  have taken : Advanced dev sb (limit + 1) (one bh) ∅ kernel
      (middle.setInode index { middle.inodes index with size, dirt }) :=
    (volume.taken read.toGot).toAdvanced.setInode rfl rfl middleDev
  have edited : Passed dev sb (limit + 1) 0 {(middle.buffers bh).block}
      (middle.setInode index { middle.inodes index with size, dirt })
      ((middle.setInode index { middle.inodes index with size, dirt }).edit bh
        data true) := by
    apply taken.volume.edited read.isBuffer (.inl read.fresh) read.isFor.1
    · show (middle.supers sb).firstdatazone ≤ (middle.buffers bh).block
      rw [read.settled.supers, read.isFor.2]
      exact lower
    · show (middle.buffers bh).block < (middle.supers sb).nzones
      rw [read.settled.supers, read.isFor.2]
      exact upper
  rw [read.isFor.2] at edited
  have total : Advanced dev sb (limit + 1) (one bh) {zone} kernel _ :=
    { (taken.touching (Set.empty_subset {zone})).trans edited.toAdvanced with
      carried := (taken.carried.trans edited.carried).gains fun _ =>
        Nat.add_zero _ }
  have held : 0 < (middle.buffers bh).count := by
    rw [read.settled.count, one_same]
    omega
  apply wp_mono (brelse_released total.volume.sound (by
    rw [edit_own]
    exact held) (by
    rw [edit_own]
    exact read.small))
  intro _ next released
  refine ⟨total.released volume released, ?_, ?_, ?_, ?_⟩
  · intro nr
    have given := released.mapBit total.volume nr
    rw [total.carried.supers] at given
    rw [given, ← volume.mapBit_settled read.sound read.settled nr,
      ← taken.carried.supers]
    apply taken.volume.mapBit_edit
    show (middle.supers sb).firstdatazone ≤ (middle.buffers bh).block
    rw [read.settled.supers, read.isFor.2]
    exact lower
  · intro offset inBlock
    rw [released.content dev zone offset volume.hasDev inBlock,
      edit_content taken.volume.sound read.isBuffer read.isFor volume.hasDev
        volume.hasDev, if_pos ⟨rfl, rfl⟩]
  · intro other different
    obtain ⟨dirt, lock, same, _⟩ := read.settled.inode other
    refine ⟨dirt, lock, ?_⟩
    rw [released.inodes, ← same]
    exact if_neg different
  · refine ⟨dirt, (middle.inodes index).lock, ?_⟩
    rw [released.inodes]
    show (if index = index then _ else _) = _
    rw [if_pos rfl, sameInode]

/-- The indirect blocks of the files are not in the blocks of one. -/
theorem FilesHeld.notData (files : FilesHeld dev sb limit held kernel)
    (isHeld : index ∈ held) {block : Nat}
    (valid : (ZoneTree.leaf block).Valid) {other : Nat} (isOther : other ∈ held)
    {indirect : Indirect} (isIndirect : indirect.Valid)
    (isZone : (kernel.tree other).block indirect ≠ 0) :
    (kernel.tree other).block indirect ∉
      ({(kernel.tree index).map block} : Set Nat) := by
  intro same
  rw [← ZoneTree.value_slot] at same isZone
  obtain ⟨_, isLeaf⟩ := files.once other isOther index isHeld _ _
    (Indirect.slot_valid isIndirect) valid same isZone
  exact ZoneTree.leaf_ne_slot block indirect isLeaf.symm

/-- Bytes were stored in one of the files. -/
abbrev FilesWritten (dev sb limit : Nat) (held : Set Nat)
    (index pos count : Nat) (buf : Nat → UInt8) : Kernel → Kernel → Prop :=
  FilesChanged dev sb limit held
    (onFile index fun file => file.write pos count buf)

section Piece

variable {pos count size : Nat} {buf : Nat → UInt8}
  (files : FilesHeld dev sb limit held kernel) (isHeld : index ∈ held)
  (inRange : pos < mappedBytes)
  (isZone : (kernel.tree index).map (pos / 1024) ≠ 0)
  (inBlock : pos % 1024 + count ≤ 1024)
  (stored : Stored dev sb limit index ((kernel.tree index).map (pos / 1024))
    size (Block.copied
      (kernel.content dev ((kernel.tree index).map (pos / 1024)))
      (pos % 1024) count buf) kernel next)

include files isHeld inRange isZone inBlock stored

/-- A place in the file whose block got the piece, and one that it did not
touch. -/
theorem FilesHeld.stored_byte {place : Nat} (placed : place < mappedBytes)
    (sameMap : (next.tree index).map (place / 1024) =
      (kernel.tree index).map (place / 1024)) :
    next.byteAt index place =
      if pos ≤ place ∧ place < pos + count then buf (place - pos)
      else kernel.byteAt index place := by
  by_cases isBlock : place / 1024 = pos / 1024
  · unfold Kernel.byteAt
    rw [(stored.inode index).2.dev, files.isDev index isHeld, sameMap, isBlock]
    have isThere : ¬(mappedBytes ≤ place ∨
        (kernel.tree index).map (pos / 1024) = 0) := by
      rintro (beyond | isHole)
      · omega
      · exact isZone isHole
    dsimp only
    rw [if_neg isThere, if_neg isThere,
      stored.content _ (Nat.mod_lt _ (by decide))]
    show (if pos % 1024 ≤ place % 1024 ∧
      place % 1024 < pos % 1024 + count then _ else _) = _
    by_cases inPiece : pos ≤ place ∧ place < pos + count
    · rw [if_pos inPiece, if_pos (by omega)]
      exact congrArg buf (by omega)
    · rw [if_neg inPiece, if_neg (by omega)]
  · rw [if_neg (by omega)]
    apply files.sameByte stored.data isHeld (stored.inode index).2.dev placed
      sameMap
    intro isOther same
    obtain ⟨_, sameLeaf⟩ := files.once index isHeld index isHeld _ _
      (leaf_inRange placed) (leaf_inRange inRange) same isOther
    exact isBlock (ZoneTree.leaf_injective sameLeaf)

/-- The files after a piece was stored in a block of one of them. -/
theorem FilesHeld.stores (isSome : count ≠ 0)
    (isSize : size = max (kernel.inodes index).size (pos + count)) :
    FilesWritten dev sb limit held index pos count buf kernel next := by
  have leaf := leaf_inRange inRange
  have mapped : mappedBytes = 268966912 := rfl
  have apart : ∀ other ∈ held, ∀ block : Indirect, block.Valid →
      (kernel.tree other).block block ≠ 0 →
        (kernel.tree other).block block ∉
          ({(kernel.tree index).map (pos / 1024)} : Set Nat) :=
    fun other isOther block valid => files.notData isHeld leaf isOther valid
  have sameValue {other : Nat} (isOther : other ∈ held) {slot : ZoneSlot}
      (valid : slot.Valid) :=
    files.sameValue stored.toAdvanced stored.inode apart isOther valid
  obtain ⟨later, ledger⟩ :=
    files.later stored.toAdvanced stored.inode apart stored.sameBits
  refine ⟨later, ?_, stored.carried, ledger⟩
  intro other isOther
  by_cases here : other = index
  · subst here
    rw [onFile_own]
    obtain ⟨_, _, own⟩ := stored.own
    refine ByteFile.ext ?_ (funext fun place => ?_)
    · show (next.inodes other).size = if count = 0 then _ else
        max (kernel.inodes other).size (pos + count)
      rw [own, if_neg isSome, isSize]
    · show next.byteAt other place =
        if pos ≤ place ∧ place < pos + count then buf (place - pos)
        else kernel.byteAt other place
      by_cases placed : place < mappedBytes
      · exact files.stored_byte isHeld inRange isZone inBlock stored placed
          (sameValue isHeld (leaf_inRange placed))
      · have beyond : mappedBytes ≤ place := Nat.le_of_not_lt placed
        rw [if_neg (by omega), Kernel.byteAt_beyond beyond,
          Kernel.byteAt_beyond beyond]
  · rw [onFile_other here]
    apply Kernel.fileAt_same
    · obtain ⟨_, _, same⟩ := stored.other other here
      rw [same]
    · intro place placed
      apply files.sameByte stored.data isOther (stored.inode other).2.dev
        placed (sameValue isOther (leaf_inRange placed))
      intro isOwn same
      exact here (files.once other isOther index isHeld _ _
        (leaf_inRange placed) leaf same isOwn).1

end Piece

/-! ## The loop of `file_read` -/

section Loops

variable {fuel rounds : Nat}

theorem tdiv_block (pos : Nat) : (pos : Int).tdiv 1024 = (pos / 1024 : Nat) :=
  (Int.ofNat_tdiv pos 1024).symm

theorem tmod_block (pos : Nat) : ((pos : Int).tmod 1024).toNat = pos % 1024 := by
  rw [show (pos : Int).tmod 1024 = (pos % 1024 : Nat) from
    (Int.ofNat_tmod pos 1024).symm]
  rfl

/-- The block map, for a place of a file. -/
theorem mapBlock_nat (create : Bool) (index block : Nat) :
    mapBlock create fuel index (block : Int) =
      bmapWith create fuel index block := by
  unfold mapBlock
  rw [if_neg (by omega), Int.toNat_natCast]

/-- A piece of a block of the file. -/
theorem FilesHeld.bytes_piece (files : FilesHeld dev sb limit held kernel)
    (isHeld : index ∈ held) {pos chars : Nat} (data : Nat → UInt8)
    (inBlock : pos % 1024 + chars ≤ 1024) (inRange : pos < mappedBytes)
    (isPiece : ∀ place, place < chars → data place =
      if (kernel.tree index).map (pos / 1024) = 0 then 0
      else kernel.content dev ((kernel.tree index).map (pos / 1024))
        (pos % 1024 + place)) :
    (kernel.fileAt index).bytes pos chars = (List.range chars).map data := by
  have limit : mappedBytes = 268966912 := rfl
  apply List.map_congr_left
  intro place inPiece
  have inPiece := List.mem_range.mp inPiece
  show kernel.byteAt index (pos + place) = data place
  unfold Kernel.byteAt
  rw [isPiece place inPiece, files.isDev index isHeld,
    show (pos + place) / 1024 = pos / 1024 by omega,
    show (pos + place) % 1024 = pos % 1024 + place by omega]
  dsimp only
  by_cases isHole : (kernel.tree index).map (pos / 1024) = 0
  · rw [if_pos (.inr isHole), if_pos isHole]
  · rw [if_neg (by omega), if_neg isHole]

/-- What `bread` puts into its buffer, and `brelse` of the buffer. -/
theorem FilesHeld.read_wp (files : FilesHeld dev sb limit held kernel)
    {zone bh : Nat} (read : Read kernel dev zone bh middle)
    (lower : (kernel.supers sb).firstdatazone ≤ zone) :
    (∀ offset, offset < 1024 →
      (middle.buffers bh).data offset = kernel.content dev zone offset) ∧
    (brelse (some bh)).wp .uncrossed Io
      (fun _ next => FilesKept dev sb limit held kernel next) middle := by
  have taken := files.volume.taken read.toGot
  constructor
  · intro offset inBlock
    have content := taken.volume.content_held read.isBuffer read.isFor.1
      read.fresh
    rw [read.isFor.2] at content
    rw [← content]
    exact taken.data zone offset lower (fun isIn => isIn) inBlock
  · have held : 0 < (middle.buffers bh).count := by
      rw [read.settled.count, one_same]
      omega
    apply wp_mono (brelse_released read.sound held read.small)
    intro _ next released
    apply files.passed (taken.released files.volume released)
    intro nr
    have given := released.mapBit taken.volume nr
    rw [taken.carried.supers] at given
    rw [given]
    exact files.volume.mapBit_settled read.sound read.settled nr

/-- Nothing is left to read. -/
theorem FilesHeld.readNothing_wp (files : FilesHeld dev sb limit held kernel)
    (pos : Nat) (bytes : List UInt8) :
    (pure (0, (pos : Int), bytes) : Sys (Nat × Int × List UInt8)).wp .uncrossed
      Io (fun result next => result = (0, ((pos + 0 : Nat) : Int),
          bytes ++ (kernel.fileAt index).bytes pos 0) ∧
        FilesKept dev sb limit held kernel next) kernel := by
  refine ⟨?_, files.still⟩
  rw [show (kernel.fileAt index).bytes pos 0 = [] from rfl, List.append_nil,
    Nat.add_zero]

/-- The loop of `file_read` reads the bytes of the file, and changes nothing
that can be read. -/
theorem FilesHeld.readLoop_wp (files : FilesHeld dev sb limit held kernel)
    (isHeld : index ∈ held) (room : limit < 255) {pos left : Nat}
    (enough : left ≤ rounds) (inRange : pos + left ≤ mappedBytes)
    (bytes : List UInt8) :
    (fileReadLoop fuel index rounds left pos bytes).wp .uncrossed Io
      (fun result next => result = (0, ((pos + left : Nat) : Int),
          bytes ++ (kernel.fileAt index).bytes pos left) ∧
        FilesKept dev sb limit held kernel next) kernel := by
  induction rounds generalizing kernel pos left bytes with
  | zero =>
      obtain rfl : left = 0 := Nat.le_zero.mp enough
      exact files.readNothing_wp pos bytes
  | succ rounds induction =>
      unfold fileReadLoop
      split <;> rename_i atEnd
      · rw [atEnd]
        exact files.readNothing_wp pos bytes
      · have isLimit : mappedBytes = 268966912 := rfl
        have begins : pos < mappedBytes := by omega
        have blocks : pos / 1024 < 7 + 512 + 512 * 512 := by omega
        rw [tdiv_block, tmod_block, mapBlock_nat, wp_bind]
        dsimp only
        obtain ⟨chars, isChars⟩ :
            ∃ chars, chars = min (1024 - pos % 1024) left := ⟨_, rfl⟩
        rw [← isChars]
        have inBlock : pos % 1024 + chars ≤ 1024 := by omega
        -- the rest, once a piece is copied
        have goesOn {later : Kernel}
            (kept : FilesKept dev sb limit held kernel later)
            {copied : List UInt8}
            (isPiece : (kernel.fileAt index).bytes pos chars = copied) :
            (fileReadLoop fuel index rounds (left - chars)
              (long ((pos : Int) + chars)) (bytes ++ copied)).wp .uncrossed Io
              (fun result next => result = (0, ((pos + left : Nat) : Int),
                  bytes ++ (kernel.fileAt index).bytes pos left) ∧
                FilesKept dev sb limit held kernel next) later := by
          have places : (pos : Int) + left ≤ mappedBytes := by omega
          rw [long_add (Int.natCast_nonneg pos) places (by omega),
            ← Int.natCast_add]
          apply wp_mono (induction kept.files (by omega) (by omega) _)
          rintro _ next ⟨rfl, after⟩
          refine ⟨?_, kept.trans after⟩
          rw [kept.same index isHeld, ← isPiece, List.append_assoc,
            ByteFile.bytes_append,
            show pos + chars + (left - chars) = pos + left by omega,
            show chars + (left - chars) = left by omega]
        apply wp_mono ((files.mapped isHeld).bmap_wp trivial room blocks fuel)
        rintro zone mapped ⟨isZone, sound, settled⟩
        have kept := files.settled sound settled
        split <;> rename_i isHole
        · apply goesOn kept
          rw [files.bytes_piece isHeld (fun _ => 0) inBlock begins,
            List.map_const', List.length_range]
          intro place _
          rw [← isZone, if_pos isHole]
        · have sameMap : (mapped.tree index).map (pos / 1024) = zone := by
            rw [isZone]
            exact ((files.mapped isHeld).settled sound settled).value _
              (leaf_inRange begins) List.not_mem_nil
          have inUse := kept.files.inUse index isHeld _ (leaf_inRange begins)
            (fun isNone => isHole (sameMap.symm.trans isNone))
          rw [show (mapped.tree index).value (ZoneTree.leaf (pos / 1024)) = zone
            from sameMap] at inUse
          rw [wp_bind, wp_get, kept.files.isDev index isHeld, wp_bind]
          apply wp_mono (kept.files.volume.bread_wp trivial room inUse.upper
            fuel)
          rintro _ got ⟨bh, rfl, read⟩
          obtain ⟨data, gives⟩ := kept.files.read_wp read inUse.lower
          rw [wp_bind, wp_get, wp_bind]
          apply wp_mono gives
          intro _ later after
          apply goesOn (kept.trans after)
          rw [← kept.same index isHeld]
          apply kept.files.bytes_piece isHeld _ inBlock begins
          intro place inPiece
          rw [sameMap, if_neg isHole]
          exact data _ (by omega)

theorem FilesHeld.fileRead_wp (files : FilesHeld dev sb limit held kernel)
    (isHeld : index ∈ held) (room : limit < 255) {pos count : Nat}
    (isSome : 0 < count) (inRange : pos + count ≤ mappedBytes) :
    (fileRead fuel index pos count).wp .uncrossed Io
      (fun result next => result = ((count : Int), ((pos + count : Nat) : Int),
          (kernel.fileAt index).bytes pos count) ∧
        FilesKept dev sb limit held kernel next) kernel := by
  unfold fileRead
  rw [if_neg (by omega), Int.toNat_natCast, wp_bind]
  apply wp_mono (files.readLoop_wp isHeld room (Nat.le_refl count) inRange [])
  rintro _ read ⟨rfl, kept⟩
  dsimp only
  rw [wp_bind, wp_get, wp_bind]
  unfold onInode
  rw [wp_modify, wp_pure]
  refine ⟨?_, kept.trans (kept.files.touch isHeld read.now
    (read.inodes index).mtime (read.inodes index).ctime)⟩
  rw [if_pos (by omega), List.nil_append, Int.natCast_zero, Int.sub_zero]

/-! ## The loop of `file_write` -/

theorem FilesChanged.congr {first second : Nat → ByteFile → ByteFile}
    (changed : FilesChanged dev sb limit held first kernel next)
    (same : ∀ other file, first other file = second other file) :
    FilesChanged dev sb limit held second kernel next :=
  { changed with
    same := fun other isOther =>
      (changed.same other isOther).trans (same other _) }

theorem FilesKept.written (kept : FilesKept dev sb limit held kernel next)
    (index pos : Nat) (buf : Nat → UInt8) :
    FilesWritten dev sb limit held index pos 0 buf kernel next :=
  kept.congr fun _ _ => (onFile_same fun _ => ByteFile.write_none).symm

theorem FilesWritten.trans {pos first second : Nat} {buf : Nat → UInt8}
    (before : FilesWritten dev sb limit held index pos first buf kernel middle)
    (after : FilesWritten dev sb limit held index (pos + first) second
      (fun offset => buf (first + offset)) middle next) :
    FilesWritten dev sb limit held index pos (first + second) buf kernel
      next := by
  apply (FilesChanged.trans before after).congr
  intro other file
  rw [onFile_onFile]
  simp only [ByteFile.write_write]

/-- A buffer that is up to date is changed. -/
theorem wp_storeMap {fate : Fate} {env : Kernel → Kernel → Prop}
    {post : Unit → Kernel → Prop} {bh : Nat} {change : Block → Block}
    (isFresh : (kernel.buffers bh).uptodate = true)
    (holds : post () (kernel.edit bh (change (kernel.buffers bh).data) true)) :
    (storeMap bh change).wp fate env post kernel := by
  have stores : kernel.edit bh (change (kernel.buffers bh).data) true =
      kernel.setBuffer bh
        { kernel.buffers bh with
          data := change (kernel.buffers bh).data
          dirt := true } := by
    unfold Kernel.edit
    rw [← isFresh]
  rw [stores] at holds
  unfold storeMap onBuffer
  rw [wp_modify]
  exact holds

/-- A longer file gets its size. -/
theorem resize_eq (inode : Inode) (size : Nat) :
    (if inode.size < size then { inode with size, dirt := true } else inode) =
      { inode with
        size := max inode.size size
        dirt := inode.dirt || decide (inode.size < size) } := by
  split <;> rename_i longer
  · rw [Nat.max_eq_right (by omega), decide_eq_true longer, Bool.or_true]
  · rw [Nat.max_eq_left (by omega), decide_eq_false longer, Bool.or_false]

/-- A piece of the buffer is stored into the block that was read. -/
theorem FilesHeld.storePiece_wp (files : FilesHeld dev sb limit held kernel)
    (isHeld : index ∈ held) {pos count zone bh : Nat} (buf : Nat → UInt8)
    (inRange : pos < mappedBytes)
    (isZone : (kernel.tree index).map (pos / 1024) = zone) (mapped : zone ≠ 0)
    (isSome : count ≠ 0) (inBlock : pos % 1024 + count ≤ 1024)
    (read : Read kernel dev zone bh middle) :
    (do
      onInode index fun inode =>
        if inode.size < pos + count then
          { inode with
            size := pos + count
            dirt := true }
        else inode
      storeMap bh fun data => Block.copied data (pos % 1024) count buf
      brelse (some bh) : Sys Unit).wp .uncrossed Io
      (fun _ next => FilesWritten dev sb limit held index pos count buf kernel
        next) middle := by
  have inUse := files.inUse index isHeld _ (leaf_inRange inRange)
    (fun isNone => mapped (isZone.symm.trans isNone))
  rw [show (kernel.tree index).value (ZoneTree.leaf (pos / 1024)) = zone
    from isZone] at inUse
  have data := (files.read_wp read inUse.lower).1
  obtain ⟨_, _, sameInode, _⟩ := read.settled.inode index
  unfold onInode
  rw [wp_bind, wp_modify, wp_bind]
  dsimp only
  rw [resize_eq]
  refine wp_storeMap read.fresh ?_
  apply wp_mono (read.store_wp files.volume (files.isDev index isHeld)
    inUse.lower inUse.upper _)
  intro _ next stored
  subst isZone
  have isStored : Stored dev sb limit index
      ((kernel.tree index).map (pos / 1024)) _ (Block.copied
        (kernel.content dev ((kernel.tree index).map (pos / 1024)))
        (pos % 1024) count buf) kernel next :=
    { stored with
      content := by
        intro offset isOffset
        rw [stored.content offset isOffset]
        unfold Block.copied
        split
        · rfl
        · exact data offset isOffset }
  apply files.stores isHeld inRange mapped inBlock isStored isSome
  rw [sameInode]

theorem unsignedLong_nat {value : Nat} (small : value < 4294967296) :
    unsignedLong (value : Int) = value := by
  unfold unsignedLong
  omega

/-- A piece of a block, as the loops cut it. -/
theorem piece_fits {pos left : Nat} (isSome : left ≠ 0)
    (inRange : pos + left ≤ mappedBytes) :
    ∃ chars, min (1024 - pos % 1024) left = chars ∧ chars ≠ 0 ∧
      pos % 1024 + chars ≤ 1024 ∧ chars ≤ left ∧
      long ((pos : Int) + chars) = ((pos + chars : Nat) : Int) ∧
      unsignedLong ((pos + chars : Nat) : Int) = pos + chars := by
  have isLimit : mappedBytes = 268966912 := rfl
  refine ⟨_, rfl, by omega, by omega, by omega, ?_,
    unsignedLong_nat (by omega)⟩
  have places : (pos : Int) + left ≤ mappedBytes := by omega
  rw [long_add (Int.natCast_nonneg pos) places (by omega), Int.natCast_add]

/-- The loop of `file_write` stores a first part of the buffer. -/
theorem FilesHeld.writeLoop_wp (files : FilesHeld dev sb limit held kernel)
    (isHeld : index ∈ held) (room : limit + 1 < 255) {pos i left count : Nat}
    (total : i + left = count) (enough : left ≤ rounds)
    (inRange : pos + left ≤ mappedBytes) (buf : Nat → UInt8) :
    (fileWriteLoop fuel index buf count rounds i pos).wp .uncrossed Io
      (fun result next => ∃ stored, stored ≤ left ∧
        result = (i + stored, ((pos + stored : Nat) : Int)) ∧
        (stored < left → NoneFree sb next) ∧
        FilesWritten dev sb limit held index pos stored
          (fun offset => buf (i + offset)) kernel next) kernel := by
  have stop (later : Kernel) (kept : FilesKept dev sb limit held kernel later)
      (full : 0 < left → NoneFree sb later) :
      (pure (i, (pos : Int)) : Sys (Nat × Int)).wp .uncrossed Io
        (fun result next => ∃ stored, stored ≤ left ∧
          result = (i + stored, ((pos + stored : Nat) : Int)) ∧
          (stored < left → NoneFree sb next) ∧
          FilesWritten dev sb limit held index pos stored
            (fun offset => buf (i + offset)) kernel next) later :=
    ⟨0, Nat.zero_le _, rfl, full, kept.written index pos _⟩
  induction rounds generalizing kernel pos i left with
  | zero =>
      exact stop kernel files.still fun isLeft =>
        absurd enough (Nat.not_le_of_lt isLeft)
  | succ rounds induction =>
      unfold fileWriteLoop
      split <;> rename_i atEnd
      · exact stop kernel files.still fun isLeft => by omega
      · obtain rfl : left = count - i := by omega
        have isSome : count - i ≠ 0 := Nat.sub_ne_zero_of_lt
          (Nat.lt_of_not_le atEnd)
        have begins : pos < mappedBytes := Nat.lt_of_lt_of_le
          (Nat.lt_add_of_pos_right (Nat.pos_of_ne_zero isSome)) inRange
        have blocks : pos / 1024 < 7 + 512 + 512 * 512 :=
          Nat.div_lt_of_lt_mul begins
        obtain ⟨chars, isChars, isSome, inBlock, within, isNext, isSize⟩ :=
          piece_fits isSome inRange
        rw [tdiv_block, tmod_block, mapBlock_nat, wp_bind]
        dsimp only
        rw [isChars, isNext, isSize]
        apply wp_mono
          ((files.mapped isHeld).createBlock_fills room blocks fuel)
        intro zone created isCreated
        have kept := files.filling isHeld isCreated.slots
        have isMapped : (created.tree index).map (pos / 1024) = zone :=
          isCreated.isMapped
        split <;> rename_i isZone
        · exact stop created kept fun _ => isCreated.full isZone
        · have inUse := kept.files.inUse index isHeld _ (leaf_inRange begins)
            (fun isNone => isZone (isMapped.symm.trans isNone))
          rw [show (created.tree index).value (ZoneTree.leaf (pos / 1024)) = zone
            from isMapped] at inUse
          rw [wp_bind, wp_get, kept.files.isDev index isHeld, wp_bind]
          apply wp_mono (kept.files.volume.bread_wp trivial
            (Nat.lt_of_succ_lt room) inUse.upper fuel)
          rintro _ got ⟨bh, rfl, read⟩
          have stores := kept.files.storePiece_wp
            isHeld (fun place => buf (i + place)) begins isMapped isZone isSome
            inBlock read
          rw [wp_bind] at stores ⊢
          apply wp_mono stores
          intro _ state stores
          rw [wp_bind] at stores ⊢
          apply wp_mono stores
          intro _ state stores
          rw [wp_bind]
          apply wp_mono stores
          intro _ later written
          have rest : i + chars + (count - i - chars) = count := by omega
          have places : pos + chars + (count - i - chars) ≤ mappedBytes := by
            rw [Nat.add_assoc, Nat.add_sub_of_le within]
            exact inRange
          apply wp_mono (induction written.files rest (by omega) places
            fun later kept full =>
              ⟨0, Nat.zero_le _, rfl, full, kept.written index _ _⟩)
          rintro result next ⟨stored, isStored, rfl, full, after⟩
          refine ⟨chars + stored, ?_, ?_, ?_, ?_⟩
          · exact Nat.add_le_of_le_sub' within isStored
          · rw [Nat.add_assoc, Nat.add_assoc]
          · exact fun isShort => full (Nat.lt_sub_iff_add_lt'.mpr isShort)
          · have sameBuf : (fun offset => buf (i + chars + offset)) =
                fun offset => buf (i + (chars + offset)) :=
              funext fun offset => congrArg buf (Nat.add_assoc i chars offset)
            rw [sameBuf] at after
            exact FilesChanged.trans kept (written.trans after)

theorem FilesHeld.fileWrite_wp (files : FilesHeld dev sb limit held kernel)
    {file : OpenFile} (isHeld : file.fInode ∈ held) (room : limit + 1 < 255)
    {pos count : Nat}
    (isStart : file.start (kernel.inodes file.fInode) = pos)
    (inRange : pos + count ≤ mappedBytes) (buf : Nat → UInt8) :
    (fileWrite fuel file buf count).wp .uncrossed Io
      (fun result next => ∃ stored, stored ≤ count ∧
        result = (if stored ≠ 0 then (stored : Int) else -1,
          if file.fFlags &&& oAppend ≠ 0 then file.fPos
          else ((pos + stored : Nat) : Int)) ∧
        (stored < count → NoneFree sb next) ∧
        FilesWritten dev sb limit held file.fInode pos stored buf kernel next)
      kernel := by
  unfold fileWrite
  rw [wp_bind, wp_get, isStart, Int.toNat_natCast, wp_bind]
  apply wp_mono (files.writeLoop_wp isHeld room (Nat.zero_add count)
    (Nat.le_refl count) inRange buf)
  rintro _ later ⟨stored, isStored, rfl, full, written⟩
  rw [wp_bind, wp_get, wp_bind]
  unfold onInode
  rw [wp_modify, wp_pure]
  refine ⟨stored, isStored, ?_, full, ?_⟩
  · rw [Nat.zero_add]
  · have sameBuf : (fun offset => buf (0 + offset)) = buf :=
      funext fun offset => congrArg buf (Nat.zero_add offset)
    rw [sameBuf] at written
    have touched (ctime : Nat) := FilesChanged.trans written
      (written.files.touch isHeld (later.inodes file.fInode).atime later.now
        ctime)
    split
    · exact touched (later.inodes file.fInode).ctime
    · exact touched later.now

end Loops

end Held

end Linux011.Fs
