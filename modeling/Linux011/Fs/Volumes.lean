import Linux011.Fs.CacheSession
import Linux011.Fs.Directories
import Linux011.Fs.MapBits
import Linux011.Library.Hoare
import Mathlib.Data.Set.Basic

/-!
# A mounted device that one task works on

The zone map is loaded, the blocks before the data zones are what they should
be, and transfers succeed.  On such a volume a block is read as it was written
last, and `new_block` gives out a free zone and blanks it; nothing else
changes but the inode table, which the cache may bring up to date.
-/

namespace Linux011.Fs

open Coop Prog

/-- The first block of the inode table. -/
def Super.tableStart (super : Super) : Nat :=
  2 + super.imapBlocks + super.zmapBlocks

/-- The block of a map that a superblock holds. -/
structure MapLoaded (kernel : Kernel) (dev : Nat) (super : Super) (bh : Nat) :
    Prop where
  isBuffer : bh < kernel.nrBuffers
  held : 0 < (kernel.buffers bh).count
  fresh : (kernel.buffers bh).uptodate = true
  isDev : (kernel.buffers bh).dev = dev
  below : (kernel.buffers bh).block < super.tableStart

/-- A mounted device whose reads succeed, with at most `limit` references to
each buffer. -/
structure Volume (dev sb limit : Nat) (kernel : Kernel) : Prop where
  sound : Sound kernel
  hasDev : dev ≠ 0
  found : findSuper kernel.supers dev 0 nrSuper = some sb
  short : (kernel.supers sb).nzones < 65536
  inside : (kernel.supers sb).firstdatazone ≤ (kernel.supers sb).nzones
  ordered : (kernel.supers sb).tableStart ≤ (kernel.supers sb).firstdatazone
  serves : ∀ zone, zone < (kernel.supers sb).nzones → Serves kernel dev zone
  notBlind : ∀ other block, ¬Blind kernel other block
  few : ∀ bh, (kernel.buffers bh).count ≤ limit
  loaded : ∀ index bh, (kernel.supers sb).zmap index = some bh →
    MapLoaded kernel dev (kernel.supers sb) bh
  reserved : mapBit kernel (kernel.supers sb).zmap 0 ≠ some false
  placed : InodesPlaced kernel
  table : ∀ index, index < nrInode → (kernel.inodes index).dev = dev →
    inodeBlock (kernel.supers sb) (kernel.inodes index).num <
      (kernel.supers sb).firstdatazone

/-- The buffers that are held stay what they are. -/
structure KeepsHeld (kernel next : Kernel) : Prop where
  size : next.nrBuffers = kernel.nrBuffers
  held : ∀ bh, 0 < (kernel.buffers bh).count →
    (next.buffers bh).dev = (kernel.buffers bh).dev ∧
      (next.buffers bh).block = (kernel.buffers bh).block ∧
      ((kernel.buffers bh).uptodate = true →
        (next.buffers bh).uptodate = true)

/-- What is the same after a step, and the references it gains. -/
structure Carried (gain : Nat → Nat) (kernel next : Kernel) : Prop
    extends KeepsHeld kernel next where
  supers : next.supers = kernel.supers
  driver : next.driver = kernel.driver
  now : next.now = kernel.now
  count : ∀ bh, (next.buffers bh).count = (kernel.buffers bh).count + gain bh

namespace Carried

variable {first second third : Kernel} {left right : Nat → Nat}

theorem refl (kernel : Kernel) : Carried 0 kernel kernel :=
  ⟨⟨rfl, fun _ _ => ⟨rfl, rfl, fun isFresh => isFresh⟩⟩, rfl, rfl, rfl,
    fun _ => rfl⟩

theorem trans (before : Carried left first second)
    (after : Carried right second third) :
    Carried (left + right) first third where
  size := after.size.trans before.size
  supers := after.supers.trans before.supers
  driver := after.driver.trans before.driver
  now := after.now.trans before.now
  count := by
    intro bh
    rw [after.count, before.count, Pi.add_apply, Nat.add_assoc]
  held := by
    intro bh isHeld
    obtain ⟨dev, block, fresh⟩ := before.held bh isHeld
    have stillHeld : 0 < (second.buffers bh).count := by
      rw [before.count]
      exact Nat.add_pos_left isHeld _
    obtain ⟨nextDev, nextBlock, nextFresh⟩ := after.held bh stillHeld
    exact ⟨nextDev.trans dev, nextBlock.trans block,
      fun isFresh => nextFresh (fresh isFresh)⟩

/-- With the gains counted otherwise. -/
theorem gains (carried : Carried left first second)
    (same : ∀ bh, left bh = right bh) : Carried right first second :=
  { carried with
    count := by
      intro bh
      rw [carried.count, same] }

theorem settled (settled : Settled left first second) :
    Carried left first second where
  size := settled.size
  supers := settled.supers
  driver := settled.driver
  now := settled.now
  count := settled.count
  held := by
    intro bh isHeld
    obtain ⟨dev, block, fresh, _⟩ := settled.held bh isHeld
    exact ⟨dev, block, fresh⟩

/-- A buffer is changed. -/
theorem edit (kernel : Kernel) (bh : Nat) (data : Block) {uptodate : Bool}
    (fresh : (kernel.buffers bh).uptodate = true → uptodate = true) :
    Carried 0 kernel (kernel.edit bh data uptodate) where
  size := rfl
  supers := rfl
  driver := rfl
  now := rfl
  count := by
    intro other
    by_cases here : other = bh
    · rw [here, edit_own]
      rfl
    · rw [edit_other here]
      rfl
  held := by
    intro other _
    by_cases here : other = bh
    · rw [here, edit_own]
      exact ⟨rfl, rfl, fresh⟩
    · rw [edit_other here]
      exact ⟨rfl, rfl, fun isFresh => isFresh⟩

end Carried

theorem MapLoaded.carried {kernel next : Kernel} {gain : Nat → Nat} {dev : Nat}
    {super : Super} {bh : Nat} (loaded : MapLoaded kernel dev super bh)
    (carried : Carried gain kernel next) : MapLoaded next dev super bh := by
  obtain ⟨isDev, isBlock, fresh⟩ := carried.held bh loaded.held
  refine ⟨?_, ?_, fresh loaded.fresh, isDev.trans loaded.isDev, ?_⟩
  · rw [carried.size]
    exact loaded.isBuffer
  · rw [carried.count]
    exact Nat.add_pos_left loaded.held _
  · rw [isBlock]
    exact loaded.below

/-- The bits of a map, where one is set. -/
theorem mapBit_mark {kernel : Kernel} {map : Nat → Option Nat} {bh : Nat} (bit nr : Nat) :
    mapBit (kernel.edit bh (setBit bit (kernel.buffers bh).data) true) map nr =
      if map (nr / 8192) = some bh ∧ nr % 8192 = bit then some true
      else mapBit kernel map nr := by
  unfold mapBit
  cases isLoaded : map (nr / 8192) with
  | none => simp
  | some other =>
      by_cases here : other = bh
      · subst here
        simp only [Option.map_some, edit_own, bitOf_setBit]
        by_cases isBit : nr % 8192 = bit
        · simp [isBit]
        · simp [isBit]
      · simp [edit_other here, here]

namespace Volume

variable {dev sb limit : Nat} {kernel next : Kernel} {gain : Nat → Nat}

theorem ready (volume : Volume dev sb limit kernel) {fate : Fate}
    (room : limit < 255) : Ready fate kernel where
  small := fun bh => Nat.le_trans (volume.few bh) (by omega)
  room := .inr (.inr fun bh _ => Nat.lt_of_le_of_lt (volume.few bh) room)
  inodes := by
    intro index inRange isDirty hasDev
    obtain ⟨other, found, serves⟩ := volume.placed index inRange isDirty hasDev
    exact ⟨other, found, serves, volume.notBlind _ _⟩

theorem room (volume : Volume dev sb limit kernel) {fate : Fate}
    (isRoom : limit < 255) (block : Nat) : Room fate kernel dev block :=
  .inr fun bh _ _ => Nat.lt_of_le_of_lt (volume.few bh) isRoom

/-- The cache writes inodes only to the inode table. -/
theorem outside (volume : Volume dev sb limit kernel)
    (settled : Settled gain kernel next) {block offset : Nat}
    (apart : block < (kernel.supers sb).tableStart ∨
      (kernel.supers sb).firstdatazone ≤ block) (inBlock : offset < 1024) :
    next.content dev block offset = kernel.content dev block offset := by
  obtain ⟨_, same⟩ | ⟨index, written, isByte, _⟩ :=
    settled.content dev block offset volume.hasDev inBlock
  · exact same
  · obtain ⟨other, found, isBlock⟩ := isByte.isBlock
    rw [volume.found, Option.some.injEq] at found
    have below := volume.table index written.inRange isByte.isDev
    rw [← found] at isBlock
    unfold Super.tableStart at apart
    unfold inodeBlock inodesPerBlock at isBlock below
    omega

/-- The content of a buffer that is held and up to date. -/
theorem content_held (volume : Volume dev sb limit kernel) {bh : Nat}
    (isBuffer : bh < kernel.nrBuffers) (isDev : (kernel.buffers bh).dev = dev)
    (fresh : (kernel.buffers bh).uptodate = true) :
    kernel.content dev (kernel.buffers bh).block = (kernel.buffers bh).data := by
  rw [Kernel.content_of_cached volume.sound.lists volume.hasDev isBuffer isDev
    rfl]
  exact if_pos (.inl fresh)

/-- The bytes of a map that is loaded, where its block keeps them. -/
theorem loaded_data (volume : Volume dev sb limit kernel) (sound : Sound next)
    (holds : KeepsHeld kernel next)
    (content : ∀ block offset, block < (kernel.supers sb).tableStart →
      offset < 1024 →
        next.content dev block offset = kernel.content dev block offset)
    {index bh : Nat} (isMap : (kernel.supers sb).zmap index = some bh)
    {offset : Nat} (inBlock : offset < 1024) :
    (next.buffers bh).data offset = (kernel.buffers bh).data offset := by
  have loaded := volume.loaded index bh isMap
  obtain ⟨isDev, isBlock, fresh⟩ := holds.held bh loaded.held
  have before := volume.content_held loaded.isBuffer loaded.isDev loaded.fresh
  have after : next.content dev (kernel.buffers bh).block =
      (next.buffers bh).data := by
    rw [Kernel.content_of_cached sound.lists volume.hasDev
      (holds.size ▸ loaded.isBuffer) (isDev.trans loaded.isDev) isBlock]
    exact if_pos (.inl (fresh loaded.fresh))
  rw [← after, ← before]
  exact content _ offset loaded.below inBlock

theorem mapBit_kept (volume : Volume dev sb limit kernel) (sound : Sound next)
    (holds : KeepsHeld kernel next)
    (content : ∀ block offset, block < (kernel.supers sb).tableStart →
      offset < 1024 →
        next.content dev block offset = kernel.content dev block offset)
    (nr : Nat) :
    mapBit next (kernel.supers sb).zmap nr =
      mapBit kernel (kernel.supers sb).zmap nr := by
  unfold mapBit
  cases isMap : (kernel.supers sb).zmap (nr / 8192) with
  | none => rfl
  | some bh =>
      show some (bitOf (next.buffers bh).data _) =
        some (bitOf (kernel.buffers bh).data _)
      unfold bitOf
      rw [volume.loaded_data sound holds content isMap (by omega)]

theorem mapBit_settled (volume : Volume dev sb limit kernel)
    (sound : Sound next) (settled : Settled gain kernel next) (nr : Nat) :
    mapBit next (kernel.supers sb).zmap nr =
      mapBit kernel (kernel.supers sb).zmap nr :=
  volume.mapBit_kept sound (Carried.settled settled).toKeepsHeld
    (fun _ _ below => volume.outside settled (.inl below)) nr

/-- The volume after a step. -/
theorem carried (volume : Volume dev sb limit kernel) {more : Nat}
    (carried : Carried gain kernel next) (sound : Sound next)
    (notBlind : ∀ other block, ¬Blind next other block)
    (few : ∀ bh, (next.buffers bh).count ≤ more)
    (frees : mapBit next (kernel.supers sb).zmap 0 = some false →
      mapBit kernel (kernel.supers sb).zmap 0 = some false)
    (inode : ∀ index, (next.inodes index).dev = (kernel.inodes index).dev ∧
      (next.inodes index).num = (kernel.inodes index).num ∧
        ((next.inodes index).dirt = true →
          (kernel.inodes index).dirt = true ∨ (kernel.inodes index).dev = dev)) :
    Volume dev sb more next where
  sound := sound
  hasDev := volume.hasDev
  found := by
    rw [carried.supers]
    exact volume.found
  short := by
    rw [carried.supers]
    exact volume.short
  inside := by
    rw [carried.supers]
    exact volume.inside
  ordered := by
    rw [carried.supers]
    exact volume.ordered
  serves := by
    rw [carried.supers]
    exact fun zone inDevice => (volume.serves zone inDevice).congr carried.driver
  notBlind := notBlind
  few := few
  loaded := by
    rw [carried.supers]
    exact fun index bh isMap => (volume.loaded index bh isMap).carried carried
  reserved := by
    rw [carried.supers]
    exact fun isFree => volume.reserved (frees isFree)
  placed := by
    intro index inRange isDirty hasDev
    obtain ⟨sameDev, sameNum, wasDirty⟩ := inode index
    rw [sameDev] at hasDev
    rw [sameDev, sameNum, carried.supers]
    rcases wasDirty isDirty with dirty | isOwn
    · obtain ⟨other, found, serves⟩ := volume.placed index inRange dirty hasDev
      exact ⟨other, found, serves.congr carried.driver⟩
    · rw [isOwn]
      have below := volume.table index inRange isOwn
      exact ⟨sb, volume.found, (volume.serves _
        (Nat.lt_of_lt_of_le below volume.inside)).congr carried.driver⟩
  table := by
    intro index inRange isOwn
    obtain ⟨sameDev, sameNum, _⟩ := inode index
    rw [sameDev] at isOwn
    rw [sameNum, carried.supers]
    exact volume.table index inRange isOwn

theorem settled (volume : Volume dev sb limit kernel) {more : Nat}
    (settled : Settled gain kernel next) (sound : Sound next)
    (few : ∀ bh, (next.buffers bh).count ≤ more) : Volume dev sb more next := by
  apply volume.carried (.settled settled) sound
  · exact fun other block isBlind =>
      volume.notBlind other block (settled.blind other block isBlind)
  · exact few
  · rw [volume.mapBit_settled sound settled]
    exact fun isFree => isFree
  · intro index
    obtain ⟨dirt, lock, same, wasDirty⟩ := settled.inode index
    rw [same]
    exact ⟨rfl, rfl, fun isDirty => .inl (wasDirty isDirty)⟩

/-- Where nothing is gained. -/
theorem later (volume : Volume dev sb limit kernel)
    (settled : Settled 0 kernel next) (sound : Sound next) :
    Volume dev sb limit next := by
  apply volume.settled settled sound
  intro bh
  rw [settled.count]
  exact volume.few bh

/-- A buffer that is up to date is changed. -/
theorem edit_notBlind (volume : Volume dev sb limit kernel) {bh : Nat}
    {data : Block} (other block : Nat) :
    ¬Blind (kernel.edit bh data true) other block := by
  rintro ⟨holder, isBuffer, isFor, isDirty, notFresh⟩
  by_cases here : holder = bh
  · rw [here, edit_own] at notFresh
    cases notFresh
  · rw [edit_other here] at isDirty notFresh
    have isHolder : IsFor other block holder kernel := by
      unfold IsFor at isFor
      rw [edit_other here] at isFor
      exact isFor
    exact volume.notBlind other block
      ⟨holder, isBuffer, isHolder, isDirty, notFresh⟩

/-- The zone map while a block behind it is changed. -/
theorem mapBit_edit (volume : Volume dev sb limit kernel) {bh : Nat}
    {data : Block}
    (inData : (kernel.supers sb).firstdatazone ≤ (kernel.buffers bh).block)
    (nr : Nat) :
    mapBit (kernel.edit bh data true) (kernel.supers sb).zmap nr =
      mapBit kernel (kernel.supers sb).zmap nr := by
  unfold mapBit
  cases isMap : (kernel.supers sb).zmap (nr / 8192) with
  | none => rfl
  | some map =>
      have loaded := volume.loaded _ map isMap
      have different : map ≠ bh := by
        rintro rfl
        have below := loaded.below
        have ordered := volume.ordered
        omega
      show some (bitOf ((kernel.edit bh data true).buffers map).data _) = _
      rw [edit_other different]
      rfl

/-- A block outside the maps and the inode table is changed. -/
theorem edit (volume : Volume dev sb limit kernel) {bh : Nat} {data : Block}
    (idle : (kernel.buffers bh).uptodate = true ∨
      (kernel.buffers bh).lock = false)
    (isDev : (kernel.buffers bh).dev = dev)
    (inData : (kernel.supers sb).firstdatazone ≤ (kernel.buffers bh).block)
    (inDevice : (kernel.buffers bh).block < (kernel.supers sb).nzones) :
    Volume dev sb limit (kernel.edit bh data true) := by
  apply volume.carried (.edit kernel bh data fun _ => rfl)
  · apply edit_sound volume.sound (volume.sound.notReading idle)
    · rw [isDev]
      exact volume.hasDev
    · rw [isDev]
      exact volume.serves _ inDevice
  · exact volume.edit_notBlind
  · intro other
    by_cases here : other = bh
    · rw [here, edit_own]
      exact volume.few bh
    · rw [edit_other here]
      exact volume.few other
  · rw [volume.mapBit_edit inData]
    exact fun isFree => isFree
  · exact fun index => ⟨rfl, rfl, .inl⟩

/-- A block of the zone map gets a bit. -/
theorem mark (volume : Volume dev sb limit kernel) {index bh : Nat}
    (isMap : (kernel.supers sb).zmap index = some bh) (bit : Nat) :
    Volume dev sb limit
      (kernel.edit bh (setBit bit (kernel.buffers bh).data) true) := by
  have loaded := volume.loaded index bh isMap
  have below := loaded.below
  have ordered := volume.ordered
  have inside := volume.inside
  apply volume.carried (.edit kernel bh _ fun _ => rfl)
  · apply edit_sound volume.sound (volume.sound.notReading (.inl loaded.fresh))
    · rw [loaded.isDev]
      exact volume.hasDev
    · rw [loaded.isDev]
      exact volume.serves _ (by omega)
  · exact volume.edit_notBlind
  · intro other
    by_cases here : other = bh
    · rw [here, edit_own]
      exact volume.few bh
    · rw [edit_other here]
      exact volume.few other
  · rw [mapBit_mark]
    split
    · exact nofun
    · exact fun isFree => isFree
  · exact fun index => ⟨rfl, rfl, .inl⟩

theorem bread_wp (volume : Volume dev sb limit kernel) {fate : Fate}
    (spent : fate.spent) (room : limit < 255) {zone : Nat}
    (inDevice : zone < (kernel.supers sb).nzones) (fuel : Nat) :
    (bread fuel dev zone).unmarked.wp fate Io
      (fun found next => ∃ bh, found = some bh ∧ Read kernel dev zone bh next)
      kernel :=
  Run.wp_unmarked (Fs.bread_wp volume.sound (volume.ready room)
    (volume.room room zone) volume.hasDev (volume.serves zone inDevice)
    (volume.notBlind dev zone) spent)

/-- The reference that `bread` or `getblk` has taken. -/
theorem got (volume : Volume dev sb limit kernel) {zone bh : Nat}
    (got : Got kernel dev zone bh next) : Volume dev sb (limit + 1) next := by
  apply volume.settled got.settled got.sound
  intro other
  rw [got.settled.count]
  have few := volume.few other
  by_cases here : other = bh
  · rw [here, one_same, ← here]
    omega
  · rw [one_other here]
    omega

end Volume

/-! ## `brelse` -/

/-- A reference is given back, and nothing else changes that matters. -/
structure Released (bh : Nat) (kernel next : Kernel) : Prop where
  sound : Sound next
  size : next.nrBuffers = kernel.nrBuffers
  supers : next.supers = kernel.supers
  driver : next.driver = kernel.driver
  now : next.now = kernel.now
  inodes : next.inodes = kernel.inodes
  content : Kernel.SameContent kernel next
  count : ∀ other,
    (next.buffers other).count + one bh other = (kernel.buffers other).count
  dev : ∀ other, (next.buffers other).dev = (kernel.buffers other).dev
  block : ∀ other, (next.buffers other).block = (kernel.buffers other).block
  uptodate : ∀ other, (kernel.buffers other).uptodate = true →
    (next.buffers other).uptodate = true
  dirt : ∀ other, (next.buffers other).dirt = true →
    (kernel.buffers other).dirt = true

theorem brelse_released {fate : Fate} {kernel : Kernel} {bh : Nat}
    (sound : Sound kernel) (isHeld : 0 < (kernel.buffers bh).count)
    (small : (kernel.buffers bh).count ≤ 255) :
    (brelse (some bh)).wp fate Io (fun _ next => Released bh kernel next)
      kernel := by
  apply wp_mono (brelse_drops sound isHeld small)
  rintro _ _ ⟨waited, waitedSound, serviced, rfl⟩
  have same : SameLists waited (waited.setBuffer bh
      { waited.buffers bh with count := (waited.buffers bh).count - 1 }) :=
    setCount_same _
  refine ⟨setCount_sound waitedSound _, serviced.same.nrBuffers,
    serviced.supers, serviced.driver, serviced.now, serviced.inodes, ?_, ?_,
    ?_, ?_, ?_, ?_⟩
  · intro dev block offset hasDev inBlock
    rw [setCount_content _ dev block offset hasDev inBlock,
      serviced.content dev block offset hasDev inBlock]
  · intro other
    rw [Kernel.setBuffer_buffers, ← serviced.count other]
    split <;> rename_i here
    · have held := serviced.count bh
      rw [here, one_same]
      show (waited.buffers bh).count - 1 + 1 = _
      omega
    · rw [one_other here]
      rfl
  · intro other
    rw [same.dev, serviced.same.dev]
  · intro other
    rw [same.block, serviced.same.block]
  · intro other isFresh
    rw [setCount_uptodate]
    exact serviced.uptodate other isFresh
  · intro other isDirty
    apply serviced.dirt other
    rw [Kernel.setBuffer_buffers] at isDirty
    split at isDirty <;> rename_i here
    · rw [here]
      exact isDirty
    · exact isDirty

theorem Carried.released {first second third : Kernel} {gain : Nat → Nat}
    {bh : Nat} (carried : Carried (gain + one bh) first second)
    (released : Released bh second third) : Carried gain first third where
  size := released.size.trans carried.size
  supers := released.supers.trans carried.supers
  driver := released.driver.trans carried.driver
  now := released.now.trans carried.now
  count := by
    intro other
    have dropped := released.count other
    have gained := carried.count other
    rw [Pi.add_apply] at gained
    omega
  held := by
    intro other isHeld
    obtain ⟨dev, block, fresh⟩ := carried.held other isHeld
    exact ⟨(released.dev other).trans dev, (released.block other).trans block,
      fun isFresh => released.uptodate other (fresh isFresh)⟩

theorem Released.blind {kernel next : Kernel} {bh : Nat}
    (released : Released bh kernel next) {dev block : Nat}
    (isBlind : Blind next dev block) : Blind kernel dev block := by
  obtain ⟨holder, isBuffer, ⟨isDev, isBlock⟩, isDirty, notFresh⟩ := isBlind
  refine ⟨holder, released.size ▸ isBuffer, ⟨?_, ?_⟩,
    released.dirt holder isDirty, ?_⟩
  · exact (released.dev holder).symm.trans isDev
  · exact (released.block holder).symm.trans isBlock
  · by_contra wasFresh
    rw [released.uptodate holder (by simpa using wasFresh)] at notFresh
    cases notFresh

section Released

variable {dev sb limit more : Nat} {kernel middle next : Kernel} {bh : Nat}

theorem Released.keepsHeld (released : Released bh kernel next) :
    KeepsHeld kernel next where
  size := released.size
  held := fun other _ => ⟨released.dev other, released.block other,
    released.uptodate other⟩

theorem Released.mapBit (released : Released bh kernel next)
    (volume : Volume dev sb limit kernel) (nr : Nat) :
    Fs.mapBit next (kernel.supers sb).zmap nr =
      Fs.mapBit kernel (kernel.supers sb).zmap nr :=
  volume.mapBit_kept released.sound released.keepsHeld
    (fun block offset _ inBlock =>
      released.content dev block offset volume.hasDev inBlock) nr

/-- The volume once the reference that was taken is given back. -/
theorem Volume.release (volume : Volume dev sb limit kernel)
    (grown : Volume dev sb more middle)
    (carried : Carried (one bh) kernel middle)
    (released : Released bh middle next) : Volume dev sb limit next := by
  have total : Carried 0 kernel next :=
    (carried.gains fun _ => (Nat.zero_add _).symm).released released
  have supers := total.supers
  have middleSupers := carried.supers
  refine ⟨released.sound, volume.hasDev, ?_, ?_, ?_, ?_, ?_, ?_, ?_, ?_, ?_,
    ?_, ?_⟩
  · rw [supers]
    exact volume.found
  · rw [supers]
    exact volume.short
  · rw [supers]
    exact volume.inside
  · rw [supers]
    exact volume.ordered
  · rw [supers]
    exact fun zone inDevice => (volume.serves zone inDevice).congr total.driver
  · exact fun other block isBlind =>
      grown.notBlind other block (released.blind isBlind)
  · intro other
    rw [total.count]
    exact volume.few other
  · rw [supers]
    exact fun index map isMap => (volume.loaded index map isMap).carried total
  · rw [released.supers, released.mapBit grown]
    exact grown.reserved
  · unfold InodesPlaced
    rw [released.inodes, released.supers]
    intro index inRange isDirty hasDev
    obtain ⟨other, found, serves⟩ := grown.placed index inRange isDirty hasDev
    exact ⟨other, found, serves.congr released.driver⟩
  · rw [released.inodes, released.supers]
    exact grown.table

end Released

/-! ## Work on a volume -/

/-- What a stretch of work leaves of a volume.  A data zone that is not
touched has the content it had, and no zone is given up. -/
structure Advanced (dev sb limit : Nat) (gain : Nat → Nat)
    (touched : Set Nat) (kernel next : Kernel) : Prop where
  volume : Volume dev sb limit next
  carried : Carried gain kernel next
  data : ∀ zone offset, (kernel.supers sb).firstdatazone ≤ zone →
    zone ∉ touched → offset < 1024 →
      next.content dev zone offset = kernel.content dev zone offset
  bits : ∀ nr, mapBit kernel (kernel.supers sb).zmap nr = some true →
    mapBit next (kernel.supers sb).zmap nr = some true
  frees : ∀ nr, mapBit next (kernel.supers sb).zmap nr = some false →
    mapBit kernel (kernel.supers sb).zmap nr = some false

/-- Work that changes at most the flags of the inodes. -/
structure Passed (dev sb limit : Nat) (gain : Nat → Nat)
    (touched : Set Nat) (kernel next : Kernel) : Prop
    extends Advanced dev sb limit gain touched kernel next where
  inode : ∀ index, ∃ dirt lock,
    next.inodes index = { kernel.inodes index with dirt, lock }

section Advanced

variable {dev sb limit more : Nat} {kernel middle next : Kernel}
  {left right : Nat → Nat} {first second : Set Nat}

theorem Advanced.trans (before : Advanced dev sb limit left first kernel middle)
    (after : Advanced dev sb more right first middle next) :
    Advanced dev sb more (left + right) first kernel next := by
  have supers := before.carried.supers
  refine ⟨after.volume, before.carried.trans after.carried, ?_, ?_, ?_⟩
  · intro zone offset inData untouched inBlock
    rw [after.data zone offset (supers ▸ inData) untouched inBlock,
      before.data zone offset inData untouched inBlock]
  · intro nr isUsed
    have used := after.bits nr
    rw [supers] at used
    exact used (before.bits nr isUsed)
  · intro nr isFree
    have free := after.frees nr
    rw [supers] at free
    exact before.frees nr (free isFree)

theorem Passed.trans (before : Passed dev sb limit left first kernel middle)
    (after : Passed dev sb more right first middle next) :
    Passed dev sb more (left + right) first kernel next where
  toAdvanced := before.toAdvanced.trans after.toAdvanced
  inode := by
    intro index
    obtain ⟨_, _, wasSame⟩ := before.inode index
    obtain ⟨dirt, lock, isSame⟩ := after.inode index
    exact ⟨dirt, lock, by rw [isSame, wasSame]⟩

/-- With the gains counted otherwise. -/
theorem Passed.gains (passed : Passed dev sb limit left first kernel next)
    (same : ∀ bh, left bh = right bh) :
    Passed dev sb limit right first kernel next :=
  { passed with carried := passed.carried.gains same }

theorem Advanced.touching
    (advanced : Advanced dev sb limit left first kernel next)
    (wider : first ⊆ second) : Advanced dev sb limit left second kernel next :=
  { advanced with
    data := fun zone offset inData untouched inBlock =>
      advanced.data zone offset inData (fun isIn => untouched (wider isIn))
        inBlock }

/-- With more zones that may be touched. -/
theorem Passed.touching (passed : Passed dev sb limit left first kernel next)
    (wider : first ⊆ second) : Passed dev sb limit left second kernel next where
  toAdvanced := passed.toAdvanced.touching wider
  inode := passed.inode

theorem Volume.passed (volume : Volume dev sb limit kernel)
    (settled : Settled left kernel next) (later : Volume dev sb more next) :
    Passed dev sb more left ∅ kernel next where
  volume := later
  carried := .settled settled
  inode := by
    intro index
    obtain ⟨dirt, lock, same, _⟩ := settled.inode index
    exact ⟨dirt, lock, same⟩
  data := fun _ _ inData _ inBlock => volume.outside settled (.inr inData) inBlock
  bits := by
    intro nr isUsed
    rw [volume.mapBit_settled later.sound settled]
    exact isUsed
  frees := by
    intro nr isFree
    rw [← volume.mapBit_settled later.sound settled]
    exact isFree

/-- An inode of the device is changed. -/
theorem Volume.setInode (volume : Volume dev sb limit kernel) {index : Nat}
    {inode : Inode} (sameDev : inode.dev = (kernel.inodes index).dev)
    (sameNum : inode.num = (kernel.inodes index).num)
    (isDev : (kernel.inodes index).dev = dev) :
    Volume dev sb limit (kernel.setInode index inode) := by
  have same : Carried 0 kernel (kernel.setInode index inode) :=
    ⟨⟨rfl, fun _ _ => ⟨rfl, rfl, fun isFresh => isFresh⟩⟩, rfl, rfl, rfl,
      fun _ => rfl⟩
  apply volume.carried same (setInode_sound volume.sound index inode)
  · exact volume.notBlind
  · exact volume.few
  · exact fun isFree => isFree
  · intro other
    show (if other = index then inode else kernel.inodes other).dev = _ ∧ _
    by_cases here : other = index
    · subst here
      rw [if_pos rfl]
      refine ⟨sameDev, ?_, fun _ => .inr isDev⟩
      show (if other = other then inode else _).num = _
      rw [if_pos rfl]
      exact sameNum
    · rw [if_neg here]
      refine ⟨rfl, ?_, fun isDirty => .inl ?_⟩
      · show (if other = index then inode else kernel.inodes other).num = _
        rw [if_neg here]
      · change (if other = index then inode else kernel.inodes other).dirt = true
          at isDirty
        rw [if_neg here] at isDirty
        exact isDirty

theorem Advanced.setInode
    (advanced : Advanced dev sb limit left first kernel next) {index : Nat}
    {inode : Inode} (sameDev : inode.dev = (next.inodes index).dev)
    (sameNum : inode.num = (next.inodes index).num)
    (isDev : (next.inodes index).dev = dev) :
    Advanced dev sb limit left first kernel (next.setInode index inode) where
  volume := advanced.volume.setInode sameDev sameNum isDev
  carried := ⟨⟨advanced.carried.size, advanced.carried.held⟩,
    advanced.carried.supers, advanced.carried.driver, advanced.carried.now,
    advanced.carried.count⟩
  data := advanced.data
  bits := advanced.bits
  frees := advanced.frees

/-- A reference is taken. -/
theorem Volume.taken (volume : Volume dev sb limit kernel) {zone bh : Nat}
    (got : Got kernel dev zone bh next) :
    Passed dev sb (limit + 1) (one bh) ∅ kernel next :=
  volume.passed got.settled (volume.got got)

/-- A data block is changed. -/
theorem Volume.edited (volume : Volume dev sb limit kernel) {bh : Nat}
    {data : Block} (isBuffer : bh < kernel.nrBuffers)
    (idle : (kernel.buffers bh).uptodate = true ∨
      (kernel.buffers bh).lock = false)
    (isDev : (kernel.buffers bh).dev = dev)
    (inData : (kernel.supers sb).firstdatazone ≤ (kernel.buffers bh).block)
    (inDevice : (kernel.buffers bh).block < (kernel.supers sb).nzones) :
    Passed dev sb limit 0 {(kernel.buffers bh).block} kernel
      (kernel.edit bh data true) where
  volume := volume.edit idle isDev inData inDevice
  carried := .edit kernel bh data fun _ => rfl
  inode := fun index => ⟨_, _, rfl⟩
  data := by
    intro zone offset _ untouched _
    rw [edit_content volume.sound isBuffer ⟨isDev, rfl⟩ volume.hasDev
      volume.hasDev, if_neg]
    rintro ⟨_, rfl⟩
    exact untouched rfl
  bits := by
    intro nr isUsed
    rw [volume.mapBit_edit inData]
    exact isUsed
  frees := by
    intro nr isFree
    rw [← volume.mapBit_edit inData]
    exact isFree

/-- A block of the zone map gets a bit. -/
theorem Volume.marked (volume : Volume dev sb limit kernel)
    {index bh : Nat} (isMap : (kernel.supers sb).zmap index = some bh)
    (bit : Nat) :
    Passed dev sb limit 0 ∅ kernel
      (kernel.edit bh (setBit bit (kernel.buffers bh).data) true) where
  volume := volume.mark isMap bit
  carried := .edit kernel bh _ fun _ => rfl
  inode := fun index => ⟨_, _, rfl⟩
  data := by
    intro zone offset inData _ _
    have loaded := volume.loaded index bh isMap
    have below := loaded.below
    have ordered := volume.ordered
    rw [edit_content volume.sound loaded.isBuffer ⟨loaded.isDev, rfl⟩
      volume.hasDev volume.hasDev, if_neg (by omega)]
  bits := by
    intro nr isUsed
    rw [mapBit_mark]
    split
    · rfl
    · exact isUsed
  frees := by
    intro nr isFree
    rw [mapBit_mark] at isFree
    split at isFree
    · cases isFree
    · exact isFree

/-- The reference is given back. -/
theorem Advanced.released {bh : Nat}
    (advanced : Advanced dev sb more (one bh) first kernel middle)
    (volume : Volume dev sb limit kernel) (released : Released bh middle next) :
    Advanced dev sb limit 0 first kernel next where
  volume := volume.release advanced.volume advanced.carried released
  carried := (advanced.carried.gains fun _ => (Nat.zero_add _).symm).released
    released
  data := by
    intro zone offset inData untouched inBlock
    rw [released.content dev zone offset volume.hasDev inBlock]
    exact advanced.data zone offset inData untouched inBlock
  bits := by
    intro nr isUsed
    rw [← advanced.carried.supers, released.mapBit advanced.volume,
      advanced.carried.supers]
    exact advanced.bits nr isUsed
  frees := by
    intro nr isFree
    rw [← advanced.carried.supers, released.mapBit advanced.volume,
      advanced.carried.supers] at isFree
    exact advanced.frees nr isFree

theorem Passed.released {bh : Nat}
    (passed : Passed dev sb more (one bh) first kernel middle)
    (volume : Volume dev sb limit kernel) (released : Released bh middle next) :
    Passed dev sb limit 0 first kernel next where
  toAdvanced := passed.toAdvanced.released volume released
  inode := by
    rw [released.inodes]
    exact passed.inode

end Advanced

/-! ## `new_block` -/

/-- A zone that was free is in use now, and blank. -/
structure FreshZone (dev : Nat) (super : Super) (kernel next : Kernel)
    (zone : Nat) : Prop where
  lower : super.firstdatazone ≤ zone
  upper : zone < super.nzones
  wasFree : mapBit kernel super.zmap (zone + 1 - super.firstdatazone) =
    some false
  isUsed : mapBit next super.zmap (zone + 1 - super.firstdatazone) = some true
  blank : ∀ offset, offset < 1024 → next.content dev zone offset = 0

/-- What `new_block` leaves behind.  Where it returns 0 it has no zone. -/
structure Allocated (dev sb limit : Nat) (kernel next : Kernel) (zone : Nat) :
    Prop extends Passed dev sb limit 0 {zone} kernel next where
  fresh : zone ≠ 0 → FreshZone dev (kernel.supers sb) kernel next zone

/-- The bits of the zone map are as they were. -/
def SameBits (sb : Nat) (kernel next : Kernel) : Prop :=
  ∀ nr, mapBit next (kernel.supers sb).zmap nr =
    mapBit kernel (kernel.supers sb).zmap nr

/-- No zone of the device is free. -/
def NoneFree (sb : Nat) (kernel : Kernel) : Prop :=
  ∀ zone, (kernel.supers sb).firstdatazone ≤ zone →
    zone < (kernel.supers sb).nzones →
      mapBit kernel (kernel.supers sb).zmap
        (zone + 1 - (kernel.supers sb).firstdatazone) ≠ some false

/-- Each block of the zone map has a buffer of its own. -/
def Super.MapsApart (super : Super) : Prop :=
  ∀ first second bh, super.zmap first = some bh → super.zmap second = some bh →
    first = second

/-- The bits of all zones but one are as they were.  Where it is 0 there was
none to be had. -/
structure Marks (sb zone : Nat) (kernel next : Kernel) : Prop where
  only : (kernel.supers sb).MapsApart → ∀ other, (kernel.supers sb).firstdatazone ≤ other →
    other < (kernel.supers sb).nzones → other ≠ zone →
      mapBit next (kernel.supers sb).zmap
          (other + 1 - (kernel.supers sb).firstdatazone) =
        mapBit kernel (kernel.supers sb).zmap
          (other + 1 - (kernel.supers sb).firstdatazone)
  full : zone = 0 → NoneFree sb kernel

section NewBlock

variable {dev sb limit : Nat} {kernel middle next : Kernel}

theorem Marks.before {zone : Nat} (marks : Marks sb zone middle next)
    (supers : middle.supers = kernel.supers)
    (same : SameBits sb kernel middle) : Marks sb zone kernel next where
  only := by
    intro apart other lower upper different
    rw [← same, ← supers]
    rw [← supers] at apart lower upper
    exact marks.only apart other lower upper different
  full := by
    intro isZero zone lower upper
    rw [← same, ← supers]
    rw [← supers] at lower upper
    exact marks.full isZero zone lower upper

theorem Marks.after {zone : Nat} (marks : Marks sb zone kernel middle)
    (supers : middle.supers = kernel.supers)
    (same : SameBits sb middle next) : Marks sb zone kernel next where
  only := by
    intro apart other lower upper different
    rw [← marks.only apart other lower upper different, ← supers]
    exact same _
  full := marks.full

theorem NoneFree.later {gain : Nat → Nat} {touched : Set Nat}
    (full : NoneFree sb kernel)
    (advanced : Advanced dev sb limit gain touched kernel next) :
    NoneFree sb next := by
  intro zone lower upper isFree
  rw [advanced.carried.supers] at lower upper isFree
  exact full zone lower upper (advanced.frees _ isFree)

theorem Volume.sameBits {gain : Nat → Nat} (volume : Volume dev sb limit kernel)
    (sound : Sound next) (settled : Settled gain kernel next) :
    SameBits sb kernel next :=
  volume.mapBit_settled sound settled

theorem Passed.unallocated (passed : Passed dev sb limit 0 ∅ kernel next) :
    Allocated dev sb limit kernel next 0 where
  toPassed := passed.touching (Set.empty_subset _)
  fresh := fun isZone => absurd rfl isZone

/-- A new zone was free before, too. -/
theorem FreshZone.earlier {gain : Nat → Nat} {touched : Set Nat} {zone : Nat}
    (fresh : FreshZone dev (middle.supers sb) middle next zone)
    (before : Advanced dev sb limit gain touched kernel middle) :
    FreshZone dev (kernel.supers sb) kernel next zone := by
  rw [before.carried.supers] at fresh
  exact ⟨fresh.lower, fresh.upper, before.frees _ fresh.wasFree, fresh.isUsed,
    fresh.blank⟩

/-- A stretch that touches no data zone, and then another. -/
theorem Allocated.after {zone : Nat}
    (allocated : Allocated dev sb limit middle next zone)
    (before : Passed dev sb limit 0 ∅ kernel middle) :
    Allocated dev sb limit kernel next zone where
  toPassed := ((before.touching (Set.empty_subset _)).trans
    allocated.toPassed).gains fun _ => Nat.zero_add 0
  fresh := fun isZone => (allocated.fresh isZone).earlier before.toAdvanced

/-- A block that has been got gets a new content and is given back. -/
theorem Volume.rewritten {got : Kernel} {zone bh : Nat}
    (volume : Volume dev sb limit kernel)
    (isGot : Got kernel dev zone bh got)
    (lower : (kernel.supers sb).firstdatazone ≤ zone)
    (upper : zone < (kernel.supers sb).nzones) (data : Block)
    (released : Released bh (got.edit bh data true) next) :
    Passed dev sb limit 0 {zone} kernel next := by
  have supers := isGot.settled.supers
  obtain ⟨isDev, isBlock⟩ := isGot.isFor
  have edited : Passed dev sb (limit + 1) 0 {(got.buffers bh).block} got
      (got.edit bh data true) := by
    apply (volume.got isGot).edited isGot.isBuffer (.inr isGot.unlocked) isDev
    · rw [supers, isBlock]
      exact lower
    · rw [supers, isBlock]
      exact upper
  rw [isBlock] at edited
  have total : Passed dev sb (limit + 1) (one bh) {zone} kernel
      (got.edit bh data true) :=
    (((volume.taken isGot).touching (Set.empty_subset _)).trans
      edited).gains fun _ => Nat.add_zero _
  exact total.released volume released

/-- The block is none of the zone map. -/
theorem Volume.rewritten_bits {got : Kernel} {zone bh : Nat}
    (volume : Volume dev sb limit kernel)
    (isGot : Got kernel dev zone bh got)
    (lower : (kernel.supers sb).firstdatazone ≤ zone)
    (upper : zone < (kernel.supers sb).nzones) (data : Block)
    (released : Released bh (got.edit bh data true) next) :
    SameBits sb kernel next := by
  have grown := volume.got isGot
  have supers := isGot.settled.supers
  obtain ⟨isDev, isBlock⟩ := isGot.isFor
  have inData : (got.supers sb).firstdatazone ≤ (got.buffers bh).block := by
    rw [supers, isBlock]
    exact lower
  have inDevice : (got.buffers bh).block < (got.supers sb).nzones := by
    rw [supers, isBlock]
    exact upper
  have edited : Volume dev sb (limit + 1) (got.edit bh data true) :=
    grown.edit (.inr isGot.unlocked) isDev inData inDevice
  intro nr
  have given := released.mapBit edited nr
  have stored : mapBit (got.edit bh data true) (got.supers sb).zmap nr =
      mapBit got (got.supers sb).zmap nr := grown.mapBit_edit inData nr
  rw [show ((got.edit bh data true).supers sb) = kernel.supers sb from
    congrFun supers sb] at given
  rw [supers] at stored
  rw [given, stored, volume.mapBit_settled isGot.sound isGot.settled]

/-- A clear bit is set. -/
theorem Marks.mark {index bh bit zone : Nat}
    (isMap : (kernel.supers sb).zmap index = some bh)
    (isZone : ∀ other, (kernel.supers sb).firstdatazone ≤ other →
      other < (kernel.supers sb).nzones → other ≠ zone →
        other + 1 - (kernel.supers sb).firstdatazone ≠ bit + index * 8192)
    (full : zone = 0 → NoneFree sb kernel) :
    Marks sb zone kernel
      (kernel.edit bh (setBit bit (kernel.buffers bh).data) true) where
  only := by
    intro apart other lower upper different
    have notBit := isZone other lower upper different
    rw [mapBit_mark, if_neg]
    rintro ⟨isBlock, isBit⟩
    have isIndex := apart _ _ bh isBlock isMap
    omega
  full := full

/-- The zone of a clear bit, once it is marked and blanked. -/
theorem Volume.allocated (volume : Volume dev sb limit kernel)
    {index bh bit zone : Nat}
    (isMap : (kernel.supers sb).zmap index = some bh) (inBlock : bit < 8192)
    (isClear : bitOf (kernel.buffers bh).data bit = false)
    (isZone : zone + 1 = bit + index * 8192 + (kernel.supers sb).firstdatazone)
    (lower : (kernel.supers sb).firstdatazone ≤ zone)
    (upper : zone < (kernel.supers sb).nzones)
    (passed : Passed dev sb limit 0 {zone}
      (kernel.edit bh (setBit bit (kernel.buffers bh).data) true) next)
    (blank : ∀ offset, offset < 1024 → next.content dev zone offset = 0) :
    Allocated dev sb limit kernel next zone where
  toPassed := (((volume.marked isMap bit).touching (Set.empty_subset _)).trans
    passed).gains fun bh => Nat.zero_add 0
  fresh := by
    intro _
    have isBit : zone + 1 - (kernel.supers sb).firstdatazone =
        bit + index * 8192 := by omega
    refine ⟨lower, upper, ?_, ?_, blank⟩
    · rw [isBit, mapBit_block isMap inBlock, isClear]
    · apply passed.bits
      show mapBit _ (kernel.supers sb).zmap _ = some true
      rw [isBit, mapBit_mark, if_pos]
      rw [show (bit + index * 8192) / 8192 = index by omega,
        show (bit + index * 8192) % 8192 = bit by omega]
      exact ⟨isMap, rfl⟩

/-- `new_block`, which returns 0 or a zone that was free. -/
theorem Volume.newBlock_marks (volume : Volume dev sb limit kernel)
    (room : limit < 255) (fuel : Nat) :
    (newBlock fuel dev).wp .uncrossed Io
      (fun zone next => Allocated dev sb limit kernel next zone ∧
        Marks sb zone kernel next) kernel := by
  unfold newBlock
  rw [wp_bind]
  apply wp_mono (getSuper_wp volume.sound volume.hasDev (.inl trivial)
    volume.found)
  rintro _ state ⟨rfl, sound, serviced⟩
  have settled := serviced.settled
  have waited := volume.later settled sound
  have before := volume.passed settled waited
  have supers := settled.supers
  have sameBits := volume.sameBits sound settled
  rw [wp_bind, wp_get]
  dsimp only
  split <;> rename_i found
  · refine ⟨before.unallocated, ⟨fun _ _ _ _ _ => sameBits _, fun _ => ?_⟩⟩
    intro zone lower upper
    have short := volume.short
    rw [← sameBits, ← supers]
    exact findMap_none found _ (Nat.zero_le _) (by omega)
  · rename_i index bh bit
    obtain ⟨isMap, inBlock, inMap, isClear, noneBefore⟩ := findMap_first found
    -- a zone behind the end of the device: there is none before it
    have full (beyond : (state.supers sb).nzones <
        bit + index * 8192 + (state.supers sb).firstdatazone) :
        NoneFree sb state := by
      intro zone lower upper
      exact noneBefore _ (Nat.zero_le _) (by omega)
    have loaded := waited.loaded index bh isMap
    rw [if_neg (by rw [isClear]; decide), wp_bind]
    have marks := waited.marked isMap bit
    have stores : state.setBuffer bh
        { state.buffers bh with
          data := setBit bit (state.buffers bh).data
          dirt := true } =
        state.edit bh (setBit bit (state.buffers bh).data) true := by
      unfold Kernel.edit
      rw [← loaded.fresh]
    unfold storeMap onBuffer
    rw [wp_modify, stores]
    split <;> rename_i fits
    · refine ⟨marks.unallocated.after before, Marks.before ?_ supers sameBits⟩
      apply Marks.mark isMap
      · intro other lower upper _
        omega
      · exact fun _ => full (by omega)
    · -- bit 0 is never clear, so the zone is one of the data zones
      have notFirst : bit + index * 8192 ≠ 0 := by
        intro isFirst
        have isBit : mapBit state (state.supers sb).zmap (bit + index * 8192) =
            some (bitOf (state.buffers bh).data bit) :=
          mapBit_block isMap inBlock
        rw [isFirst, isClear] at isBit
        exact waited.reserved isBit
      obtain ⟨zone, isZone⟩ : ∃ zone : Nat,
          (zone : Int) = bit + index * 8192 + (state.supers sb).firstdatazone - 1 :=
        ⟨bit + index * 8192 + (state.supers sb).firstdatazone - 1, by omega⟩
      have short := waited.short
      rw [← isZone] at fits ⊢
      have small : ((zone : Int) % 2 ^ 32).toNat = zone := by omega
      rw [small, wp_bind]
      refine Run.wp_unmarked (wp_mono (getblk_wp trivial fuel _ dev zone
        marks.volume.sound (marks.volume.ready room)
        (marks.volume.room room zone) volume.hasDev) ?_)
      intro other got isGot
      rw [wp_bind, wp_get]
      split
      · trivial
      · have lower : (state.supers sb).firstdatazone ≤ zone := by omega
        have upper : zone < (state.supers sb).nzones := by omega
        have held : 0 < (got.buffers other).count := by
          rw [isGot.settled.count, one_same]
          omega
        have edited : Sound (got.edit other (fun offset =>
            if offset < blockSize then 0 else (got.buffers other).data offset)
            true) := by
          apply edit_sound isGot.sound
            (isGot.sound.notReading (.inr isGot.unlocked))
          · rw [isGot.isFor.1]
            exact volume.hasDev
          · rw [isGot.isFor.1, isGot.isFor.2]
            exact ((waited.serves zone upper).congr
              marks.carried.driver).congr isGot.settled.driver
        have same : ((got.edit other (fun offset => if offset < blockSize then 0
            else (got.buffers other).data offset) true).buffers other).count =
            (got.buffers other).count := by
          rw [edit_own]
        rw [wp_bind, wp_modify, wp_bind]
        apply wp_mono (brelse_released edited (same ▸ held)
          (same ▸ isGot.small))
        intro _ next released
        have passed := marks.volume.rewritten isGot lower upper _ released
        have stays := marks.volume.rewritten_bits isGot lower upper _ released
        have marked : Marks sb zone state (state.edit bh
            (setBit bit (state.buffers bh).data) true) := by
          apply Marks.mark isMap
          · intro other lower upper different
            omega
          · intro isZero
            have ordered := waited.ordered
            unfold Super.tableStart at ordered
            omega
        refine ⟨(waited.allocated isMap inBlock isClear (by omega) lower upper
          passed ?_).after before, (marked.after rfl stays).before supers sameBits⟩
        intro offset inBlock
        rw [released.content dev zone offset volume.hasDev inBlock,
          edit_content isGot.sound isGot.isBuffer isGot.isFor volume.hasDev
            volume.hasDev, if_pos ⟨rfl, rfl⟩]
        exact if_pos inBlock

end NewBlock

end Linux011.Fs
