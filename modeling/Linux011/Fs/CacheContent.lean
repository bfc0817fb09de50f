import Mathlib.Algebra.Ring.Nat
import Mathlib.Algebra.Group.Pi.Basic
import Mathlib.Logic.Relation
import Linux011.Fs.CacheSearch

/-!
# What the cache and the devices hold together

The content of a block is what its buffer holds, if the buffer holds anything
that counts, and what is on the device otherwise.  The drivers move data
between the two sides of this definition; completing a request changes no
content.
-/

namespace Linux011.Fs

open Coop

/-- One reference to a buffer. -/
def one (bh : Nat) : Nat → Nat := Pi.single bh 1

theorem one_same (bh : Nat) : one bh bh = 1 := Pi.single_eq_same bh 1

theorem one_other {bh other : Nat} (different : other ≠ bh) :
    one bh other = 0 := Pi.single_eq_of_ne different 1

/-- The buffer is the one for the block. -/
def IsFor (dev block bh : Nat) (kernel : Kernel) : Prop :=
  (kernel.buffers bh).dev = dev ∧ (kernel.buffers bh).block = block

/-- The transfers of a block succeed: its driver is there and the block is on
the device.  The sector number `block << 1` has 32 bits. -/
def Serves (kernel : Kernel) (dev block : Nat) : Prop :=
  block < 2 ^ 31 ∧ major dev < nrBlkDev ∧
    match kernel.driver (major dev) with
    | .absent => False
    | .ram length => minor dev = 1 ∧ block * 1024 + 1024 ≤ length
    | .interrupt => True

namespace Kernel

/-- A request is under way for a buffer. -/
def Pending (kernel : Kernel) (bh : Nat) (cmd : Rw) : Prop :=
  ∃ slot, slot < nrRequest ∧ (kernel.requests slot).dev ≠ none ∧
    (kernel.requests slot).bh = bh ∧ (kernel.requests slot).cmd = cmd

instance (kernel : Kernel) (bh : Nat) (cmd : Rw) :
    Decidable (kernel.Pending bh cmd) :=
  inferInstanceAs (Decidable (∃ slot, slot < nrRequest ∧
    (kernel.requests slot).dev ≠ none ∧
      (kernel.requests slot).bh = bh ∧ (kernel.requests slot).cmd = cmd))

/-- No request names the buffer. -/
def Untouched (kernel : Kernel) (bh : Nat) : Prop :=
  ∀ slot, slot < nrRequest → (kernel.requests slot).dev ≠ none →
    (kernel.requests slot).bh ≠ bh

/-- The data of the buffer counts, not those on the device. -/
def Live (kernel : Kernel) (bh : Nat) : Prop :=
  (kernel.buffers bh).uptodate = true ∨ (kernel.buffers bh).dirt = true ∨
    kernel.Pending bh .write

instance (kernel : Kernel) (bh : Nat) : Decidable (kernel.Live bh) :=
  inferInstanceAs (Decidable (_ ∨ _ ∨ _))

/-- A block as it is on the device. -/
def stored (kernel : Kernel) (dev block : Nat) : Block := fun offset =>
  kernel.disk dev (block * 1024 + offset)

/-- What the block of a buffer contains. -/
def value (kernel : Kernel) (bh : Nat) : Block :=
  if kernel.Live bh then (kernel.buffers bh).data
  else kernel.stored (kernel.buffers bh).dev (kernel.buffers bh).block

/-- The buffer that caches a block. -/
def holder (kernel : Kernel) (dev block : Nat) : Option Nat :=
  (List.range kernel.nrBuffers).find? fun bh =>
    (kernel.buffers bh).dev = dev ∧ (kernel.buffers bh).block = block

/-- What a block contains, wherever its latest data are. -/
def content (kernel : Kernel) (dev block : Nat) : Block :=
  match kernel.holder dev block with
  | some bh => kernel.value bh
  | none => kernel.stored dev block

section Holder

variable {kernel : Kernel} {dev block bh : Nat}

theorem holder_some (isHolder : kernel.holder dev block = some bh) :
    bh < kernel.nrBuffers ∧ (kernel.buffers bh).dev = dev ∧
      (kernel.buffers bh).block = block := by
  have isIn := List.mem_of_find?_eq_some isHolder
  have matching := List.find?_some isHolder
  rw [decide_eq_true_eq] at matching
  exact ⟨List.mem_range.mp isIn, matching⟩

theorem holder_none (noHolder : kernel.holder dev block = none)
    (isBuffer : bh < kernel.nrBuffers) (sameDev : (kernel.buffers bh).dev = dev) :
    (kernel.buffers bh).block ≠ block := by
  intro sameBlock
  have other := List.find?_eq_none.mp noHolder bh (List.mem_range.mpr isBuffer)
  simp [sameDev, sameBlock] at other

theorem holder_of_cached (lists : Lists kernel) (hasDev : dev ≠ 0)
    (isBuffer : bh < kernel.nrBuffers) (sameDev : (kernel.buffers bh).dev = dev)
    (sameBlock : (kernel.buffers bh).block = block) :
    kernel.holder dev block = some bh := by
  cases found : kernel.holder dev block with
  | none => exact (holder_none found isBuffer sameDev sameBlock).elim
  | some other =>
      obtain ⟨otherBuffer, otherDev, otherBlock⟩ := holder_some found
      rw [lists.unique other bh otherBuffer isBuffer (otherDev ▸ hasDev)
        (otherDev.trans sameDev.symm) (otherBlock.trans sameBlock.symm)]

theorem content_of_cached (lists : Lists kernel) (hasDev : dev ≠ 0)
    (isBuffer : bh < kernel.nrBuffers) (sameDev : (kernel.buffers bh).dev = dev)
    (sameBlock : (kernel.buffers bh).block = block) :
    kernel.content dev block = kernel.value bh := by
  unfold content
  rw [holder_of_cached lists hasDev isBuffer sameDev sameBlock]

theorem holder_sameLists {next : Kernel} (same : SameLists kernel next) :
    next.holder dev block = kernel.holder dev block := by
  unfold holder
  simp only [same.nrBuffers, same.dev, same.block]

end Holder

/-- The contents of two states agree. -/
def SameContent (kernel next : Kernel) : Prop :=
  ∀ dev block offset, dev ≠ 0 → offset < 1024 →
    next.content dev block offset = kernel.content dev block offset

/-- It is enough to look at the buffers, and at the blocks without one. -/
theorem sameContent_of_values {kernel next : Kernel}
    (same : SameLists kernel next)
    (values : ∀ bh, bh < kernel.nrBuffers → (kernel.buffers bh).dev ≠ 0 →
      ∀ offset, offset < 1024 → next.value bh offset = kernel.value bh offset)
    (others : ∀ dev block, dev ≠ 0 → kernel.holder dev block = none →
      ∀ offset, offset < 1024 →
        next.stored dev block offset = kernel.stored dev block offset) :
    SameContent kernel next := by
  intro dev block offset hasDev inBlock
  unfold content
  rw [holder_sameLists same]
  cases found : kernel.holder dev block with
  | none => exact others dev block hasDev found offset inBlock
  | some bh =>
      obtain ⟨isBuffer, sameDev, _⟩ := holder_some found
      exact values bh isBuffer (sameDev ▸ hasDev) offset inBlock

section SetBuffer

variable {kernel : Kernel} {bh : Nat} {buffer : Buffer}

theorem live_setBuffer (uptodate : buffer.uptodate = (kernel.buffers bh).uptodate)
    (dirt : buffer.dirt = (kernel.buffers bh).dirt) {other : Nat} :
    (kernel.setBuffer bh buffer).Live other ↔ kernel.Live other := by
  unfold Live
  rw [setBuffer_buffers]
  split <;> rename_i here
  · rw [here, uptodate, dirt]
    exact Iff.rfl
  · exact Iff.rfl

theorem sameContent_setBuffer (same : SameLists kernel (kernel.setBuffer bh buffer))
    (uptodate : buffer.uptodate = (kernel.buffers bh).uptodate)
    (dirt : buffer.dirt = (kernel.buffers bh).dirt)
    (data : buffer.data = (kernel.buffers bh).data) :
    SameContent kernel (kernel.setBuffer bh buffer) := by
  apply sameContent_of_values same
  · intro other _ _ offset _
    have sameData : ((kernel.setBuffer bh buffer).buffers other).data =
        (kernel.buffers other).data := by
      rw [setBuffer_buffers]
      split <;> simp_all
    unfold value
    simp only [live_setBuffer uptodate dirt, same.dev, same.block, sameData]
    rfl
  · intro dev block _ _ offset _
    rfl

end SetBuffer

end Kernel

/-! ## The invariant -/

/-- A slot that is in use, for a device. -/
structure Requested (kernel : Kernel) (slot dev : Nat) : Prop where
  isBuffer : (kernel.requests slot).bh < kernel.nrBuffers
  hasDev : dev ≠ 0
  sameDev : (kernel.buffers (kernel.requests slot).bh).dev = dev
  sector : (kernel.requests slot).sector =
    (kernel.buffers (kernel.requests slot).bh).block * 2
  serves : Serves kernel dev (kernel.buffers (kernel.requests slot).bh).block
  locked : (kernel.buffers (kernel.requests slot).bh).lock = true
  command : (kernel.requests slot).cmd = .write ∨
    (kernel.requests slot).cmd = .read ∧
      (kernel.buffers (kernel.requests slot).bh).uptodate = false ∧
      (kernel.buffers (kernel.requests slot).bh).dirt = false

theorem Serves.congr {kernel next : Kernel} {dev block : Nat}
    (serves : Serves kernel dev block) (same : next.driver = kernel.driver) :
    Serves next dev block := by
  unfold Serves at serves ⊢
  rw [same]
  exact serves

/-- The buffer may lose its claim to be read into, not its lock. -/
theorem Requested.change {kernel next : Kernel} {slot dev : Nat}
    (requested : Requested kernel slot dev)
    (request : next.requests slot = kernel.requests slot)
    (size : next.nrBuffers = kernel.nrBuffers)
    (driver : next.driver = kernel.driver)
    (sameDev : (next.buffers (kernel.requests slot).bh).dev =
      (kernel.buffers (kernel.requests slot).bh).dev)
    (sameBlock : (next.buffers (kernel.requests slot).bh).block =
      (kernel.buffers (kernel.requests slot).bh).block)
    (locked : (next.buffers (kernel.requests slot).bh).lock = true)
    (command : (kernel.requests slot).cmd = .write ∨
      (kernel.requests slot).cmd = .read ∧
        (next.buffers (kernel.requests slot).bh).uptodate = false ∧
        (next.buffers (kernel.requests slot).bh).dirt = false) :
    Requested next slot dev where
  isBuffer := by
    rw [request, size]
    exact requested.isBuffer
  hasDev := requested.hasDev
  sameDev := by
    rw [request, sameDev]
    exact requested.sameDev
  sector := by
    rw [request, sameBlock]
    exact requested.sector
  serves := by
    rw [request, sameBlock]
    exact requested.serves.congr driver
  locked := by
    rw [request]
    exact locked
  command := by
    rw [request]
    exact command

theorem Requested.congr {kernel next : Kernel} {slot dev : Nat}
    (requested : Requested kernel slot dev)
    (request : next.requests slot = kernel.requests slot)
    (size : next.nrBuffers = kernel.nrBuffers)
    (driver : next.driver = kernel.driver)
    (buffer : next.buffers (kernel.requests slot).bh =
      kernel.buffers (kernel.requests slot).bh) :
    Requested next slot dev := by
  apply requested.change request size driver <;> rw [buffer]
  · exact requested.locked
  · exact requested.command

structure Sound (kernel : Kernel) : Prop where
  lists : Lists kernel
  noDevice : kernel.driver 0 = .absent
  requested : ∀ slot dev, slot < nrRequest →
    (kernel.requests slot).dev = some dev → Requested kernel slot dev
  apart : ∀ first second, first < nrRequest → second < nrRequest →
    (kernel.requests first).dev ≠ none → (kernel.requests second).dev ≠ none →
      (kernel.requests first).bh = (kernel.requests second).bh →
        first = second
  queues : ∀ major, (kernel.queue major).Nodup ∧
    ∀ slot ∈ kernel.queue major, slot < nrRequest ∧
      ∃ dev, (kernel.requests slot).dev = some dev ∧ Fs.major dev = major
  clean : ∀ bh, bh < kernel.nrBuffers → (kernel.buffers bh).dev ≠ 0 →
    (kernel.buffers bh).uptodate = true → (kernel.buffers bh).dirt = false →
      ¬ kernel.Pending bh .write → ∀ offset, offset < 1024 →
        (kernel.buffers bh).data offset =
          kernel.stored (kernel.buffers bh).dev (kernel.buffers bh).block offset
  servable : ∀ bh, bh < kernel.nrBuffers → (kernel.buffers bh).dirt = true →
    (kernel.buffers bh).dev ≠ 0 ∧
      Serves kernel (kernel.buffers bh).dev (kernel.buffers bh).block

/-- A change of a buffer that its request, if it has one, can live with. -/
theorem Sound.setBuffer {kernel : Kernel} {bh : Nat} {buffer : Buffer}
    (sound : Sound kernel) (same : SameLists kernel (kernel.setBuffer bh buffer))
    (requested : ∀ slot dev, slot < nrRequest →
      (kernel.requests slot).dev = some dev → (kernel.requests slot).bh = bh →
        buffer.lock = true ∧ ((kernel.requests slot).cmd = .write ∨
          (kernel.requests slot).cmd = .read ∧ buffer.uptodate = false ∧
            buffer.dirt = false))
    (clean : bh < kernel.nrBuffers → (kernel.buffers bh).dev ≠ 0 →
      buffer.uptodate = true → buffer.dirt = false →
        ¬ kernel.Pending bh .write → ∀ offset, offset < 1024 →
          buffer.data offset = kernel.stored (kernel.buffers bh).dev
            (kernel.buffers bh).block offset)
    (servable : bh < kernel.nrBuffers → buffer.dirt = true →
      (kernel.buffers bh).dev ≠ 0 ∧
        Serves kernel (kernel.buffers bh).dev (kernel.buffers bh).block) :
    Sound (kernel.setBuffer bh buffer) := by
  refine ⟨sound.lists.congr same, sound.noDevice, ?_, sound.apart,
    sound.queues, ?_, ?_⟩
  · intro slot dev inRange isFor
    have old := sound.requested slot dev inRange isFor
    by_cases own : (kernel.requests slot).bh = bh
    · obtain ⟨locked, command⟩ := requested slot dev inRange isFor own
      refine old.change rfl rfl rfl (same.dev _) (same.block _) ?_ ?_ <;>
        rw [own, Kernel.setBuffer_same]
      · exact locked
      · exact command
    · exact old.congr rfl rfl rfl (Kernel.setBuffer_other own)
  · intro other isBuffer
    rw [same.dev, same.block]
    by_cases own : other = bh
    · subst own
      rw [Kernel.setBuffer_same]
      exact clean isBuffer
    · rw [Kernel.setBuffer_other own]
      exact sound.clean other isBuffer
  · intro other isBuffer
    rw [same.dev, same.block]
    by_cases own : other = bh
    · subst own
      rw [Kernel.setBuffer_same]
      exact servable isBuffer
    · rw [Kernel.setBuffer_other own]
      exact sound.servable other isBuffer

/-! ## Changing the data of a buffer -/

/-- New data for a buffer, which is marked as changed. -/
def Kernel.edit (kernel : Kernel) (bh : Nat) (data : Block)
    (uptodate : Bool) : Kernel :=
  kernel.setBuffer bh { kernel.buffers bh with data, uptodate, dirt := true }

section Edit

variable {kernel : Kernel} {bh dev block : Nat} {data : Block} {uptodate : Bool}

theorem edit_same : SameLists kernel (kernel.edit bh data uptodate) :=
  sameLists_setBuffer rfl rfl rfl rfl rfl rfl

theorem edit_own : (kernel.edit bh data uptodate).buffers bh =
    { kernel.buffers bh with data, uptodate, dirt := true } :=
  Kernel.setBuffer_same _ _ _

theorem edit_other {other : Nat} (different : other ≠ bh) :
    (kernel.edit bh data uptodate).buffers other = kernel.buffers other :=
  Kernel.setBuffer_other different

/-- No read into the buffer is under way. -/
theorem Sound.notReading (sound : Sound kernel)
    (idle : (kernel.buffers bh).uptodate = true ∨
      (kernel.buffers bh).lock = false) : ¬ kernel.Pending bh .read := by
  rintro ⟨slot, inRange, busy, isOwn, isRead⟩
  obtain ⟨dev, isFor⟩ := Option.ne_none_iff_exists'.mp busy
  have requested := sound.requested slot dev inRange isFor
  rcases idle with isFresh | unlocked
  · rcases requested.command with isWrite | ⟨_, notFresh, _⟩
    · rw [isRead] at isWrite
      cases isWrite
    · rw [isOwn, isFresh] at notFresh
      cases notFresh
  · have locked := requested.locked
    rw [isOwn, unlocked] at locked
    cases locked

theorem edit_sound (sound : Sound kernel) (notReading : ¬ kernel.Pending bh .read)
    (hasDev : (kernel.buffers bh).dev ≠ 0)
    (serves : Serves kernel (kernel.buffers bh).dev (kernel.buffers bh).block) :
    Sound (kernel.edit bh data uptodate) := by
  apply sound.setBuffer edit_same
  · intro slot dev inRange isFor isOwn
    have requested := sound.requested slot dev inRange isFor
    rw [← isOwn]
    refine ⟨requested.locked, ?_⟩
    rcases requested.command with isWrite | ⟨isRead, _⟩
    · exact .inl isWrite
    · have busy : (kernel.requests slot).dev ≠ none := by simp [isFor]
      exact (notReading ⟨slot, inRange, busy, isOwn, isRead⟩).elim
  · intro _ _ _ isClean
    cases isClean
  · exact fun _ _ => ⟨hasDev, serves⟩

theorem edit_live_own : (kernel.edit bh data uptodate).Live bh := by
  right
  left
  rw [edit_own]

theorem edit_live_other {other : Nat} (different : other ≠ bh) :
    (kernel.edit bh data uptodate).Live other ↔ kernel.Live other := by
  unfold Kernel.Live
  rw [edit_other different]
  exact Iff.rfl

/-- Only the block of the buffer has a new content. -/
theorem edit_content (sound : Sound kernel) (isBuffer : bh < kernel.nrBuffers)
    (isFor : IsFor dev block bh kernel) (hasDev : dev ≠ 0) {other where_ : Nat}
    (otherDev : other ≠ 0) :
    (kernel.edit bh data uptodate).content other where_ =
      if other = dev ∧ where_ = block then data
      else kernel.content other where_ := by
  have same : SameLists kernel (kernel.edit bh data uptodate) := edit_same
  split <;> rename_i here
  · obtain ⟨rfl, rfl⟩ := here
    rw [Kernel.content_of_cached (sound.lists.congr same) otherDev
      (same.nrBuffers ▸ isBuffer) ((same.dev bh).trans isFor.1)
      ((same.block bh).trans isFor.2)]
    unfold Kernel.value
    rw [if_pos edit_live_own, edit_own]
  · unfold Kernel.content
    rw [Kernel.holder_sameLists same]
    cases found : kernel.holder other where_ with
    | none => rfl
    | some holder =>
        obtain ⟨_, holderDev, holderBlock⟩ := Kernel.holder_some found
        have different : holder ≠ bh := by
          rintro rfl
          exact here ⟨holderDev.symm.trans isFor.1, holderBlock.symm.trans isFor.2⟩
        dsimp only
        unfold Kernel.value
        simp only [edit_live_other different, edit_other different]
        rfl

end Edit

/-! ## Write-back -/

/-- What the drivers, and write-back, may do to the kernel. -/
structure Serviced (kernel next : Kernel) : Prop where
  same : SameLists kernel next
  content : Kernel.SameContent kernel next
  count : ∀ bh, (next.buffers bh).count = (kernel.buffers bh).count
  dirt : ∀ bh, (next.buffers bh).dirt = true → (kernel.buffers bh).dirt = true
  uptodate : ∀ bh, (kernel.buffers bh).uptodate = true →
    (next.buffers bh).uptodate = true
  live : ∀ bh, kernel.Live bh → next.Live bh
  driver : next.driver = kernel.driver
  inodes : next.inodes = kernel.inodes
  lastInode : next.lastInode = kernel.lastInode
  supers : next.supers = kernel.supers
  now : next.now = kernel.now

namespace Serviced

theorem refl (kernel : Kernel) : Serviced kernel kernel where
  same := SameLists.refl kernel
  content := fun _ _ _ _ _ => rfl
  count := fun _ => rfl
  dirt := fun _ isDirty => isDirty
  uptodate := fun _ isFresh => isFresh
  live := fun _ isLive => isLive
  driver := rfl
  inodes := rfl
  lastInode := rfl
  supers := rfl
  now := rfl

theorem trans {first second third : Kernel} (left : Serviced first second)
    (right : Serviced second third) : Serviced first third where
  same := left.same.trans right.same
  content := by
    intro dev block offset hasDev inBlock
    rw [right.content dev block offset hasDev inBlock,
      left.content dev block offset hasDev inBlock]
  count := fun bh => (right.count bh).trans (left.count bh)
  dirt := fun bh isDirty => left.dirt bh (right.dirt bh isDirty)
  uptodate := fun bh isFresh => right.uptodate bh (left.uptodate bh isFresh)
  live := fun bh isLive => right.live bh (left.live bh isLive)
  driver := right.driver.trans left.driver
  inodes := right.inodes.trans left.inodes
  lastInode := right.lastInode.trans left.lastInode
  supers := right.supers.trans left.supers
  now := right.now.trans left.now

end Serviced

end Linux011.Fs
