import Mathlib.Data.List.Perm.Basic
import Linux011.Fs.CacheClaims
import Linux011.Fs.CacheTasks

/-!
# A task that reads and changes blocks through the cache

Whatever a task reads, changes, gives back and syncs, the blocks keep the
content it gave them last.
-/

namespace Linux011.Fs

open Coop Prog

/-- What the task does with the cache.  A buffer is named by its place in the
list of those it holds. -/
inductive CacheStep where
  | bread (dev block : Nat)
  | store (place : Nat) (data : Block)
  | brelse (place : Nat)
  | getblk (dev block : Nat)
  | syncDev (dev : Nat)
  | sysSync

/-- A buffer that is held, and whether `bread` returned it. -/
structure Held where
  dev : Nat
  block : Nat
  bh : Nat
  read : Bool

/-- The buffers the task holds, and what each byte should be: what was stored
in its place last, or what was on the device.  That is one byte, unless the
inode table of the kernel has several entries for one inode. -/
structure CacheUse where
  held : List Held
  expected : Nat → Nat → Nat → List UInt8

instance {before after : Kernel} {index : Nat} :
    Decidable (WrittenOut before after index) :=
  decidable_of_iff
    (index < nrInode ∧ (before.inodes index).dirt = true ∧
      (after.inodes index).dirt = false)
    ⟨fun written => ⟨written.1, written.2.1, written.2.2⟩,
      fun written => ⟨written.inRange, written.before, written.after⟩⟩

instance {kernel : Kernel} {index dev block offset : Nat} :
    Decidable (InodeByte kernel index dev block offset) :=
  decidable_of_iff
    ((kernel.inodes index).dev = dev ∧
      ((findSuper kernel.supers dev 0 nrSuper).any fun sb =>
        block = inodeBlock (kernel.supers sb) (kernel.inodes index).num) = true ∧
      ((kernel.inodes index).num - 1) % inodesPerBlock * 32 ≤ offset ∧
      offset < ((kernel.inodes index).num - 1) % inodesPerBlock * 32 + 32)
    ⟨fun isByte => ⟨isByte.1,
        by simpa [Option.any_eq_true] using isByte.2.1, isByte.2.2.1,
        isByte.2.2.2⟩,
      fun isByte => ⟨isByte.isDev,
        by simpa [Option.any_eq_true] using isByte.isBlock, isByte.lower,
        isByte.upper⟩⟩

namespace CacheUse

def begin (kernel : Kernel) : CacheUse where
  held := []
  expected := fun dev block offset => [kernel.stored dev block offset]

def hold (use : CacheUse) (held : Held) : CacheUse :=
  { use with held := held :: use.held }

def store (use : CacheUse) (held : Held) (data : Block) : CacheUse :=
  { use with
    expected := fun dev block offset =>
      if dev = held.dev ∧ block = held.block then [data offset]
      else use.expected dev block offset }

/-- `write_inode` stores in the inode table what has changed of the inodes. -/
def synced (before after : Kernel) (use : CacheUse) : CacheUse :=
  { use with
    expected := fun dev block offset =>
      let written := (List.range nrInode).filter fun index =>
        WrittenOut before after index ∧
          InodeByte before index dev block offset
      if written.isEmpty then use.expected dev block offset
      else written.map fun index => inodeByte (before.inodes index) offset }

end CacheUse

def CacheStep.call (fuel : Nat) (use : CacheUse) : CacheStep → Sys CacheUse
  | bread dev block => do
      match ← Fs.bread fuel dev block with
      | none => return use
      | some bh => return use.hold ⟨dev, block, bh, true⟩
  | store place data =>
      match use.held[place]? with
      | none => return use
      | some held =>
          if held.read = true then do
            onBuffer held.bh fun buffer => { buffer with data, dirt := true }
            return use.store held data
          else return use
  | brelse place =>
      match use.held[place]? with
      | none => return use
      | some held => do
          Fs.brelse (some held.bh)
          return { use with held := use.held.eraseIdx place }
  | getblk dev block => do
      let bh ← Fs.getblk fuel dev block
      return use.hold ⟨dev, block, bh, false⟩
  | syncDev dev => do
      Fs.syncDev fuel dev
      return use
  | sysSync => do
      Fs.sysSync fuel
      return use

def CacheStep.perform (fuel : Nat) (use : CacheUse) (step : CacheStep) :
    Sys CacheUse := do
  let before ← Prog.get
  let use ← step.call fuel use
  let after ← Prog.get
  return use.synced before after

def performAll (fuel : Nat) : List CacheStep → CacheUse → Sys CacheUse
  | [], use => return use
  | step :: rest, use => do
      let use ← step.perform fuel use
      performAll fuel rest use

/-- The blocks that the task names are on devices whose transfers succeed. -/
def CacheStep.Served (kernel : Kernel) : CacheStep → Prop
  | bread dev block => dev ≠ 0 ∧ Serves kernel dev block
  | getblk dev block => dev ≠ 0 ∧ Serves kernel dev block
  | _ => True

/-- The changed in-core inodes have a place in the inode table of a device
that can be read. -/
def InodesPlaced (kernel : Kernel) : Prop :=
  ∀ index, index < nrInode → (kernel.inodes index).dirt = true →
    (kernel.inodes index).dev ≠ 0 →
      ∃ sb, findSuper kernel.supers (kernel.inodes index).dev 0 nrSuper =
          some sb ∧
        Serves kernel (kernel.inodes index).dev
          (inodeBlock (kernel.supers sb) (kernel.inodes index).num)

/-- The cache to begin with: it holds nothing that is not on the devices. -/
structure Begins (kernel : Kernel) : Prop where
  sound : Sound kernel
  small : ∀ bh, (kernel.buffers bh).count ≤ 255
  original : ∀ dev block offset, dev ≠ 0 → offset < 1024 →
    kernel.content dev block offset = kernel.stored dev block offset
  notBlind : ∀ dev block, ¬Blind kernel dev block
  placed : InodesPlaced kernel

/-- What remains of the state the task began in. -/
structure Remains (start kernel : Kernel) : Prop where
  inode : ∀ index, ∃ dirt lock,
    kernel.inodes index = { start.inodes index with dirt, lock } ∧
      (dirt = true → (start.inodes index).dirt = true)
  supers : kernel.supers = start.supers
  driver : kernel.driver = start.driver

/-- A buffer that the task holds is the one it was given. -/
structure Held.Kept (held : Held) (kernel : Kernel) : Prop where
  isBuffer : held.bh < kernel.nrBuffers
  hasDev : held.dev ≠ 0
  isFor : IsFor held.dev held.block held.bh kernel
  serves : Serves kernel held.dev held.block
  fresh : held.read = true → (kernel.buffers held.bh).uptodate = true

structure Session (start : Kernel) (use : CacheUse) (kernel : Kernel) :
    Prop where
  sound : Sound kernel
  remains : Remains start kernel
  small : ∀ bh, (kernel.buffers bh).count ≤ 255
  count : ∀ bh, (kernel.buffers bh).count =
    (start.buffers bh).count + (use.held.map Held.bh).count bh
  kept : ∀ held ∈ use.held, held.Kept kernel
  agrees : ∀ dev block offset, dev ≠ 0 → offset < 1024 →
    kernel.content dev block offset ∈ use.expected dev block offset
  notBlind : ∀ dev block, ¬Blind kernel dev block

theorem Remains.settled {start kernel next : Kernel} {gain : Nat → Nat}
    (remains : Remains start kernel) (settled : Settled gain kernel next) :
    Remains start next where
  inode := by
    intro index
    obtain ⟨dirt, lock, inode, wasDirty⟩ := remains.inode index
    obtain ⟨nextDirt, nextLock, nextInode, nextWas⟩ := settled.inode index
    refine ⟨nextDirt, nextLock, ?_, ?_⟩
    · rw [nextInode, inode]
    · intro isDirty
      have middle := nextWas isDirty
      rw [inode] at middle
      exact wasDirty middle
  supers := settled.supers.trans remains.supers
  driver := settled.driver.trans remains.driver

/-- A byte that has changed is as expected if it was before. -/
theorem CacheUse.synced_expected {before after : Kernel} {use : CacheUse}
    {dev block offset : Nat} {old new : UInt8}
    (updated : Updated before after dev block offset old new)
    (expected : old ∈ use.expected dev block offset) :
    new ∈ (use.synced before after).expected dev block offset := by
  unfold CacheUse.synced
  dsimp only
  obtain ⟨nobody, same⟩ | ⟨index, written, isByte, value⟩ := updated
  · rw [if_pos, same]
    · exact expected
    · rw [List.isEmpty_iff, List.filter_eq_nil_iff]
      intro index _ isWritten
      rw [decide_eq_true_eq] at isWritten
      exact nobody index isWritten.1 isWritten.2
  · have member : index ∈ (List.range nrInode).filter fun index =>
        WrittenOut before after index ∧
          InodeByte before index dev block offset := by
      rw [List.mem_filter, decide_eq_true_eq]
      exact ⟨List.mem_range.mpr written.inRange, written, isByte⟩
    rw [if_neg]
    · exact List.mem_map.mpr ⟨index, member, value.symm⟩
    · rw [List.isEmpty_iff]
      intro none
      rw [none] at member
      cases member

namespace Session

variable {start : Kernel} {use : CacheUse} {kernel : Kernel}

theorem begin (begins : Begins start) :
    Session start (.begin start) start where
  sound := begins.sound
  remains := ⟨fun _ => ⟨_, _, rfl, fun isDirty => isDirty⟩, rfl, rfl⟩
  small := begins.small
  count := fun _ => rfl
  kept := fun _ member => by cases member
  agrees := fun dev block offset hasDev inBlock =>
    List.mem_singleton.mpr (begins.original dev block offset hasDev inBlock)
  notBlind := begins.notBlind

/-- The cache can do its work. -/
theorem ready (session : Session start use kernel)
    (placed : InodesPlaced start) : Ready .noPanic kernel where
  small := session.small
  room := .inr (.inl trivial)
  inodes := by
    intro index
    apply placed_kept session.remains.inode session.remains.supers
      session.remains.driver
    intro index inRange isDirty hasDev
    obtain ⟨sb, found, serves⟩ := placed index inRange isDirty hasDev
    exact ⟨sb, found, serves, session.notBlind _ _⟩

/-- A buffer that is held has a reference. -/
theorem referenced (session : Session start use kernel) {held : Held}
    (member : held ∈ use.held) : 0 < (kernel.buffers held.bh).count := by
  rw [session.count]
  have isCounted : 0 < (use.held.map Held.bh).count held.bh :=
    List.count_pos_iff.mpr (List.mem_map_of_mem member)
  exact Nat.add_pos_right _ isCounted

/-- A call into the cache that changes nothing the task has to do with. -/
theorem settle {next : Kernel} {gain : Nat → Nat} {later : CacheUse}
    (session : Session start use kernel) (sound : Sound next)
    (settled : Settled gain kernel next)
    (small : ∀ bh, (next.buffers bh).count ≤ 255)
    (gains : ∀ bh, (later.held.map Held.bh).count bh =
      (use.held.map Held.bh).count bh + gain bh)
    (kept : ∀ one ∈ later.held, one ∈ use.held ∨ one.Kept next)
    (agrees : ∀ dev block offset, dev ≠ 0 → offset < 1024 →
      next.content dev block offset ∈ later.expected dev block offset) :
    Session start later next where
  sound := sound
  remains := session.remains.settled settled
  small := small
  count := by
    intro bh
    rw [settled.count, session.count, gains, Nat.add_assoc]
  kept := by
    intro one member
    rcases kept one member with isOld | isKept
    · obtain ⟨isBuffer, hasDev, isFor, serves, fresh⟩ := session.kept one isOld
      obtain ⟨sameDev, sameBlock, stays, _⟩ :=
        settled.held one.bh (session.referenced isOld)
      refine ⟨settled.size ▸ isBuffer, hasDev, ⟨?_, ?_⟩,
        serves.congr settled.driver, fun isRead => stays (fresh isRead)⟩
      · exact sameDev.trans isFor.1
      · exact sameBlock.trans isFor.2
    · exact isKept
  agrees := agrees
  notBlind := fun dev block isBlind =>
    session.notBlind dev block (settled.blind dev block isBlind)

/-- What `write_inode` has done on the way is expected. -/
theorem updated {next : Kernel} {gain : Nat → Nat} {dev block offset : Nat}
    (session : Session start use kernel) (settled : Settled gain kernel next)
    (hasDev : dev ≠ 0) (inBlock : offset < 1024) :
    next.content dev block offset ∈
      (use.synced kernel next).expected dev block offset :=
  CacheUse.synced_expected (settled.content dev block offset hasDev inBlock)
    (session.agrees dev block offset hasDev inBlock)

/-- A call that leaves the inodes alone adds nothing to what is expected. -/
theorem synced {before : Kernel} (session : Session start use kernel)
    (inodes : kernel.inodes = before.inodes) :
    Session start (use.synced before kernel) kernel :=
  { session with
    agrees := fun dev block offset hasDev inBlock =>
      CacheUse.synced_expected (.same inodes rfl)
        (session.agrees dev block offset hasDev inBlock) }

/-- A buffer that `getblk` or `bread` returns is one more that is held. -/
theorem hold {next : Kernel} {dev block bh : Nat} {read : Bool}
    (session : Session start use kernel)
    (got : Got kernel dev block bh next) (hasDev : dev ≠ 0)
    (serves : Serves start dev block)
    (fresh : read = true → (next.buffers bh).uptodate = true) :
    Session start ((use.hold ⟨dev, block, bh, read⟩).synced kernel next)
      next := by
  apply session.settle got.sound got.settled
  · intro other
    rw [got.settled.count]
    by_cases isOwn : other = bh
    · subst isOwn
      have count := got.settled.count other
      have small := got.small
      omega
    · rw [one_other isOwn]
      exact session.small other
  · intro other
    show (bh :: use.held.map Held.bh).count other = _
    rw [List.count_cons]
    by_cases isOwn : other = bh
    · rw [isOwn, one_same, if_pos (beq_self_eq_true bh)]
    · rw [one_other isOwn, if_neg (by simpa using Ne.symm isOwn)]
  · intro one member
    rcases List.mem_cons.mp member with rfl | isOld
    · right
      refine ⟨got.isBuffer, hasDev, got.isFor, ?_, fresh⟩
      exact (serves.congr session.remains.driver).congr got.settled.driver
    · exact .inl isOld
  · exact fun _ _ _ => session.updated got.settled

/-- The task changes a buffer that it has read. -/
theorem store (session : Session start use kernel) {held : Held}
    (member : held ∈ use.held) (isRead : held.read = true) (data : Block) :
    Session start (use.store held data)
      (kernel.edit held.bh data (kernel.buffers held.bh).uptodate) := by
  obtain ⟨isBuffer, hasDev, isFor, serves, fresh⟩ := session.kept held member
  have same : SameLists kernel
      (kernel.edit held.bh data (kernel.buffers held.bh).uptodate) := edit_same
  have others {other : Nat} : ((kernel.edit held.bh data
      (kernel.buffers held.bh).uptodate).buffers other).uptodate =
        (kernel.buffers other).uptodate ∧
      ((kernel.edit held.bh data
        (kernel.buffers held.bh).uptodate).buffers other).count =
        (kernel.buffers other).count := by
    by_cases isOwn : other = held.bh
    · rw [isOwn, edit_own]
      exact ⟨rfl, rfl⟩
    · rw [edit_other isOwn]
      exact ⟨rfl, rfl⟩
  constructor
  case sound =>
    apply edit_sound session.sound
      (session.sound.notReading (.inl (fresh isRead)))
    · rw [isFor.1]
      exact hasDev
    · rw [isFor.1, isFor.2]
      exact serves
  case remains =>
    exact ⟨session.remains.inode, session.remains.supers,
      session.remains.driver⟩
  case small =>
    intro other
    rw [others.2]
    exact session.small other
  case count =>
    intro other
    rw [others.2]
    exact session.count other
  case kept =>
    intro one isOne
    obtain ⟨oneBuffer, oneDev, oneFor, oneServes, oneFresh⟩ :=
      session.kept one isOne
    refine ⟨same.nrBuffers ▸ oneBuffer, oneDev, ⟨?_, ?_⟩, oneServes, ?_⟩
    · exact (same.dev one.bh).trans oneFor.1
    · exact (same.block one.bh).trans oneFor.2
    · intro oneRead
      rw [others.1]
      exact oneFresh oneRead
  case agrees =>
    intro dev block offset otherDev inBlock
    rw [edit_content session.sound isBuffer isFor hasDev otherDev]
    unfold CacheUse.store
    dsimp only
    split
    · exact List.mem_singleton_self _
    · exact session.agrees dev block offset otherDev inBlock
  case notBlind =>
    rintro dev block ⟨bh, bhBuffer, ⟨bhDev, bhBlock⟩, isDirty, notFresh⟩
    rw [others.1] at notFresh
    by_cases isOwn : bh = held.bh
    · rw [isOwn, fresh isRead] at notFresh
      cases notFresh
    · rw [edit_other isOwn] at bhDev bhBlock isDirty
      exact session.notBlind dev block
        ⟨bh, bhBuffer, ⟨bhDev, bhBlock⟩, isDirty, notFresh⟩

/-- A buffer loses a reference. -/
theorem recount {bh count : Nat} {held : List Held}
    (session : Session start use kernel) (small : count ≤ 255)
    (counts : ∀ other, (if other = bh then count
      else (kernel.buffers other).count) =
        (start.buffers other).count + (held.map Held.bh).count other)
    (kept : ∀ one ∈ held, one ∈ use.held) :
    Session start { use with held }
      (kernel.setBuffer bh { kernel.buffers bh with count }) := by
  have same : SameLists kernel
      (kernel.setBuffer bh { kernel.buffers bh with count }) :=
    setCount_same count
  have own (other : Nat) :
      ((kernel.setBuffer bh { kernel.buffers bh with count }).buffers
        other).count =
          if other = bh then count else (kernel.buffers other).count := by
    rw [Kernel.setBuffer_buffers]
    split <;> rfl
  constructor
  case sound => exact setCount_sound session.sound count
  case remains =>
    exact ⟨session.remains.inode, session.remains.supers,
      session.remains.driver⟩
  case small =>
    intro other
    rw [own]
    split
    · exact small
    · exact session.small other
  case count =>
    intro other
    rw [own]
    exact counts other
  case kept =>
    intro one member
    obtain ⟨isBuffer, hasDev, isFor, serves, fresh⟩ :=
      session.kept one (kept one member)
    refine ⟨same.nrBuffers ▸ isBuffer, hasDev, ⟨?_, ?_⟩, serves, ?_⟩
    · exact (same.dev one.bh).trans isFor.1
    · exact (same.block one.bh).trans isFor.2
    · rw [setCount_uptodate]
      exact fresh
  case agrees =>
    intro dev block offset hasDev inBlock
    rw [setCount_content count dev block offset hasDev inBlock]
    exact session.agrees dev block offset hasDev inBlock
  case notBlind =>
    exact fun dev block isBlind =>
      session.notBlind dev block (setCount_blind isBlind)

/-- The drivers have been at work. -/
theorem serviced {next : Kernel} (session : Session start use kernel)
    (sound : Sound next) (serviced : Serviced kernel next) :
    Session start use next := by
  apply session.settle sound serviced.settled
  · intro bh
    rw [serviced.count]
    exact session.small bh
  · exact fun _ => rfl
  · exact fun _ member => .inl member
  · intro dev block offset hasDev inBlock
    rw [serviced.content dev block offset hasDev inBlock]
    exact session.agrees dev block offset hasDev inBlock

/-- What `brelse` leaves behind. -/
theorem release (session : Session start use kernel) {place : Nat}
    {held : Held} (isHeld : use.held[place]? = some held) :
    (brelse (some held.bh)).wp .noPanic Io
      (fun _ next =>
        Session start { use with held := use.held.eraseIdx place } next ∧
          next.inodes = kernel.inodes)
      kernel := by
  obtain ⟨inRange, isHeld⟩ := List.getElem?_eq_some_iff.mp isHeld
  have member : held ∈ use.held := isHeld ▸ List.getElem_mem inRange
  apply wp_mono (brelse_drops session.sound (session.referenced member)
    (session.small held.bh))
  rintro _ _ ⟨waited, waitedSound, serviced, rfl⟩
  have later := session.serviced waitedSound serviced
  have referenced := later.referenced member
  refine ⟨later.recount ?_ ?_ ?_, serviced.inodes⟩
  · have small := later.small held.bh
    omega
  · intro other
    have perm := List.getElem_cons_eraseIdx_perm inRange
    have total := (perm.map Held.bh).count_eq other
    rw [isHeld, List.map_cons, List.count_cons] at total
    have count := later.count other
    split <;> rename_i isOwn
    · subst isOwn
      rw [if_pos (beq_self_eq_true held.bh)] at total
      omega
    · rw [if_neg (by simpa using Ne.symm isOwn)] at total
      omega
  · exact fun one isOne => List.mem_of_mem_eraseIdx isOne

end Session

/-! ## The calls -/

section Specs

-- the loop over the inode table is not to be looked into
attribute [local irreducible] syncInodesWith

section Calls

variable {fate : Fate} {kernel : Kernel}

theorem bread_wp {fuel dev block : Nat} (sound : Sound kernel)
    (ready : Ready fate kernel) (room : Room fate kernel dev block)
    (hasDev : dev ≠ 0) (serves : Serves kernel dev block)
    (notBlind : ¬Blind kernel dev block) (spent : fate.spent) :
    (bread fuel dev block).wp fate Io
      (fun found next => ∃ bh, found = some bh ∧ Read kernel dev block bh next)
      kernel :=
  breadWith_wp (getblk_wp spent fuel kernel dev block sound ready room hasDev)
    hasDev serves notBlind

theorem syncDev_wp {fuel dev : Nat} (sound : Sound kernel)
    (ready : Ready fate kernel) (spent : fate.spent) :
    (syncDev fuel dev).wp fate Io
      (fun _ next => Sound next ∧ Settled 0 kernel next) kernel :=
  syncDevWith_wp sound ready (getblk_wp spent fuel) fuel dev spent

/-- The loop of `sys_sync` over the buffers. -/
theorem syncBuffers_wp (sound : Sound kernel) (count : Nat)
    (inBuffers : count ≤ kernel.nrBuffers) :
    (Prog.upTo (fun bh => do
      waitOnBuffer bh
      let kernel ← Prog.get
      if (kernel.buffers bh).dirt = true then llRwBlock .write bh
      else pure ()) count).wp fate Io
      (fun _ next => Sound next ∧ Serviced kernel next) kernel := by
  apply wp_loop
  · exact ⟨sound, Serviced.refl kernel⟩
  · rintro bh inRange state ⟨stateSound, serviced⟩
    have isBuffer : bh < state.nrBuffers := by
      rw [serviced.same.nrBuffers]
      omega
    apply wp_mono (writeOut_wp stateSound isBuffer
      (fun buffer : Buffer => buffer.dirt = true) fun _ isDirty => isDirty)
    rintro _ next ⟨nextSound, nextServiced⟩
    exact ⟨nextSound, serviced.trans nextServiced⟩

theorem sysSync_wp {fuel : Nat} (sound : Sound kernel)
    (ready : Ready fate kernel) (spent : fate.spent) :
    (sysSync fuel).wp fate Io
      (fun _ next => Sound next ∧ Settled 0 kernel next) kernel := by
  unfold sysSync syncInodes
  rw [wp_bind]
  apply wp_mono (syncInodesWith_wp sound ready (getblk_wp spent fuel) fuel
    spent)
  rintro _ middle ⟨middleSound, settled⟩
  rw [wp_bind, wp_get]
  apply wp_mono (syncBuffers_wp middleSound _ (Nat.le_refl _))
  rintro _ next ⟨nextSound, serviced⟩
  exact ⟨nextSound, settled.after serviced.settled⟩

end Calls

section Performing

variable {start kernel : Kernel} {use : CacheUse} {fuel : Nat}

theorem Session.settled {next : Kernel} (session : Session start use kernel)
    (sound : Sound next) (settled : Settled 0 kernel next) :
    Session start (use.synced kernel next) next := by
  apply session.settle sound settled
  · intro bh
    rw [settled.count]
    exact session.small bh
  · exact fun _ => rfl
  · exact fun _ member => .inl member
  · exact fun _ _ _ => session.updated settled

theorem Session.bread (session : Session start use kernel)
    (placed : InodesPlaced start) {dev block : Nat} (hasDev : dev ≠ 0)
    (serves : Serves start dev block) :
    ((CacheStep.bread dev block).perform fuel use).wp .noPanic Io
      (fun use next => Session start use next ∧ ∃ bh rest,
        use.held = ⟨dev, block, bh, true⟩ :: rest ∧
        (next.buffers bh).data = next.content dev block) kernel := by
  unfold CacheStep.perform CacheStep.call
  rw [wp_bind, wp_get, wp_bind, wp_bind]
  apply wp_mono (bread_wp session.sound (session.ready placed) (.inl trivial)
    hasDev (serves.congr session.remains.driver) (session.notBlind dev block)
    trivial)
  rintro found next ⟨bh, rfl, read⟩
  refine ⟨session.hold read.toGot hasDev serves fun _ => read.fresh, bh, _, rfl,
    (read.content hasDev).symm⟩

/-- Every call keeps the session. -/
theorem Session.perform (session : Session start use kernel)
    (placed : InodesPlaced start) {step : CacheStep}
    (served : step.Served start) :
    (step.perform fuel use).wp .noPanic Io
      (fun use next => Session start use next) kernel := by
  cases step with
  | bread dev block =>
      apply wp_mono (session.bread placed served.1 served.2)
      exact fun _ _ read => read.1
  | store place data =>
      unfold CacheStep.perform CacheStep.call
      rw [wp_bind, wp_get, wp_bind]
      dsimp only
      split <;> rename_i isHeld
      · exact session.synced rfl
      · split <;> rename_i isRead
        · obtain ⟨inRange, isHeld⟩ := List.getElem?_eq_some_iff.mp isHeld
          have member := isHeld ▸ List.getElem_mem inRange
          exact (session.store member isRead data).synced rfl
        · exact session.synced rfl
  | brelse place =>
      unfold CacheStep.perform CacheStep.call
      rw [wp_bind, wp_get, wp_bind]
      dsimp only
      split <;> rename_i isHeld
      · exact session.synced rfl
      · rw [wp_bind]
        apply wp_mono (session.release isHeld)
        rintro _ next ⟨released, inodes⟩
        exact released.synced inodes
  | getblk dev block =>
      unfold CacheStep.perform CacheStep.call
      rw [wp_bind, wp_get, wp_bind, wp_bind]
      apply wp_mono (getblk_wp trivial fuel kernel dev block session.sound
        (session.ready placed) (.inl trivial) served.1)
      intro bh next got
      exact session.hold got served.1 served.2 fun none => by cases none
  | syncDev dev =>
      unfold CacheStep.perform CacheStep.call
      rw [wp_bind, wp_get, wp_bind, wp_bind]
      apply wp_mono (syncDev_wp session.sound (session.ready placed) trivial)
      rintro _ next ⟨sound, settled⟩
      exact session.settled sound settled
  | sysSync =>
      unfold CacheStep.perform CacheStep.call
      rw [wp_bind, wp_get, wp_bind, wp_bind]
      apply wp_mono (sysSync_wp session.sound (session.ready placed) trivial)
      rintro _ next ⟨sound, settled⟩
      exact session.settled sound settled

theorem Session.performAll (session : Session start use kernel)
    (placed : InodesPlaced start) {steps : List CacheStep}
    (served : ∀ step ∈ steps, step.Served start) :
    (performAll fuel steps use).wp .noPanic Io
      (fun use next => Session start use next) kernel := by
  induction steps generalizing use kernel with
  | nil => exact session
  | cons step rest induction =>
      unfold Fs.performAll
      rw [wp_bind]
      apply wp_mono (session.perform placed (served step List.mem_cons_self))
      intro use next later
      exact induction later fun step member =>
        served step (List.mem_cons_of_mem _ member)

end Performing

end Specs

/-- The calls, from `start` on, and then a `bread`. -/
def readBack (fuel : Nat) (start : Kernel) (steps : List CacheStep)
    (dev block : Nat) : Sys CacheUse := do
  let use ← performAll fuel steps (.begin start)
  (CacheStep.bread dev block).perform fuel use

/-- The last `bread` returned a buffer, with the bytes that were stored in the
block last. -/
def ReadsBack (use : CacheUse) (kernel : Kernel) (dev block : Nat) : Prop :=
  ∃ bh rest, use.held = ⟨dev, block, bh, true⟩ :: rest ∧
    ∀ offset, offset < 1024 →
      (kernel.buffers bh).data offset ∈ use.expected dev block offset

/-- After any calls, `bread` returns what was stored in the block last, unless
some buffer gets a 256th reference on the way. -/
theorem cache_transparent {start : Kernel} (begins : Begins start)
    {steps : List CacheStep} (served : ∀ step ∈ steps, step.Served start)
    {dev block : Nat} (hasDev : dev ≠ 0) (serves : Serves start dev block)
    (fuel : Nat) :
    (readBack fuel start steps dev block).wp .noPanic Io
      (fun use next => ReadsBack use next dev block) start := by
  unfold readBack
  rw [wp_bind]
  apply wp_mono ((Session.begin begins).performAll begins.placed served)
  intro use middle session
  apply wp_mono (session.bread begins.placed hasDev serves)
  rintro use next ⟨later, bh, rest, isHeld, data⟩
  refine ⟨bh, rest, isHeld, fun offset inBlock => ?_⟩
  rw [data]
  exact later.agrees dev block offset hasDev inBlock

/-! ## A cache of its own -/

/-- A cache that has not been used. -/
theorem bufferInit_begins {count : Nat} (some : 0 < count)
    (memory : Nat → Buffer) {kernel : Kernel}
    (noDevice : kernel.driver 0 = .absent)
    (noRequest : ∀ slot, (kernel.requests slot).dev = none)
    (noQueue : ∀ major, kernel.queue major = [])
    (placed : InodesPlaced kernel) :
    Begins (bufferInit count memory kernel) where
  sound :=
    { lists := bufferInit_lists some memory kernel
      noDevice := noDevice
      requested := by
        intro slot dev _ isFor
        have none := noRequest slot
        rw [show (kernel.requests slot).dev = _ from isFor] at none
        cases none
      apart := fun first _ _ _ busy => (busy (noRequest first)).elim
      queues := by
        intro major
        have empty : (bufferInit count memory kernel).queue major = [] :=
          noQueue major
        rw [empty]
        exact ⟨List.nodup_nil, fun _ member => by cases member⟩
      clean := fun _ _ hasDev => (hasDev rfl).elim
      servable := fun _ _ isDirty => by cases isDirty }
  small := fun _ => Nat.zero_le _
  original := by
    intro dev block offset hasDev _
    have nobody : (bufferInit count memory kernel).holder dev block =
        Option.none :=
      Kernel.holder_eq_none fun _ _ isDev => (hasDev isDev.symm).elim
    unfold Kernel.content
    rw [nobody]
  notBlind := by
    rintro dev block ⟨bh, _, _, isDirty, _⟩
    cases isDirty
  placed := placed

section Witness

/-- A machine with a ram disk of four blocks and a cache of so many buffers. -/
def ramKernel (count : Nat) : Kernel :=
  bufferInit count idleKernel.buffers
    { idleKernel with
      driver := fun major => if major = 1 then .ram 4096 else .absent }

theorem ramKernel_begins {count : Nat} (some : 0 < count) :
    Begins (ramKernel count) := by
  apply bufferInit_begins some
  · rfl
  · exact fun _ => rfl
  · exact fun _ => rfl
  · exact fun _ _ isDirty => by cases isDirty

theorem ramKernel_serves (count : Nat) {block : Nat} (inDevice : block < 4) :
    Serves (ramKernel count) 257 block := by
  refine ⟨by omega, by decide, by decide, ?_⟩
  omega

/-- A block is changed and driven out of the only buffer. -/
def driveOut : List CacheStep :=
  [.bread 257 1, .store 0 fun _ => 7, .brelse 0, .getblk 257 2, .brelse 0]

theorem cache_transparent_evicted :
    ∃ use next,
      readBack 5 (ramKernel 1) driveOut 257 1 (ramKernel 1) =
        .done use next ∧
      ReadsBack use next 257 1 := by
  have served : ∀ step ∈ driveOut, step.Served (ramKernel 1) := by
    intro step member
    simp only [driveOut, List.mem_cons, List.not_mem_nil, or_false] at member
    rcases member with rfl | rfl | rfl | rfl | rfl
    · exact ⟨by decide, ramKernel_serves 1 (by decide)⟩
    · trivial
    · trivial
    · exact ⟨by decide, ramKernel_serves 1 (by decide)⟩
    · trivial
  obtain ⟨use, next, runs⟩ : ∃ use next,
      readBack 5 (ramKernel 1) driveOut 257 1 (ramKernel 1) =
        .done use next := ⟨_, _, rfl⟩
  have serves : Serves (ramKernel 1) 257 1 := ramKernel_serves 1 (by decide)
  have right := cache_transparent (ramKernel_begins (by decide)) served
    (by decide) serves 5
  unfold Prog.wp at right
  rw [runs] at right
  exact ⟨use, next, runs, right⟩

/-- The 256th reference makes a buffer look unused. -/
def tooMany : List CacheStep :=
  List.replicate 256 (.bread 257 0) ++
    [.getblk 257 1, .store 1 fun _ => 7, .brelse 0]

theorem cache_forgets :
    Begins (ramKernel 1) ∧ (∀ step ∈ tooMany, step.Served (ramKernel 1)) ∧
      Serves (ramKernel 1) 257 0 ∧
      ∃ use next,
        (readBack 5 (ramKernel 1) tooMany 257 0 (ramKernel 1)).outcome =
          some (use, next) ∧
        ¬ReadsBack use next 257 0 := by
  refine ⟨ramKernel_begins (by decide), ?_, ramKernel_serves 1 (by decide), ?_⟩
  · intro step member
    rcases List.mem_append.mp member with isRead | isOther
    · rw [List.eq_of_mem_replicate isRead]
      exact ⟨by decide, ramKernel_serves 1 (by decide)⟩
    · simp only [List.mem_cons, List.not_mem_nil, or_false] at isOther
      rcases isOther with rfl | rfl | rfl
      · exact ⟨by decide, ramKernel_serves 1 (by decide)⟩
      · trivial
      · trivial
  · have ends : ((readBack 5 (ramKernel 1) tooMany 257 0
        (ramKernel 1)).outcome.map fun result =>
          (result.1.held.head?.map Held.bh, result.1.expected 257 0 0,
            (result.2.buffers 0).data 0)) = some (some 0, [7], 0) := by
      decide +kernel
    obtain ⟨⟨use, next⟩, runs, result⟩ := Option.map_eq_some_iff.mp ends
    simp only [Prod.mk.injEq] at result
    obtain ⟨isFirst, expected, data⟩ := result
    refine ⟨use, next, runs, ?_⟩
    rintro ⟨bh, rest, isHeld, holds⟩
    rw [isHeld] at isFirst
    cases isFirst
    have isExpected := holds 0 (by decide)
    rw [expected, data, List.mem_singleton] at isExpected
    cases isExpected

end Witness

end Linux011.Fs
