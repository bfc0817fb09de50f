import Linux011.Fs.BlockFiles
import Linux011.Fs.CacheQueues
import Linux011.Fs.CleanCache
import Linux011.Fs.CountBytes
import Linux011.Fs.FreeBlock

/-!
# What `breada` reads ahead

The loop of `breada` takes a buffer for each block of its list, and then asks
for the first block again instead of the block of that buffer.
-/

namespace Linux011.Fs

open Coop Prog

/-! ## How often the first block is asked for -/

/-- The buffer is up to date, or its block is being read. -/
def Kernel.Fetching (kernel : Kernel) (bh : Nat) : Prop :=
  (kernel.buffers bh).uptodate = true ∨
    (kernel.buffers bh).lock = true ∧ kernel.Pending bh .read

section Fetching

variable {kernel next : Kernel} {bh dev block : Nat}

theorem Kernel.Fetching.complete (fetching : kernel.Fetching bh) (major : Nat) :
    (complete major true kernel).Fetching bh := by
  rcases fetching with isFresh | ⟨isLocked, slot, inRange, busy, isFor, isRead⟩
  · left
    obtain ⟨_, _, _, isBuffer, keeps⟩ := complete_buffer major true kernel bh
    rw [isBuffer]
    exact (keeps rfl).1 isFresh
  · have moves (served : Nat) :
        (transfer served kernel).queue = kernel.queue ∧
          (transfer served kernel).requests = kernel.requests ∧
          ((transfer served kernel).buffers bh).lock = true := by
      unfold transfer
      dsimp only
      split
      · exact ⟨rfl, rfl, isLocked⟩
      · refine ⟨rfl, rfl, ?_⟩
        rw [Kernel.setBuffer_buffers]
        split <;> rename_i here
        · rw [here] at isLocked
          exact isLocked
        · exact isLocked
    unfold Fs.complete
    split <;> rename_i queued
    · exact .inr ⟨isLocked, slot, inRange, busy, isFor, isRead⟩
    · rename_i served rest
      obtain ⟨queue, requests, stillLocked⟩ := moves served
      rw [if_pos rfl]
      unfold endRequest
      rw [queue, queued]
      by_cases isOwn : (kernel.requests served).bh = bh
      · left
        show (if bh = ((transfer served kernel).requests served).bh then _
          else _ : Buffer).uptodate = true
        rw [requests, if_pos isOwn.symm]
      · right
        have other : slot ≠ served := by
          rintro rfl
          exact isOwn isFor
        refine ⟨?_, slot, inRange, ?_⟩
        · show (if bh = ((transfer served kernel).requests served).bh then _
            else _ : Buffer).lock = true
          rw [requests, if_neg (Ne.symm isOwn)]
          exact stillLocked
        · have same := congrFun requests slot
          show (if slot = served then _ else _ : Request).dev ≠ none ∧
            (if slot = served then _ else _ : Request).bh = bh ∧
            (if slot = served then _ else _ : Request).cmd = .read
          rw [if_neg other]
          show ((transfer served kernel).requests slot).dev ≠ none ∧
            ((transfer served kernel).requests slot).bh = bh ∧
            ((transfer served kernel).requests slot).cmd = .read
          rw [same]
          exact ⟨busy, isFor, isRead⟩

theorem Kernel.Fetching.io (fetching : kernel.Fetching bh) (io : Io kernel next) :
    next.Fetching bh := by
  induction io with
  | refl => exact fetching
  | tail _ completes induction =>
      obtain ⟨major, rfl⟩ := completes
      exact induction.complete major

end Fetching

/-! ## The drivers stay -/

theorem complete_driver (major : Nat) (success : Bool) (kernel : Kernel) :
    (complete major success kernel).driver = kernel.driver := by
  have ends (uptodate : Bool) (kernel : Kernel) :
      (endRequest major uptodate kernel).driver = kernel.driver := by
    unfold endRequest
    split <;> rfl
  have moves (slot : Nat) : (transfer slot kernel).driver = kernel.driver := by
    unfold transfer
    dsimp only
    split <;> rfl
  unfold complete
  split
  · rfl
  · split
    · exact (ends true _).trans (moves _)
    · exact ends false kernel

theorem Io.driver {kernel next : Kernel} (io : Io kernel next) :
    next.driver = kernel.driver := by
  induction io with
  | refl => rfl
  | tail _ completes induction =>
      obtain ⟨major, rfl⟩ := completes
      exact (complete_driver major true _).trans induction

/-- The cache is in order and the drivers are these. -/
structure Driven (size : Nat) (driver : Nat → Driver) (kernel : Kernel) :
    Prop where
  ordered : Ordered size kernel
  driver : kernel.driver = driver

section Driven

variable {size : Nat} {driver : Nat → Driver}

theorem Driven.quiet {kernel next : Kernel}
    (driven : Driven size driver kernel) (quiet : Quiet kernel next)
    (same : next.driver = kernel.driver) : Driven size driver next :=
  ⟨driven.ordered.quiet quiet, same.trans driven.driver⟩

theorem Driven.io {kernel next : Kernel} (driven : Driven size driver kernel)
    (io : Io kernel next) : Driven size driver next :=
  driven.quiet io.interrupts.quiet io.driver

end Driven

/-! ## The first block -/

section First

variable {dev first bh : Nat}

/-- A buffer for a block of a device that has a driver. -/
structure Served (dev block bh : Nat) (kernel : Kernel) : Prop where
  holder : Holder dev block bh kernel
  serves : Serves kernel dev block

theorem Holder.congr {kernel next : Kernel} (holder : Holder dev first bh kernel)
    (same : SameLists kernel next) : Holder dev first bh next where
  isBuffer := by
    rw [same.nrBuffers]
    exact holder.isBuffer
  isFor := ⟨(same.dev bh).trans holder.isFor.1,
    (same.block bh).trans holder.isFor.2⟩

theorem Served.congr {kernel next : Kernel} (served : Served dev first bh kernel)
    (same : SameLists kernel next) (driver : next.driver = kernel.driver) :
    Served dev first bh next :=
  ⟨served.holder.congr same, served.serves.congr driver⟩

theorem Served.io {kernel next : Kernel} (served : Served dev first bh kernel)
    (io : Io kernel next) : Served dev first bh next :=
  served.congr io.interrupts.quiet.same io.driver

/-- The buffer is locked for a request, or has come up to date. -/
structure Reserved (dev first bh : Nat) (kernel : Kernel) : Prop where
  served : Served dev first bh kernel
  held : (kernel.buffers bh).uptodate = true ∨ (kernel.buffers bh).lock = true

theorem Reserved.io {kernel next : Kernel} (taken : Reserved dev first bh kernel)
    (io : Io kernel next) : Reserved dev first bh next where
  served := taken.served.io io
  held := by
    induction io with
    | refl => exact taken.held
    | @tail before _ _ completes induction =>
        obtain ⟨major, rfl⟩ := completes
        obtain ⟨_, _, _, isBuffer, keeps⟩ :=
          complete_buffer major true before bh
        rw [isBuffer]
        rcases induction with isFresh | isLocked
        · exact .inl ((keeps rfl).1 isFresh)
        · exact (keeps rfl).2 isLocked

end First

/-! ## The list -/

/-- The block is in the cache and up to date. -/
def Kernel.Fresh (kernel : Kernel) (dev block : Nat) : Prop :=
  ∃ tmp, findBuffer kernel dev block = some tmp ∧
    (kernel.buffers tmp).uptodate = true

/-- The block is up to date, or its own buffer has a request to read it. -/
def Kernel.Asked (kernel : Kernel) (dev block : Nat) : Prop :=
  ∃ tmp, tmp < kernel.nrBuffers ∧ IsFor dev block tmp kernel ∧
    ((kernel.buffers tmp).uptodate = true ∨ kernel.Pending tmp .read)

/-- The list, where all of its blocks are in the cache. -/
structure Warm (start : Kernel) (gain : Nat → Nat) (dev first bh : Nat)
    (aheads : List Nat) (kernel : Kernel) : Prop where
  bytes : Bytes start gain kernel
  found : findBuffer kernel dev first = some bh
  fetching : kernel.Fetching bh
  fresh : ∀ ahead ∈ aheads, ahead ≠ first → kernel.Fresh dev ahead

section Warm

variable {start kernel next : Kernel} {gain more : Nat → Nat}
  {dev first bh ahead tmp : Nat} {aheads : List Nat}

theorem Warm.change (warm : Warm start gain dev first bh aheads kernel)
    (bytes : Bytes start more next) (same : SameLists kernel next)
    (fetching : next.Fetching bh)
    (uptodate : ∀ other, (kernel.buffers other).uptodate = true →
      (next.buffers other).uptodate = true) :
    Warm start more dev first bh aheads next where
  bytes := bytes
  found := (findBuffer_congr same dev first).trans warm.found
  fetching := fetching
  fresh := by
    intro ahead isAhead notFirst
    obtain ⟨tmp, found, isFresh⟩ := warm.fresh ahead isAhead notFirst
    exact ⟨tmp, (findBuffer_congr same dev ahead).trans found,
      uptodate tmp isFresh⟩

theorem Io.uptodate (io : Io kernel next)
    (isFresh : (kernel.buffers bh).uptodate = true) :
    (next.buffers bh).uptodate = true := by
  induction io with
  | refl => exact isFresh
  | @tail before _ _ completes induction =>
      obtain ⟨major, rfl⟩ := completes
      obtain ⟨_, _, _, isBuffer, keeps⟩ := complete_buffer major true before bh
      rw [isBuffer]
      exact (keeps rfl).1 induction

theorem Warm.io (warm : Warm start gain dev first bh aheads kernel)
    (io : Io kernel next) : Warm start gain dev first bh aheads next :=
  warm.change (warm.bytes.interrupts io.interrupts) io.interrupts.quiet.same
    (warm.fetching.io io) fun _ => io.uptodate

theorem Warm.recount {buffer : Buffer} {count : Nat}
    (warm : Warm start gain dev first bh aheads kernel)
    (isBuffer : buffer = { kernel.buffers tmp with count })
    (bytes : Bytes start more (kernel.setBuffer tmp buffer)) :
    Warm start more dev first bh aheads (kernel.setBuffer tmp buffer) := by
  subst isBuffer
  apply warm.change bytes (setCount_same count)
  · unfold Kernel.Fetching
    rw [setCount_uptodate]
    refine warm.fetching.imp_right fun reading => ⟨?_, reading.2⟩
    rw [Kernel.setBuffer_buffers]
    split <;> rename_i here
    · rw [here] at reading
      exact reading.1
    · exact reading.1
  · intro other isFresh
    rw [setCount_uptodate]
    exact isFresh

/-- A block of the list is found, and is up to date when its buffer is
unlocked. -/
theorem Warm.finds (warm : Warm start gain dev first bh aheads kernel)
    (isAhead : ahead ∈ aheads) :
    ∃ tmp, findBuffer kernel dev ahead = some tmp := by
  by_cases isFirst : ahead = first
  · exact ⟨bh, isFirst ▸ warm.found⟩
  · obtain ⟨tmp, found, _⟩ := warm.fresh ahead isAhead isFirst
    exact ⟨tmp, found⟩

theorem Warm.uptodate (warm : Warm start gain dev first bh aheads kernel)
    (isAhead : ahead ∈ aheads) (found : findBuffer kernel dev ahead = some tmp)
    (unlocked : (kernel.buffers tmp).lock = false) :
    (kernel.buffers tmp).uptodate = true := by
  by_cases isFirst : ahead = first
  · subst isFirst
    obtain rfl := Option.some.inj (warm.found.symm.trans found)
    rcases warm.fetching with isFresh | ⟨isLocked, _⟩
    · exact isFresh
    · rw [unlocked] at isLocked
      cases isLocked
  · obtain ⟨other, isOther, isFresh⟩ := warm.fresh ahead isAhead isFirst
    obtain rfl := Option.some.inj (found.symm.trans isOther)
    exact isFresh

end Warm

/-! ## A cache without changes -/

section Clean

variable {kernel next : Kernel} {dev block bh : Nat}

theorem Holder.found (holder : Holder dev block bh kernel)
    (lists : Lists kernel) (hasDev : dev ≠ 0) :
    findBuffer kernel dev block = some bh := by
  obtain ⟨isBuffer, isDev, isBlock⟩ := holder
  cases found : findBuffer kernel dev block with
  | none =>
      exact (findBuffer_none lists found hasDev isBuffer isDev isBlock).elim
  | some other =>
      obtain ⟨isOther, otherDev, otherBlock⟩ := findBuffer_some lists found
      congr 1
      exact lists.unique other bh isOther isBuffer (otherDev ▸ hasDev)
        (otherDev.trans isDev.symm) (otherBlock.trans isBlock.symm)

/-- The buffer of the first block is held, and blocks that are left are not
asked for. -/
structure Retained (dev first bh : Nat) (left : Nat → Prop) (may : Bool → Prop)
    (kernel : Kernel) : Prop where
  sound : Sound kernel
  small : ∀ other, (kernel.buffers other).count ≤ 255
  served : Served dev first bh kernel
  count : 0 < (kernel.buffers bh).count
  idle : Idle dev left may kernel

section Retained

variable {first : Nat} {left : Nat → Prop} {may : Bool → Prop}

theorem Retained.requestable (retained : Retained dev first bh left may kernel)
    (hasDev : dev ≠ 0) (rw : Rw) : Requestable kernel rw bh where
  isBuffer := retained.served.holder.isBuffer
  hasDev := by
    rw [retained.served.holder.isFor.1]
    exact hasDev
  serves := by
    rw [retained.served.holder.isFor.1, retained.served.holder.isFor.2]
    exact retained.served.serves
  keeps := by
    rw [retained.idle.clean bh retained.served.holder.isBuffer]
    refine .inr ?_
    rintro ⟨⟩

end Retained

end Clean

/-! ## What is read ahead -/

section Breada

variable {past : Prop} {kernel begun final : Kernel} {fuel dev first bh : Nat}
  {aheads : List Nat} {asked more : Nat}

end Breada

section Witness

end Witness

end Linux011.Fs
