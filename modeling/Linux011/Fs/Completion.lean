import Linux011.Fs.CacheContent

/-!
# The end of a request

A driver that completes a write makes the device agree with the buffer, and
one that completes a read the buffer with the device.  Either way every block
keeps its content.
-/

namespace Linux011.Fs

open Coop

/-- What a request leaves in its buffer. -/
def received (kernel : Kernel) (slot dev : Nat) : Block :=
  let request := kernel.requests slot
  let data := (kernel.buffers request.bh).data
  if request.cmd = .write then data
  else fun offset =>
    if offset < 1024 then kernel.disk dev (request.sector * 512 + offset)
    else data offset

/-- What a request leaves on the devices. -/
def written (kernel : Kernel) (slot dev : Nat) : Nat → Nat → UInt8 :=
  let request := kernel.requests slot
  let start := request.sector * 512
  if request.cmd = .write then fun other position =>
    if other = dev ∧ start ≤ position ∧ position < start + 1024 then
      (kernel.buffers request.bh).data (position - start)
    else kernel.disk other position
  else kernel.disk

/-- The state after a successful transfer of the first request of a queue. -/
def served (kernel : Kernel) (major slot dev : Nat) (rest : List Nat) :
    Kernel :=
  { kernel with
    buffers := fun bh =>
      if bh = (kernel.requests slot).bh then
        { kernel.buffers bh with
          data := received kernel slot dev, uptodate := true, lock := false }
      else kernel.buffers bh
    requests := fun other =>
      if other = slot then { kernel.requests slot with dev := none }
      else kernel.requests other
    queue := fun other => if other = major then rest else kernel.queue other
    disk := written kernel slot dev }

theorem complete_eq {kernel : Kernel} {major slot dev : Nat} {rest : List Nat}
    (queued : kernel.queue major = slot :: rest)
    (requested : (kernel.requests slot).dev = some dev) :
    complete major true kernel = served kernel major slot dev rest := by
  have queuedAfter : (transfer slot kernel).queue major = slot :: rest := by
    unfold transfer
    dsimp only
    split <;> exact queued
  unfold complete
  rw [queued]
  dsimp only
  rw [if_pos rfl]
  unfold endRequest
  rw [queuedAfter]
  unfold transfer served received written Kernel.setQueue Kernel.setRequest
    Kernel.setBuffer
  simp only [requested, Option.getD_some]
  by_cases isWrite : (kernel.requests slot).cmd = .write
  · simp only [isWrite, if_true]
    congr 1
    funext bh
    split <;> simp_all
  · simp only [isWrite, if_false]
    congr 1
    funext bh
    split <;> simp_all

section Served

variable {kernel : Kernel} {major slot dev : Nat} {rest : List Nat}

/-- The first request of a queue. -/
theorem Sound.first (sound : Sound kernel)
    (queued : kernel.queue major = slot :: rest) :
    slot < nrRequest ∧ ∃ dev, (kernel.requests slot).dev = some dev ∧
      Requested kernel slot dev := by
  obtain ⟨inRange, dev, isFor, _⟩ :=
    (sound.queues major).2 slot (by simp [queued])
  exact ⟨inRange, dev, isFor, sound.requested slot dev inRange isFor⟩

/-- Another block of a device is at another place on it. -/
theorem stored_written (requested : Requested kernel slot dev)
    {other block offset : Nat}
    (different : ¬ (other = dev ∧
      block = (kernel.buffers (kernel.requests slot).bh).block))
    (inBlock : offset < 1024) :
    written kernel slot dev other (block * 1024 + offset) =
      kernel.stored other block offset := by
  unfold written Kernel.stored
  split
  · dsimp only
    rw [if_neg]
    rintro ⟨sameDev, above, below⟩
    rw [requested.sector] at above below
    apply different
    exact ⟨sameDev, by omega⟩
  · rfl

/-- The block of the request holds on the device what is in the buffer. -/
theorem stored_served (requested : Requested kernel slot dev) {offset : Nat}
    (inBlock : offset < 1024) :
    written kernel slot dev dev
        ((kernel.buffers (kernel.requests slot).bh).block * 1024 + offset) =
      received kernel slot dev offset := by
  unfold written received
  have start : (kernel.requests slot).sector * 512 =
      (kernel.buffers (kernel.requests slot).bh).block * 1024 := by
    rw [requested.sector]
    omega
  rw [start]
  split <;> dsimp only
  · rw [if_pos ⟨rfl, by omega, by omega⟩]
    congr 1
    omega
  · rw [if_pos inBlock]

theorem served_same : SameLists kernel (served kernel major slot dev rest) := by
  refine ⟨?_, ?_, ?_, ?_, rfl, rfl, rfl, ?_, ?_⟩
  · funext bh
    unfold Kernel.nextLink served
    dsimp only
    split <;> rfl
  · funext bh
    unfold Kernel.prevLink served
    dsimp only
    split <;> rfl
  · funext bh
    unfold Kernel.nextFreeLink served
    dsimp only
    split <;> rfl
  · funext bh
    unfold Kernel.prevFreeLink served
    dsimp only
    split <;> rfl
  · intro bh
    unfold served
    dsimp only
    split <;> rfl
  · intro bh
    unfold served
    dsimp only
    split <;> rfl

theorem served_other {bh : Nat} (different : bh ≠ (kernel.requests slot).bh) :
    (served kernel major slot dev rest).buffers bh = kernel.buffers bh :=
  if_neg different

theorem served_own :
    (served kernel major slot dev rest).buffers (kernel.requests slot).bh =
      { kernel.buffers (kernel.requests slot).bh with
        data := received kernel slot dev, uptodate := true, lock := false } :=
  if_pos rfl

/-- Only the finished request is gone. -/
theorem served_pending (sound : Sound kernel) (inRange : slot < nrRequest)
    (busy : (kernel.requests slot).dev ≠ none) {bh : Nat} {cmd : Rw} :
    (served kernel major slot dev rest).Pending bh cmd ↔
      bh ≠ (kernel.requests slot).bh ∧ kernel.Pending bh cmd := by
  have requests (other : Nat) :
      (served kernel major slot dev rest).requests other =
        if other = slot then { kernel.requests slot with dev := none }
        else kernel.requests other := rfl
  constructor
  · rintro ⟨other, otherRange, otherBusy, isFor, isCmd⟩
    rw [requests] at otherBusy isFor isCmd
    by_cases same : other = slot
    · simp [same] at otherBusy
    · rw [if_neg same] at otherBusy isFor isCmd
      refine ⟨?_, other, otherRange, otherBusy, isFor, isCmd⟩
      intro sameBuffer
      exact same (sound.apart other slot otherRange inRange otherBusy busy
        (isFor.trans sameBuffer))
  · rintro ⟨different, other, otherRange, otherBusy, isFor, isCmd⟩
    have notSlot : other ≠ slot := by
      rintro rfl
      exact different isFor.symm
    refine ⟨other, otherRange, ?_⟩
    rw [requests, if_neg notSlot]
    exact ⟨otherBusy, isFor, isCmd⟩

/-- The value of the block whose request is finished. -/
theorem served_value (sound : Sound kernel)
    (inRange : slot < nrRequest) (isFor : (kernel.requests slot).dev = some dev)
    {bh offset : Nat} (isBuffer : bh < kernel.nrBuffers)
    (hasDev : (kernel.buffers bh).dev ≠ 0) (inBlock : offset < 1024) :
    (served kernel major slot dev rest).value bh offset =
      kernel.value bh offset := by
  have requested := sound.requested slot dev inRange isFor
  have busy : (kernel.requests slot).dev ≠ none := by simp [isFor]
  unfold Kernel.value
  by_cases own : bh = (kernel.requests slot).bh
  · subst own
    have isLive : (served kernel major slot dev rest).Live
        (kernel.requests slot).bh := by
      left
      rw [served_own]
    rw [if_pos isLive, served_own]
    rcases requested.command with isWrite | ⟨isRead, notFresh, notDirty⟩
    · have wasLive : kernel.Live (kernel.requests slot).bh :=
        .inr (.inr ⟨slot, inRange, busy, rfl, isWrite⟩)
      rw [if_pos wasLive]
      unfold received
      dsimp only
      rw [if_pos isWrite]
    · have notLive : ¬ kernel.Live (kernel.requests slot).bh := by
        rintro (fresh | dirty | ⟨other, otherRange, otherBusy, same, isWrite⟩)
        · rw [notFresh] at fresh
          cases fresh
        · rw [notDirty] at dirty
          cases dirty
        · rw [sound.apart other slot otherRange inRange otherBusy busy same,
            isRead] at isWrite
          cases isWrite
      have start : (kernel.requests slot).sector * 512 =
          (kernel.buffers (kernel.requests slot).bh).block * 1024 := by
        rw [requested.sector]
        omega
      rw [if_neg notLive, requested.sameDev]
      unfold received Kernel.stored
      dsimp only
      rw [if_neg (by simp [isRead]), if_pos inBlock, start]
  · have sameLive : (served kernel major slot dev rest).Live bh ↔
        kernel.Live bh := by
      unfold Kernel.Live
      rw [served_pending sound inRange busy, served_other own]
      simp [own]
    rw [served_other own]
    by_cases isLive : kernel.Live bh
    · rw [if_pos (sameLive.mpr isLive), if_pos isLive]
    · rw [if_neg (mt sameLive.mp isLive), if_neg isLive]
      apply stored_written requested _ inBlock
      rintro ⟨sameDev, sameBlock⟩
      apply own
      exact sound.lists.unique bh _ isBuffer requested.isBuffer hasDev
        (sameDev.trans requested.sameDev.symm) sameBlock

theorem served_serviced (sound : Sound kernel) (inRange : slot < nrRequest)
    (isFor : (kernel.requests slot).dev = some dev) :
    Serviced kernel (served kernel major slot dev rest) where
  same := served_same
  content := by
    have requested := sound.requested slot dev inRange isFor
    apply Kernel.sameContent_of_values served_same
    · intro bh isBuffer hasDev offset inBlock
      exact served_value sound inRange isFor isBuffer hasDev inBlock
    · intro other block hasDev noHolder offset inBlock
      apply stored_written requested _ inBlock
      rintro ⟨sameDev, sameBlock⟩
      apply Kernel.holder_none noHolder requested.isBuffer
      · exact requested.sameDev.trans sameDev.symm
      · exact sameBlock.symm
  count := by
    intro bh
    unfold served
    dsimp only
    split <;> rfl
  dirt := by
    intro bh isDirty
    by_cases own : bh = (kernel.requests slot).bh
    · rw [own, served_own] at isDirty
      rw [own]
      exact isDirty
    · rwa [served_other own] at isDirty
  uptodate := by
    intro bh isFresh
    by_cases own : bh = (kernel.requests slot).bh
    · rw [own, served_own]
    · rwa [served_other own]
  live := by
    intro bh isLive
    by_cases own : bh = (kernel.requests slot).bh
    · left
      rw [own, served_own]
    · have busy : (kernel.requests slot).dev ≠ none := by simp [isFor]
      unfold Kernel.Live at isLive ⊢
      rw [served_pending sound inRange busy, served_other own]
      simpa [own] using isLive
  driver := rfl
  inodes := rfl
  lastInode := rfl
  supers := rfl
  now := rfl

theorem served_sound (sound : Sound kernel)
    (queued : kernel.queue major = slot :: rest) (inRange : slot < nrRequest)
    (isFor : (kernel.requests slot).dev = some dev) :
    Sound (served kernel major slot dev rest) := by
  have requested := sound.requested slot dev inRange isFor
  have busy : (kernel.requests slot).dev ≠ none := by simp [isFor]
  have requests (other : Nat) :
      (served kernel major slot dev rest).requests other =
        if other = slot then { kernel.requests slot with dev := none }
        else kernel.requests other := rfl
  have queue (other : Nat) : (served kernel major slot dev rest).queue other =
      if other = major then rest else kernel.queue other := rfl
  have stillFor {other : Nat} {otherDev : Nat}
      (isOther : ((served kernel major slot dev rest).requests other).dev =
        some otherDev) :
      other ≠ slot ∧ (kernel.requests other).dev = some otherDev := by
    rw [requests] at isOther
    split at isOther <;> rename_i here
    · cases isOther
    · exact ⟨here, isOther⟩
  refine ⟨sound.lists.congr served_same, sound.noDevice, ?_, ?_, ?_, ?_, ?_⟩
  · intro other otherDev otherRange isOther
    obtain ⟨notSlot, wasOther⟩ := stillFor isOther
    have otherBusy : (kernel.requests other).dev ≠ none := by simp [wasOther]
    have notOwn : (kernel.requests other).bh ≠ (kernel.requests slot).bh :=
      fun same => notSlot
        (sound.apart other slot otherRange inRange otherBusy busy same)
    apply (sound.requested other otherDev otherRange wasOther).congr
    · rw [requests, if_neg notSlot]
    · rfl
    · rfl
    · exact served_other notOwn
  · intro first second firstRange secondRange firstBusy secondBusy same
    obtain ⟨firstDev, isFirst⟩ := Option.ne_none_iff_exists'.mp firstBusy
    obtain ⟨secondDev, isSecond⟩ := Option.ne_none_iff_exists'.mp secondBusy
    obtain ⟨firstNot, firstWas⟩ := stillFor isFirst
    obtain ⟨secondNot, secondWas⟩ := stillFor isSecond
    rw [requests, requests, if_neg firstNot, if_neg secondNot] at same
    exact sound.apart first second firstRange secondRange (by simp [firstWas])
      (by simp [secondWas]) same
  · intro other
    obtain ⟨nodup, inUse⟩ := sound.queues other
    rw [queue]
    split <;> rename_i here
    · subst here
      rw [queued] at nodup inUse
      obtain ⟨notIn, nodupRest⟩ := List.nodup_cons.mp nodup
      refine ⟨nodupRest, ?_⟩
      intro follower isIn
      have notSlot : follower ≠ slot := by
        rintro rfl
        exact notIn isIn
      rw [requests, if_neg notSlot]
      exact inUse follower (List.mem_cons_of_mem _ isIn)
    · refine ⟨nodup, ?_⟩
      intro member isIn
      obtain ⟨memberRange, memberDev, memberFor, memberMajor⟩ :=
        inUse member isIn
      have notSlot : member ≠ slot := by
        rintro rfl
        obtain ⟨_, ownDev, ownFor, ownMajor⟩ :=
          (sound.queues major).2 member (by simp [queued])
        rw [memberFor, Option.some.injEq] at ownFor
        rw [← ownFor, memberMajor] at ownMajor
        exact here ownMajor
      rw [requests, if_neg notSlot]
      exact ⟨memberRange, memberDev, memberFor, memberMajor⟩
  · intro bh isBuffer hasDev isFresh isClean notPending offset inBlock
    by_cases own : bh = (kernel.requests slot).bh
    · subst own
      rw [served_own]
      show received kernel slot dev offset = written kernel slot dev
        (kernel.buffers (kernel.requests slot).bh).dev
        ((kernel.buffers (kernel.requests slot).bh).block * 1024 + offset)
      rw [requested.sameDev, stored_served requested inBlock]
    · rw [served_other own] at hasDev isFresh isClean ⊢
      rw [served_pending sound inRange busy] at notPending
      have wasNot : ¬ kernel.Pending bh .write := fun was => notPending ⟨own, was⟩
      rw [sound.clean bh isBuffer hasDev isFresh isClean wasNot offset inBlock]
      refine (stored_written requested ?_ inBlock).symm
      rintro ⟨sameDev, sameBlock⟩
      apply own
      exact sound.lists.unique bh _ isBuffer requested.isBuffer hasDev
        (sameDev.trans requested.sameDev.symm) sameBlock
  · intro bh isBuffer isDirty
    by_cases own : bh = (kernel.requests slot).bh
    · subst own
      rw [served_own] at isDirty ⊢
      exact sound.servable _ isBuffer isDirty
    · rw [served_other own] at isDirty ⊢
      exact sound.servable bh isBuffer isDirty

end Served

/-! ## The drivers at work -/

/-- One completion: the queue is empty, or its first request is served. -/
theorem complete_cases {kernel : Kernel} (sound : Sound kernel) (major : Nat) :
    complete major true kernel = kernel ∨
      ∃ slot dev rest, kernel.queue major = slot :: rest ∧
        slot < nrRequest ∧ (kernel.requests slot).dev = some dev ∧
        complete major true kernel = served kernel major slot dev rest := by
  cases queued : kernel.queue major with
  | nil =>
      left
      unfold complete
      rw [queued]
  | cons slot rest =>
      right
      obtain ⟨inRange, dev, isFor, _⟩ := sound.first queued
      exact ⟨slot, dev, rest, rfl, inRange, isFor, complete_eq queued isFor⟩

theorem complete_spec {kernel : Kernel} (sound : Sound kernel) (major : Nat) :
    Sound (complete major true kernel) ∧
      Serviced kernel (complete major true kernel) := by
  obtain idle | ⟨slot, dev, rest, queued, inRange, isFor, completes⟩ :=
    complete_cases sound major
  · rw [idle]
    exact ⟨sound, Serviced.refl kernel⟩
  · rw [completes]
    exact ⟨served_sound sound queued inRange isFor,
      served_serviced sound inRange isFor⟩

/-- Completions of any number of requests, of any devices. -/
def Io (kernel next : Kernel) : Prop :=
  Relation.ReflTransGen
    (fun before after => ∃ major, after = complete major true before)
    kernel next

namespace Io

theorem refl (kernel : Kernel) : Io kernel kernel := Relation.ReflTransGen.refl

theorem complete (kernel : Kernel) (major : Nat) :
    Io kernel (Fs.complete major true kernel) :=
  Relation.ReflTransGen.single ⟨major, rfl⟩

/-- Induction over completions, from a sound state. -/
theorem rec_sound {kernel next : Kernel} (io : Io kernel next)
    (sound : Sound kernel) {motive : Kernel → Prop} (start : motive kernel)
    (step : ∀ before major, Sound before → motive before →
      motive (Fs.complete major true before)) :
    Sound next ∧ motive next := by
  induction io with
  | refl => exact ⟨sound, start⟩
  | tail _ completes induction =>
      obtain ⟨major, rfl⟩ := completes
      exact ⟨(complete_spec induction.1 major).1,
        step _ major induction.1 induction.2⟩

theorem spec {kernel next : Kernel} (io : Io kernel next)
    (sound : Sound kernel) : Sound next ∧ Serviced kernel next := by
  apply io.rec_sound sound (Serviced.refl kernel)
  intro before major soundBefore serviced
  exact serviced.trans (complete_spec soundBefore major).2

/-- A buffer without a request is left alone. -/
theorem untouched {kernel next : Kernel} (io : Io kernel next)
    (sound : Sound kernel) {bh : Nat} (untouched : kernel.Untouched bh) :
    next.Untouched bh ∧ next.buffers bh = kernel.buffers bh := by
  apply (io.rec_sound sound ⟨untouched, rfl⟩ _).2
  rintro before major soundBefore ⟨stillUntouched, same⟩
  obtain idle | ⟨slot, dev, rest, _, inRange, isFor, completes⟩ :=
    complete_cases soundBefore major
  · rw [idle]
    exact ⟨stillUntouched, same⟩
  · have busy : (before.requests slot).dev ≠ none := by simp [isFor]
    have different := stillUntouched slot inRange busy
    rw [completes, served_other (Ne.symm different)]
    refine ⟨?_, same⟩
    intro other otherRange otherBusy isOther
    obtain ⟨_, otherPending⟩ := (served_pending soundBefore inRange busy).mp
      ⟨other, otherRange, otherBusy, isOther, rfl⟩
    obtain ⟨third, thirdRange, thirdBusy, isThird, _⟩ := otherPending
    exact stillUntouched third thirdRange thirdBusy isThird

/-- A read that is under way goes on or has been served. -/
theorem reading {kernel next : Kernel} (io : Io kernel next)
    (sound : Sound kernel) {bh : Nat} (reading : kernel.Pending bh .read) :
    next.Pending bh .read ∨ (next.buffers bh).uptodate = true := by
  apply (io.rec_sound sound (.inl reading) _).2
  intro before major soundBefore stillReading
  obtain idle | ⟨slot, dev, rest, _, inRange, isFor, completes⟩ :=
    complete_cases soundBefore major
  · rw [idle]
    exact stillReading
  · have busy : (before.requests slot).dev ≠ none := by simp [isFor]
    have serviced := (complete_spec soundBefore major).2
    rw [completes] at serviced ⊢
    rcases stillReading with pending | isFresh
    · by_cases own : bh = (before.requests slot).bh
      · right
        rw [own, served_own]
      · left
        exact (served_pending soundBefore inRange busy).mpr ⟨own, pending⟩
    · exact .inr (serviced.uptodate bh isFresh)

end Io

/-- A locked buffer is the one whose request is under way. -/
theorem Sound.untouched {kernel : Kernel} (sound : Sound kernel) {bh : Nat}
    (unlocked : (kernel.buffers bh).lock = false) : kernel.Untouched bh := by
  intro slot inRange busy same
  obtain ⟨dev, isFor⟩ := Option.ne_none_iff_exists'.mp busy
  have locked := (sound.requested slot dev inRange isFor).locked
  rw [same, unlocked] at locked
  cases locked

end Linux011.Fs
