import Linux011.Fs.Completion

/-!
# Making requests

`ll_rw_block` under drivers whose transfers succeed: whatever it waits for, it
changes no content, and the request it makes is for the buffer's block.
-/

namespace Linux011.Fs

open Coop Prog

theorem elevator_perm (requests : Nat → Request) (slot tmp : Nat)
    (rest : List Nat) :
    (elevator requests slot tmp rest).Perm (slot :: rest) := by
  induction rest generalizing tmp with
  | nil => exact List.Perm.refl _
  | cons following rest induction =>
      unfold elevator
      split
      · exact List.Perm.refl _
      · exact ((induction following).cons following).trans
          (List.Perm.swap slot following rest)

/-- The state with a request in a queue, before a driver acts on it. -/
def lined (kernel : Kernel) (major bh : Nat) (line : List Nat) : Kernel :=
  (kernel.setBuffer bh { kernel.buffers bh with dirt := false }).setQueue major
    line

/-- Where the request goes, and whether the driver acts on it. -/
theorem addRequest_cases (kernel : Kernel) (major slot : Nat) :
    ∃ line, line.Perm (slot :: kernel.queue major) ∧
      (addRequest major slot kernel =
          lined kernel major (kernel.requests slot).bh line ∨
        addRequest major slot kernel =
          requestFn major slot
            (lined kernel major (kernel.requests slot).bh line)) := by
  have sameQueue : (kernel.setBuffer (kernel.requests slot).bh
      { kernel.buffers (kernel.requests slot).bh with dirt := false }).queue
        major = kernel.queue major := rfl
  unfold addRequest lined
  dsimp only
  rw [sameQueue]
  cases kernel.queue major with
  | nil => exact ⟨[slot], List.Perm.refl _, .inr rfl⟩
  | cons tmp rest =>
      refine ⟨_, ?_, .inl rfl⟩
      exact ((elevator_perm _ slot tmp rest).cons tmp).trans
        (List.Perm.swap slot tmp rest)

def filed (kernel : Kernel) (major slot bh : Nat) (rw : Rw)
    (line : List Nat) : Kernel :=
  lined (kernel.setRequest slot (requestOf kernel bh rw)) major bh line

theorem fileRequest_cases (kernel : Kernel) (major slot bh : Nat) (rw : Rw) :
    ∃ line, line.Perm (slot :: kernel.queue major) ∧
      (fileRequest major slot bh rw kernel =
          .done () (filed kernel major slot bh rw line) ∨
        fileRequest major slot bh rw kernel =
          .done () (requestFn major slot
            (filed kernel major slot bh rw line))) := by
  have slotFor : (kernel.setRequest slot (requestOf kernel bh rw)).requests slot =
      requestOf kernel bh rw := if_pos rfl
  obtain ⟨line, perm, adds⟩ := addRequest_cases
    (kernel.setRequest slot (requestOf kernel bh rw)) major slot
  rw [slotFor] at adds
  refine ⟨line, perm, ?_⟩
  rcases adds with adds | adds
  · exact .inl (congrArg (Run.done ()) adds)
  · exact .inr (congrArg (Run.done ()) adds)

section Filed

variable {kernel : Kernel} {slot bh : Nat} {rw : Rw} {line : List Nat}

/-- What holds when a request is filled in. -/
structure Fileable (kernel : Kernel) (slot bh : Nat) (rw : Rw) : Prop where
  isBuffer : bh < kernel.nrBuffers
  hasDev : (kernel.buffers bh).dev ≠ 0
  serves : Serves kernel (kernel.buffers bh).dev (kernel.buffers bh).block
  locked : (kernel.buffers bh).lock = true
  untouched : kernel.Untouched bh
  inRange : slot < nrRequest
  free : (kernel.requests slot).dev = none
  command : rw = .write ∧ (kernel.buffers bh).dirt = true ∨
    rw = .read ∧ (kernel.buffers bh).uptodate = false ∧
      (kernel.buffers bh).dirt = false

variable {major : Nat}

theorem filed_buffers (other : Nat) :
    (filed kernel major slot bh rw line).buffers other =
      if other = bh then { kernel.buffers bh with dirt := false }
      else kernel.buffers other := rfl

theorem filed_requests (other : Nat) :
    (filed kernel major slot bh rw line).requests other =
      if other = slot then requestOf kernel bh rw
      else kernel.requests other := rfl

theorem filed_same :
    SameLists kernel (filed kernel major slot bh rw line) := by
  have moved : SameLists kernel
      (kernel.setBuffer bh { kernel.buffers bh with dirt := false }) :=
    sameLists_setBuffer rfl rfl rfl rfl rfl rfl
  exact moved.trans (SameLists.elsewhere rfl rfl rfl rfl)

theorem filed_pending (fileable : Fileable kernel slot bh rw) {other : Nat}
    {cmd : Rw} :
    (filed kernel major slot bh rw line).Pending other cmd ↔
      other = bh ∧ cmd = rw ∨ kernel.Pending other cmd := by
  constructor
  · rintro ⟨third, thirdRange, thirdBusy, isFor, isCmd⟩
    rw [filed_requests] at thirdBusy isFor isCmd
    by_cases same : third = slot
    · rw [if_pos same] at isFor isCmd
      exact .inl ⟨isFor.symm, isCmd.symm⟩
    · rw [if_neg same] at thirdBusy isFor isCmd
      exact .inr ⟨third, thirdRange, thirdBusy, isFor, isCmd⟩
  · rintro (⟨rfl, rfl⟩ | ⟨third, thirdRange, thirdBusy, isFor, isCmd⟩)
    · refine ⟨slot, fileable.inRange, ?_⟩
      rw [filed_requests, if_pos rfl]
      exact ⟨Option.some_ne_none _, rfl, rfl⟩
    · have different : third ≠ slot := by
        rintro rfl
        exact thirdBusy fileable.free
      refine ⟨third, thirdRange, ?_⟩
      rw [filed_requests, if_neg different]
      exact ⟨thirdBusy, isFor, isCmd⟩

theorem filed_live (fileable : Fileable kernel slot bh rw) {other : Nat} :
    (filed kernel major slot bh rw line).Live other ↔ kernel.Live other := by
  unfold Kernel.Live
  rw [filed_pending fileable, filed_buffers]
  by_cases own : other = bh
  · subst own
    rw [if_pos rfl]
    rcases fileable.command with ⟨rfl, isDirty⟩ | ⟨rfl, notFresh, notDirty⟩
    · simp [isDirty]
    · simp [notFresh, notDirty]
  · rw [if_neg own]
    simp [own]

theorem filed_serviced (fileable : Fileable kernel slot bh rw) :
    Serviced kernel (filed kernel major slot bh rw line) where
  same := filed_same
  content := by
    apply Kernel.sameContent_of_values filed_same
    · intro other _ _ offset _
      unfold Kernel.value
      simp only [filed_live fileable, filed_buffers]
      by_cases own : other = bh
      · subst own
        rw [if_pos rfl]
        rfl
      · rw [if_neg own]
        rfl
    · intro dev block _ _ offset _
      rfl
  count := by
    intro other
    rw [filed_buffers]
    split <;> simp_all
  dirt := by
    intro other isDirty
    rw [filed_buffers] at isDirty
    split at isDirty
    · cases isDirty
    · exact isDirty
  uptodate := by
    intro other isFresh
    rw [filed_buffers]
    split <;> simp_all
  live := fun other isLive => (filed_live fileable).mpr isLive
  driver := rfl
  inodes := rfl
  lastInode := rfl
  supers := rfl
  now := rfl

theorem filed_sound (sound : Sound kernel)
    (fileable : Fileable kernel slot bh rw)
    (isMajor : Fs.major (kernel.buffers bh).dev = major)
    (perm : line.Perm (slot :: kernel.queue major)) :
    Sound (filed kernel major slot bh rw line) := by
  have queue (other : Nat) : (filed kernel major slot bh rw line).queue other =
      if other = major then line else kernel.queue other := rfl
  have notQueued (other : Nat) : slot ∉ kernel.queue other := by
    intro isIn
    obtain ⟨_, dev, isFor, _⟩ := (sound.queues other).2 slot isIn
    rw [fileable.free] at isFor
    cases isFor
  have notOwn {other : Nat} (inRange : other < nrRequest)
      (busy : (kernel.requests other).dev ≠ none) :
      (kernel.requests other).bh ≠ bh ∧ other ≠ slot := by
    refine ⟨fileable.untouched other inRange busy, ?_⟩
    rintro rfl
    exact busy fileable.free
  refine ⟨sound.lists.congr filed_same, sound.noDevice, ?_, ?_, ?_, ?_, ?_⟩
  · intro other dev inRange isFor
    rw [filed_requests] at isFor
    by_cases same : other = slot
    · subst same
      rw [if_pos rfl] at isFor
      have sameDev : (kernel.buffers bh).dev = dev := Option.some.inj isFor
      have request := @filed_requests kernel other bh rw line major other
      rw [if_pos rfl] at request
      have buffer := @filed_buffers kernel other bh rw line major bh
      rw [if_pos rfl] at buffer
      refine ⟨?_, sameDev ▸ fileable.hasDev, ?_, ?_, ?_, ?_, ?_⟩ <;>
        rw [request]
      · exact fileable.isBuffer
      · show ((filed kernel major other bh rw line).buffers bh).dev = dev
        rw [buffer]
        exact sameDev
      · show (kernel.buffers bh).block * 2 % 2 ^ 32 =
          ((filed kernel major other bh rw line).buffers bh).block * 2
        rw [buffer]
        apply Nat.mod_eq_of_lt
        have small := fileable.serves.1
        omega
      · show Serves _ dev ((filed kernel major other bh rw line).buffers bh).block
        rw [buffer, ← sameDev]
        exact fileable.serves.congr rfl
      · show ((filed kernel major other bh rw line).buffers bh).lock = true
        rw [buffer]
        exact fileable.locked
      · show rw = .write ∨ rw = .read ∧
          ((filed kernel major other bh rw line).buffers bh).uptodate = false ∧
          ((filed kernel major other bh rw line).buffers bh).dirt = false
        rw [buffer]
        rcases fileable.command with ⟨isWrite, _⟩ | ⟨isRead, notFresh, _⟩
        · exact .inl isWrite
        · exact .inr ⟨isRead, notFresh, rfl⟩
    · rw [if_neg same] at isFor
      have busy : (kernel.requests other).dev ≠ none := by simp [isFor]
      apply (sound.requested other dev inRange isFor).congr
      · rw [filed_requests, if_neg same]
      · rfl
      · rfl
      · rw [filed_buffers, if_neg (notOwn inRange busy).1]
  · intro first second firstRange secondRange firstBusy secondBusy same
    rw [filed_requests] at firstBusy secondBusy
    rw [filed_requests, filed_requests] at same
    by_cases firstSlot : first = slot <;> by_cases secondSlot : second = slot
    · exact firstSlot.trans secondSlot.symm
    · rw [if_neg secondSlot] at secondBusy
      rw [if_pos firstSlot, if_neg secondSlot] at same
      exact ((notOwn secondRange secondBusy).1 same.symm).elim
    · rw [if_neg firstSlot] at firstBusy
      rw [if_neg firstSlot, if_pos secondSlot] at same
      exact ((notOwn firstRange firstBusy).1 same).elim
    · rw [if_neg firstSlot] at firstBusy same
      rw [if_neg secondSlot] at secondBusy same
      exact sound.apart first second firstRange secondRange firstBusy
        secondBusy same
  · intro other
    obtain ⟨nodup, inUse⟩ := sound.queues other
    have stillFor {member : Nat} (isIn : member ∈ kernel.queue other) :
        member < nrRequest ∧ ∃ dev,
          ((filed kernel major slot bh rw line).requests member).dev =
            some dev ∧ Fs.major dev = other := by
      have different : member ≠ slot := by
        rintro rfl
        exact notQueued other isIn
      rw [filed_requests, if_neg different]
      exact inUse member isIn
    rw [queue]
    split <;> rename_i here
    · subst here
      constructor
      · rw [perm.nodup_iff, List.nodup_cons]
        exact ⟨notQueued other, nodup⟩
      · intro member isIn
        rw [perm.mem_iff, List.mem_cons] at isIn
        rcases isIn with rfl | isIn
        · refine ⟨fileable.inRange, (kernel.buffers bh).dev, ?_, isMajor⟩
          rw [filed_requests, if_pos rfl]
          rfl
        · exact stillFor isIn
    · exact ⟨nodup, fun member isIn => stillFor isIn⟩
  · intro other isBuffer hasDev isFresh isClean notPending offset inBlock
    rw [filed_pending fileable] at notPending
    by_cases own : other = bh
    · subst own
      rw [filed_buffers, if_pos rfl] at isFresh
      rcases fileable.command with ⟨isWrite, _⟩ | ⟨_, notFresh, _⟩
      · exact (notPending (.inl ⟨rfl, isWrite.symm⟩)).elim
      · rw [notFresh] at isFresh
        cases isFresh
    · rw [filed_buffers, if_neg own] at hasDev isFresh isClean ⊢
      exact sound.clean other isBuffer hasDev isFresh isClean
        (fun pending => notPending (.inr pending)) offset inBlock
  · intro other isBuffer isDirty
    rw [filed_buffers] at isDirty ⊢
    by_cases own : other = bh
    · rw [if_pos own] at isDirty
      cases isDirty
    · rw [if_neg own] at isDirty ⊢
      exact sound.servable other isBuffer isDirty

end Filed

/-- A driver that serves a request at once. -/
theorem requestFn_serves {kernel : Kernel} {slot dev block : Nat}
    (isFor : (kernel.requests slot).dev = some dev)
    (sector : (kernel.requests slot).sector = block * 2)
    (serves : Serves kernel dev block) :
    requestFn (major dev) slot kernel = kernel ∨
      requestFn (major dev) slot kernel = complete (major dev) true kernel := by
  obtain ⟨_, _, served⟩ := serves
  unfold requestFn
  cases driver : kernel.driver (major dev) with
  | absent => exact .inl rfl
  | interrupt => exact .inl rfl
  | ram length =>
      rw [driver] at served
      obtain ⟨isRam, fits⟩ := served
      right
      dsimp only
      rw [isFor, Option.getD_some, sector, isRam]
      have inside : block * 2 * 512 + 1024 ≤ length := by
        rw [Nat.mul_assoc]
        exact fits
      rw [decide_eq_true inside]
      rfl

theorem requestFn_spec {kernel : Kernel} (sound : Sound kernel)
    {slot dev : Nat} (inRange : slot < nrRequest)
    (isFor : (kernel.requests slot).dev = some dev) :
    requestFn (major dev) slot kernel = kernel ∨
      requestFn (major dev) slot kernel = complete (major dev) true kernel := by
  have requested := sound.requested slot dev inRange isFor
  exact requestFn_serves isFor requested.sector requested.serves

/-- What a request that has been filed is about to do. -/
def Issued (rw : Rw) (bh : Nat) (next : Kernel) : Prop :=
  (rw = .read → next.Pending bh .read ∨ (next.buffers bh).uptodate = true) ∧
    (rw = .write → (next.buffers bh).dirt = false)

section Requests

variable {fate : Fate} {kernel : Kernel} {bh : Nat}

theorem fileRequest_wp (sound : Sound kernel) {slot : Nat} {rw : Rw}
    (fileable : Fileable kernel slot bh rw) :
    (fileRequest (major (kernel.buffers bh).dev) slot bh rw).wp fate Io
      (fun _ next => Sound next ∧ Serviced kernel next ∧ Issued rw bh next)
      kernel := by
  obtain ⟨line, perm, cases⟩ := fileRequest_cases kernel
    (major (kernel.buffers bh).dev) slot bh rw
  have nextSound := filed_sound sound fileable rfl perm
  have serviced := @filed_serviced kernel slot bh rw line
    (major (kernel.buffers bh).dev) fileable
  have issued : Issued rw bh
      (filed kernel (major (kernel.buffers bh).dev) slot bh rw line) := by
    constructor
    · intro isRead
      left
      exact (filed_pending fileable).mpr (.inl ⟨rfl, isRead.symm⟩)
    · intro _
      rw [filed_buffers, if_pos rfl]
  have isFor : ((filed kernel (major (kernel.buffers bh).dev) slot bh rw
      line).requests slot).dev = some (kernel.buffers bh).dev := by
    rw [filed_requests, if_pos rfl]
    rfl
  unfold Prog.wp
  rcases cases with runs | runs <;> rw [runs]
  · exact ⟨nextSound, serviced, issued⟩
  · rcases requestFn_spec nextSound fileable.inRange isFor with idle | serves
    · rw [idle]
      exact ⟨nextSound, serviced, issued⟩
    · rw [serves]
      obtain ⟨servedSound, servedServiced⟩ :=
        complete_spec nextSound (major (kernel.buffers bh).dev)
      refine ⟨servedSound, serviced.trans servedServiced, ?_, ?_⟩
      · intro isRead
        have io := Io.complete
          (filed kernel (major (kernel.buffers bh).dev) slot bh rw line)
          (major (kernel.buffers bh).dev)
        rcases issued.1 isRead with pending | isFresh
        · exact io.reading nextSound pending
        · exact .inr (servedServiced.uptodate bh isFresh)
      · intro isWrite
        by_contra isDirty
        rw [Bool.not_eq_false] at isDirty
        have wasDirty := servedServiced.dirt bh isDirty
        rw [issued.2 isWrite] at wasDirty
        cases wasDirty

theorem wp_wait (sound : Sound kernel) {ready : Kernel → Bool}
    {post : Unit → Kernel → Prop}
    (wakes : ∀ next, Io kernel next → Sound next → Serviced kernel next →
      ready next = true → post () next) :
    (Prog.waitUntil ready).wp fate Io post kernel := by
  apply wp_waitUntil Io.refl
  intro next io isReady
  obtain ⟨nextSound, serviced⟩ := io.spec sound
  exact wakes next io nextSound serviced isReady

/-- Locking and unlocking a buffer that no request names. -/
theorem setLock_spec (sound : Sound kernel) (untouched : kernel.Untouched bh)
    (lock : Bool) :
    Sound (kernel.setBuffer bh { kernel.buffers bh with lock }) ∧
      Serviced kernel (kernel.setBuffer bh { kernel.buffers bh with lock }) := by
  have same : SameLists kernel
      (kernel.setBuffer bh { kernel.buffers bh with lock }) :=
    sameLists_setBuffer rfl rfl rfl rfl rfl rfl
  have content : Kernel.SameContent kernel
      (kernel.setBuffer bh { kernel.buffers bh with lock }) :=
    Kernel.sameContent_setBuffer same rfl rfl rfl
  constructor
  · apply sound.setBuffer same
    · intro slot dev inRange isFor isOwn
      have busy : (kernel.requests slot).dev ≠ none := by simp [isFor]
      exact (untouched slot inRange busy isOwn).elim
    · exact sound.clean bh
    · exact sound.servable bh
  · refine ⟨same, content, ?_, ?_, ?_, ?_, rfl, rfl, rfl, rfl, rfl⟩
    · intro other
      rw [Kernel.setBuffer_buffers]
      split <;> simp_all
    · intro other
      rw [Kernel.setBuffer_buffers]
      split <;> simp_all
    · intro other
      rw [Kernel.setBuffer_buffers]
      split <;> simp_all
    · intro other isLive
      refine (Kernel.live_setBuffer ?_ ?_).mpr isLive <;> rfl

theorem findRequest_some {requests : Nat → Request} {limit slot : Nat}
    (found : findRequest requests limit = some slot) :
    slot < limit ∧ (requests slot).dev = none := by
  induction limit with
  | zero => cases found
  | succ limit induction =>
      unfold findRequest at found
      split at found <;> rename_i free
      · rw [Option.some.injEq] at found
        rw [← found]
        exact ⟨Nat.lt_succ_self limit, free⟩
      · obtain ⟨inRange, isFree⟩ := induction found
        exact ⟨Nat.lt_succ_of_lt inRange, isFree⟩

theorem requestLimit_le (rw : Rw) : requestLimit rw ≤ nrRequest := by
  unfold requestLimit
  split
  · exact Nat.le_refl _
  · decide

/-- What a buffer must be like for a request to be right. -/
structure Requestable (kernel : Kernel) (rw : Rw) (bh : Nat) : Prop where
  isBuffer : bh < kernel.nrBuffers
  hasDev : (kernel.buffers bh).dev ≠ 0
  serves : Serves kernel (kernel.buffers bh).dev (kernel.buffers bh).block
  -- reading into a changed buffer would lose the change
  keeps : rw = .write ∨ ((kernel.buffers bh).dirt = true →
    (kernel.buffers bh).uptodate = true)

theorem Requestable.later {rw : Rw} {next : Kernel}
    (requestable : Requestable kernel rw bh) (serviced : Serviced kernel next) :
    Requestable next rw bh where
  isBuffer := by
    rw [serviced.same.nrBuffers]
    exact requestable.isBuffer
  hasDev := by
    rw [serviced.same.dev]
    exact requestable.hasDev
  serves := by
    rw [serviced.same.dev, serviced.same.block]
    exact requestable.serves.congr serviced.driver
  keeps := by
    rcases requestable.keeps with isWrite | keeps
    · exact .inl isWrite
    · exact .inr fun isDirty =>
        serviced.uptodate bh (keeps (serviced.dirt bh isDirty))

theorem submit_wp (sound : Sound kernel) {ahead : Bool} {rw : Rw}
    (requestable : Requestable kernel rw bh) (plain : rw = .read ∨ rw = .write)
    (locked : (kernel.buffers bh).lock = true)
    (untouched : kernel.Untouched bh) :
    (submit (major (kernel.buffers bh).dev) ahead rw bh).wp fate Io
      (fun _ next => Sound next ∧ Serviced kernel next ∧
        (ahead = false → Issued rw bh next)) kernel := by
  obtain ⟨unlockSound, unlockServiced⟩ := @setLock_spec kernel bh sound
    untouched false
  unfold submit
  rw [wp_bind, wp_get]
  split <;> rename_i done
  · refine ⟨unlockSound, unlockServiced, fun _ => ⟨?_, ?_⟩⟩
    · rintro rfl
      obtain ⟨isWrite, _⟩ | ⟨_, isFresh⟩ := done
      · cases isWrite
      · exact .inr (unlockServiced.uptodate bh isFresh)
    · rintro rfl
      obtain ⟨_, isClean⟩ | ⟨isRead, _⟩ := done
      · rw [Kernel.setBuffer_same]
        exact isClean
      · cases isRead
  · -- the command still has something to do, however long the wait for a slot
    have command : rw = .write ∧ (kernel.buffers bh).dirt = true ∨
        rw = .read ∧ (kernel.buffers bh).uptodate = false ∧
          (kernel.buffers bh).dirt = false := by
      rcases plain with rfl | rfl
      · right
        have notFresh : (kernel.buffers bh).uptodate = false := by
          simpa using done
        refine ⟨rfl, notFresh, ?_⟩
        rcases requestable.keeps with isWrite | keeps
        · cases isWrite
        · by_contra isDirty
          rw [keeps (by simpa using isDirty)] at notFresh
          cases notFresh
      · left
        exact ⟨rfl, by simpa using done⟩
    have files {next : Kernel} {slot : Nat} (nextSound : Sound next)
        (serviced : Serviced kernel next) (nextUntouched : next.Untouched bh)
        (sameBuffer : next.buffers bh = kernel.buffers bh)
        (found : findRequest next.requests (requestLimit rw) = some slot) :
        (fileRequest (major (kernel.buffers bh).dev) slot bh rw).wp fate Io
          (fun _ final => Sound final ∧ Serviced kernel final ∧
            (ahead = false → Issued rw bh final)) next := by
      obtain ⟨inLimit, isFree⟩ := findRequest_some found
      have later := requestable.later serviced
      have fileable : Fileable next slot bh rw :=
        { isBuffer := later.isBuffer
          hasDev := later.hasDev
          serves := later.serves
          locked := sameBuffer ▸ locked
          untouched := nextUntouched
          inRange := Nat.lt_of_lt_of_le inLimit (requestLimit_le rw)
          free := isFree
          command := sameBuffer ▸ command }
      have filing := @fileRequest_wp fate _ _ nextSound _ _ fileable
      rw [sameBuffer] at filing
      apply wp_mono filing
      rintro _ final ⟨finalSound, finalServiced, issued⟩
      exact ⟨finalSound, serviced.trans finalServiced, fun _ => issued⟩
    split <;> rename_i found
    · exact files sound (Serviced.refl kernel) untouched rfl found
    · split <;> rename_i isAhead
      · exact ⟨unlockSound, unlockServiced, fun not => by simp [isAhead] at not⟩
      · rw [wp_bind]
        apply wp_wait sound
        intro next io nextSound serviced isReady
        obtain ⟨nextUntouched, sameBuffer⟩ := io.untouched sound untouched
        rw [wp_bind, wp_get]
        cases search : findRequest next.requests (requestLimit rw) with
        | none =>
            rw [search] at isReady
            cases isReady
        | some slot =>
            exact files nextSound serviced nextUntouched sameBuffer search

theorem makeRequest_wp (sound : Sound kernel) {rw : Rw}
    (requestable : Requestable kernel rw bh) (plain : rw ≠ .writea) :
    (makeRequest (major (kernel.buffers bh).dev) rw bh).wp fate Io
      (fun _ next => Sound next ∧ Serviced kernel next ∧ Issued rw bh next)
      kernel := by
  unfold makeRequest
  rw [wp_bind, wp_get]
  split <;> rename_i skips
  · refine ⟨sound, Serviced.refl kernel, ?_, ?_⟩
    · rintro rfl
      simp at skips
    · rintro rfl
      simp at skips
  · unfold lockBuffer
    rw [wp_bind, wp_bind]
    apply wp_wait sound
    intro next io nextSound serviced isReady
    have unlocked : (next.buffers bh).lock = false := by simpa using isReady
    have untouched := nextSound.untouched unlocked
    obtain ⟨lockSound, lockServiced⟩ := @setLock_spec next bh nextSound
      untouched true
    have total := serviced.trans lockServiced
    have later : Requestable (next.setBuffer bh
        { next.buffers bh with lock := true }) rw.plain bh := by
      have now := requestable.later total
      refine ⟨now.isBuffer, now.hasDev, now.serves, ?_⟩
      rcases now.keeps with rfl | keeps
      · exact .inl rfl
      · exact .inr keeps
    have isPlain : rw.plain = .read ∨ rw.plain = .write := by
      cases rw with
      | read => exact .inl rfl
      | write => exact .inr rfl
      | reada => exact .inl rfl
      | writea => exact (plain rfl).elim
    have submits := @submit_wp fate _ _ lockSound
      (rw == .reada || rw == .writea) _ later isPlain
      (by rw [Kernel.setBuffer_same]) untouched
    rw [total.same.dev] at submits
    apply wp_mono submits
    rintro _ final ⟨finalSound, finalServiced, issued⟩
    refine ⟨finalSound, total.trans finalServiced, ?_, ?_⟩
    · rintro rfl
      exact (issued rfl).1 rfl
    · rintro rfl
      exact (issued rfl).2 rfl

theorem llRwBlock_wp (sound : Sound kernel) {rw : Rw}
    (requestable : Requestable kernel rw bh) (plain : rw ≠ .writea) :
    (llRwBlock rw bh).wp fate Io
      (fun _ next => Sound next ∧ Serviced kernel next ∧ Issued rw bh next)
      kernel := by
  obtain ⟨_, isMajor, isThere⟩ := requestable.serves
  have makes := @makeRequest_wp fate _ _ sound _ requestable plain
  unfold llRwBlock
  rw [wp_bind, wp_get]
  dsimp only
  split <;> rename_i driver
  · rw [driver] at isThere
    exact isThere.elim
  · rw [if_neg (Nat.not_le_of_lt isMajor)]
    exact makes

theorem waitOnBuffer_wp (sound : Sound kernel) :
    (waitOnBuffer bh).wp fate Io
      (fun _ next => Sound next ∧ Serviced kernel next ∧ Io kernel next ∧
        (next.buffers bh).lock = false) kernel := by
  apply wp_wait sound
  intro next io nextSound serviced isReady
  exact ⟨nextSound, serviced, io, by simpa using isReady⟩

end Requests

end Linux011.Fs
