import Linux011.Fs.CacheTasks
import Linux011.Fs.RequestSpecs

/-!
# Request slots under many tasks

A request slot, the list of its device and the lock of its buffer say the
same thing in three places.  A task that has locked a buffer owns the lock
until its request is in a list; from then on the request does.
-/

namespace Linux011.Fs

open Coop Prog

/-- A slot that some device has in its list. -/
def Kernel.Queued (kernel : Kernel) (slot : Nat) : Prop :=
  ∃ major, slot ∈ kernel.queue major

/-- Slots, lists and locks agree, where the tasks own `locks`. -/
structure Conserved (locks : Nat → Nat) (kernel : Kernel) : Prop where
  nodup : ∀ major, (kernel.queue major).Nodup
  single : ∀ slot first second, slot ∈ kernel.queue first →
    slot ∈ kernel.queue second → first = second
  inRange : ∀ slot, kernel.Queued slot → slot < nrRequest
  busy : ∀ slot, slot < nrRequest →
    ((kernel.requests slot).dev ≠ none ↔ kernel.Queued slot)
  apart : ∀ first second, kernel.Queued first → kernel.Queued second →
    (kernel.requests first).bh = (kernel.requests second).bh → first = second
  locked : ∀ slot, kernel.Queued slot →
    (kernel.buffers (kernel.requests slot).bh).lock = true
  reads : ∀ slot, kernel.Queued slot → (kernel.requests slot).cmd = .read ∨
    (kernel.requests slot).cmd = .write ∧ slot < requestLimit .write
  owned : ∀ bh, 0 < locks bh → locks bh = 1 ∧
    (kernel.buffers bh).lock = true ∧
    ∀ slot, kernel.Queued slot → (kernel.requests slot).bh ≠ bh

namespace Conserved

variable {locks : Nat → Nat} {kernel next : Kernel}

/-- Only data, dirt and the like change. -/
theorem congr (conserved : Conserved locks kernel)
    (lock : ∀ bh, (next.buffers bh).lock = (kernel.buffers bh).lock)
    (requests : next.requests = kernel.requests)
    (queue : next.queue = kernel.queue) : Conserved locks next := by
  obtain ⟨nodup, single, inRange, busy, apart, locked, reads, owned⟩ :=
    conserved
  unfold Kernel.Queued at inRange busy apart locked reads owned
  rw [← queue] at nodup single inRange busy apart locked reads owned
  rw [← requests] at busy apart locked reads owned
  refine ⟨nodup, single, inRange, busy, apart, ?_, reads, ?_⟩
  · intro slot isQueued
    rw [lock]
    exact locked slot isQueued
  · intro bh isOwned
    rw [lock]
    exact owned bh isOwned

/-- A task locks a buffer. -/
theorem lock (conserved : Conserved locks kernel) {bh : Nat}
    (unlocked : (kernel.buffers bh).lock = false) :
    Conserved (one bh + locks) (kernel.setBuffer bh
      { kernel.buffers bh with lock := true }) := by
  have notQueued {slot : Nat} (isQueued : kernel.Queued slot) :
      (kernel.requests slot).bh ≠ bh := by
    intro same
    have isLocked := conserved.locked slot isQueued
    rw [same, unlocked] at isLocked
    cases isLocked
  have notOwned : locks bh = 0 := by
    by_contra isOwned
    have isLocked := (conserved.owned bh (Nat.pos_of_ne_zero isOwned)).2.1
    rw [unlocked] at isLocked
    cases isLocked
  refine ⟨conserved.nodup, conserved.single, conserved.inRange,
    conserved.busy, conserved.apart, ?_, conserved.reads, ?_⟩
  · intro slot isQueued
    change ((kernel.setBuffer bh _).buffers (kernel.requests slot).bh).lock = _
    rw [Kernel.setBuffer_other (notQueued isQueued)]
    exact conserved.locked slot isQueued
  · intro other isOwned
    by_cases own : other = bh
    · subst own
      rw [Kernel.setBuffer_same, Pi.add_apply, one_same, notOwned]
      exact ⟨rfl, rfl, fun slot isQueued => notQueued isQueued⟩
    · rw [Pi.add_apply, one_other own, Nat.zero_add] at isOwned ⊢
      rw [Kernel.setBuffer_other own]
      exact conserved.owned other isOwned

/-- A buffer locked by a task is locked by no other and by no request. -/
theorem own {bh : Nat} (conserved : Conserved (one bh + locks) kernel) :
    locks bh = 0 ∧ (kernel.buffers bh).lock = true ∧
      ∀ slot, kernel.Queued slot → (kernel.requests slot).bh ≠ bh := by
  have total : (one bh + locks) bh = 1 + locks bh := by
    rw [Pi.add_apply, one_same]
  obtain ⟨alone, isLocked, notQueued⟩ := conserved.owned bh (by omega)
  exact ⟨by omega, isLocked, notQueued⟩

/-- The other locks. -/
theorem others {bh other : Nat} (conserved : Conserved (one bh + locks) kernel)
    (isOwned : 0 < locks other) : other ≠ bh ∧ locks other = 1 ∧
      (kernel.buffers other).lock = true ∧
      ∀ slot, kernel.Queued slot → (kernel.requests slot).bh ≠ other := by
  have different : other ≠ bh := by
    rintro rfl
    have alone := conserved.own.1
    omega
  have total : (one bh + locks) other = locks other := by
    rw [Pi.add_apply, one_other different, Nat.zero_add]
  have held := conserved.owned other (by omega)
  rw [total] at held
  exact ⟨different, held⟩

/-- A task unlocks a buffer it has locked. -/
theorem unlock {bh : Nat} (conserved : Conserved (one bh + locks) kernel) :
    Conserved locks (kernel.setBuffer bh
      { kernel.buffers bh with lock := false }) := by
  refine ⟨conserved.nodup, conserved.single, conserved.inRange,
    conserved.busy, conserved.apart, ?_, conserved.reads, ?_⟩
  · intro slot isQueued
    change ((kernel.setBuffer bh _).buffers (kernel.requests slot).bh).lock = _
    rw [Kernel.setBuffer_other (conserved.own.2.2 slot isQueued)]
    exact conserved.locked slot isQueued
  · intro other isOwned
    obtain ⟨different, held⟩ := conserved.others isOwned
    rw [Kernel.setBuffer_other different]
    exact held

/-- A request is put into a list, and takes over the lock of its buffer. -/
theorem placed {major slot bh : Nat} {request : Request} {line : List Nat}
    (conserved : Conserved (one bh + locks) kernel)
    (inRange : slot < nrRequest) (isFree : (kernel.requests slot).dev = none)
    (isFor : request.bh = bh) (isBusy : request.dev ≠ none)
    (mayUse : request.cmd = .read ∨
      request.cmd = .write ∧ slot < requestLimit .write)
    (perm : line.Perm (slot :: kernel.queue major)) :
    Conserved locks ((kernel.setRequest slot request).setQueue major line) := by
  have notQueued (other : Nat) : slot ∉ kernel.queue other := fun member =>
    (conserved.busy slot inRange).mpr ⟨other, member⟩ isFree
  have queue (other third : Nat) :
      third ∈ ((kernel.setRequest slot request).setQueue major line).queue
          other ↔
        other = major ∧ third = slot ∨ third ∈ kernel.queue other := by
    by_cases own : other = major
    · subst own
      have isLine : ((kernel.setRequest slot request).setQueue other
          line).queue other = line := if_pos rfl
      rw [isLine, perm.mem_iff]
      simp
    · have same : ((kernel.setRequest slot request).setQueue major
          line).queue other = kernel.queue other := if_neg own
      rw [same]
      simp [own]
  have queued (third : Nat) :
      ((kernel.setRequest slot request).setQueue major line).Queued third ↔
        third = slot ∨ kernel.Queued third := by
    unfold Kernel.Queued
    simp only [queue]
    constructor
    · intro isQueued
      obtain ⟨other, ⟨_, isSlot⟩ | member⟩ := isQueued
      · exact .inl isSlot
      · exact .inr ⟨other, member⟩
    · intro isQueued
      rcases isQueued with isSlot | ⟨other, member⟩
      · exact ⟨major, .inl ⟨rfl, isSlot⟩⟩
      · exact ⟨other, .inr member⟩
  have different {third : Nat} (isQueued : kernel.Queued third) :
      third ≠ slot := by
    rintro rfl
    obtain ⟨other, member⟩ := isQueued
    exact notQueued other member
  have old {third : Nat} (isQueued : kernel.Queued third) :
      ((kernel.setRequest slot request).setQueue major line).requests third =
        kernel.requests third := if_neg (different isQueued)
  have new : ((kernel.setRequest slot request).setQueue major line).requests
      slot = request := if_pos rfl
  refine ⟨?_, ?_, ?_, ?_, ?_, ?_, ?_, ?_⟩
  · intro other
    by_cases isOwn : other = major
    · subst isOwn
      have isLine : ((kernel.setRequest slot request).setQueue other
          line).queue other = line := if_pos rfl
      rw [isLine, perm.nodup_iff, List.nodup_cons]
      exact ⟨notQueued other, conserved.nodup other⟩
    · have same : ((kernel.setRequest slot request).setQueue major
          line).queue other = kernel.queue other := if_neg isOwn
      rw [same]
      exact conserved.nodup other
  · intro third first second inFirst inSecond
    rw [queue] at inFirst inSecond
    rcases inFirst with ⟨rfl, rfl⟩ | inFirst
    · rcases inSecond with ⟨rfl, _⟩ | inSecond
      · rfl
      · exact (notQueued second inSecond).elim
    · rcases inSecond with ⟨_, rfl⟩ | inSecond
      · exact (notQueued first inFirst).elim
      · exact conserved.single third first second inFirst inSecond
  · intro third isQueued
    rcases (queued third).mp isQueued with rfl | isQueued
    · exact inRange
    · exact conserved.inRange third isQueued
  · intro third thirdRange
    rw [queued]
    by_cases isSlot : third = slot
    · subst isSlot
      rw [new]
      simp [isBusy]
    · have same : ((kernel.setRequest slot request).setQueue major
          line).requests third = kernel.requests third := if_neg isSlot
      rw [same, conserved.busy third thirdRange]
      simp [isSlot]
  · intro first second firstQueued secondQueued
    have notOwn := conserved.own.2.2
    rcases (queued first).mp firstQueued with rfl | isFirst
    · rcases (queued second).mp secondQueued with rfl | isSecond
      · exact fun _ => rfl
      · rw [new, old isSecond, isFor]
        intro same
        exact (notOwn second isSecond same.symm).elim
    · rcases (queued second).mp secondQueued with rfl | isSecond
      · rw [new, old isFirst, isFor]
        intro same
        exact (notOwn first isFirst same).elim
      · rw [old isFirst, old isSecond]
        exact conserved.apart first second isFirst isSecond
  · intro third isQueued
    rcases (queued third).mp isQueued with rfl | isQueued
    · rw [new, isFor]
      exact conserved.own.2.1
    · rw [old isQueued]
      exact conserved.locked third isQueued
  · intro third isQueued
    rcases (queued third).mp isQueued with rfl | isQueued
    · rw [new]
      exact mayUse
    · rw [old isQueued]
      exact conserved.reads third isQueued
  · intro other isOwned
    obtain ⟨notOwn, alone, isLocked, others⟩ := conserved.others isOwned
    refine ⟨alone, isLocked, ?_⟩
    intro third isQueued
    rcases (queued third).mp isQueued with rfl | isQueued
    · rw [new, isFor]
      exact notOwn.symm
    · rw [old isQueued]
      exact others third isQueued

/-- The first request of a list is ended, and its buffer unlocked. -/
theorem endRequest (conserved : Conserved locks kernel) (major : Nat)
    (uptodate : Bool) : Conserved locks (endRequest major uptodate kernel) := by
  unfold Fs.endRequest
  cases isQueue : kernel.queue major with
  | nil => exact conserved
  | cons slot rest =>
      dsimp only
      generalize isNext : Kernel.setQueue _ major rest = next
      have isFirst : slot ∈ kernel.queue major := isQueue ▸ List.mem_cons_self
      have isQueued : kernel.Queued slot := ⟨major, isFirst⟩
      have nodup := conserved.nodup major
      rw [isQueue, List.nodup_cons] at nodup
      have ownQueue : next.queue major = rest := by
        rw [← isNext]
        exact if_pos rfl
      have otherQueue {other : Nat} (different : other ≠ major) :
          next.queue other = kernel.queue other := by
        rw [← isNext]
        exact if_neg different
      have member (other third : Nat) : third ∈ next.queue other ↔
          third ∈ kernel.queue other ∧ third ≠ slot := by
        by_cases own : other = major
        · subst own
          rw [ownQueue, isQueue, List.mem_cons]
          constructor
          · intro behind
            refine ⟨.inr behind, ?_⟩
            rintro rfl
            exact nodup.1 behind
          · intro inList
            exact inList.1.resolve_left inList.2
        · rw [otherQueue own]
          refine ⟨fun inList => ⟨inList, ?_⟩, fun inList => inList.1⟩
          rintro rfl
          exact own (conserved.single third other major inList isFirst)
      have queued (third : Nat) :
          next.Queued third ↔ kernel.Queued third ∧ third ≠ slot := by
        unfold Kernel.Queued
        simp only [member, exists_and_right]
      have requests {third : Nat} (different : third ≠ slot) :
          next.requests third = kernel.requests third := by
        rw [← isNext]
        exact if_neg different
      have buffers {bh : Nat}
          (different : bh ≠ (kernel.requests slot).bh) :
          next.buffers bh = kernel.buffers bh := by
        rw [← isNext]
        exact if_neg different
      refine ⟨?_, ?_, ?_, ?_, ?_, ?_, ?_, ?_⟩
      · intro other
        by_cases own : other = major
        · rw [own, ownQueue]
          exact nodup.2
        · rw [otherQueue own]
          exact conserved.nodup other
      · intro third first second inFirst inSecond
        exact conserved.single third first second
          ((member first third).mp inFirst).1
          ((member second third).mp inSecond).1
      · intro third isIn
        exact conserved.inRange third ((queued third).mp isIn).1
      · intro third inRange
        rw [queued]
        by_cases isSlot : third = slot
        · subst isSlot
          have isFree : (next.requests third).dev = none := by
            rw [← isNext]
            exact congrArg Request.dev (if_pos rfl)
          simp [isFree]
        · rw [requests isSlot, conserved.busy third inRange]
          simp [isSlot]
      · intro first second firstQueued secondQueued
        obtain ⟨isFirst, firstNot⟩ := (queued first).mp firstQueued
        obtain ⟨isSecond, secondNot⟩ := (queued second).mp secondQueued
        rw [requests firstNot, requests secondNot]
        exact conserved.apart first second isFirst isSecond
      · intro third thirdQueued
        obtain ⟨isThird, notSlot⟩ := (queued third).mp thirdQueued
        have notOwn : (kernel.requests third).bh ≠ (kernel.requests slot).bh :=
          fun same => notSlot
            (conserved.apart third slot isThird isQueued same)
        rw [requests notSlot, buffers notOwn]
        exact conserved.locked third isThird
      · intro third thirdQueued
        obtain ⟨isThird, notSlot⟩ := (queued third).mp thirdQueued
        rw [requests notSlot]
        exact conserved.reads third isThird
      · intro bh isOwned
        obtain ⟨alone, isLocked, others⟩ := conserved.owned bh isOwned
        rw [buffers (others slot isQueued).symm]
        refine ⟨alone, isLocked, ?_⟩
        intro third thirdQueued
        obtain ⟨isThird, notSlot⟩ := (queued third).mp thirdQueued
        rw [requests notSlot]
        exact others third isThird

theorem transfer (conserved : Conserved locks kernel) (slot : Nat) :
    Conserved locks (transfer slot kernel) := by
  unfold Fs.transfer
  dsimp only
  split
  · exact conserved.congr (fun _ => rfl) rfl rfl
  · refine conserved.congr (fun bh => ?_) rfl rfl
    rw [Kernel.setBuffer_buffers]
    split <;> simp_all

theorem complete (conserved : Conserved locks kernel) (major : Nat)
    (success : Bool) : Conserved locks (complete major success kernel) := by
  unfold Fs.complete
  split
  · exact conserved
  · split
    · exact (conserved.transfer _).endRequest major true
    · exact conserved.endRequest major false

theorem requestFn (conserved : Conserved locks kernel) (major slot : Nat) :
    Conserved locks (requestFn major slot kernel) := by
  unfold Fs.requestFn
  split
  · exact conserved.complete _ _
  · exact conserved

end Conserved

/-! ## The calls -/

/-- What a task owns are the buffers it has locked. -/
def lockOwners : Discipline Kernel (Nat → Nat) where
  allowed := Conserved
  stable := fun _ _ _ => True
  refl := fun _ _ => trivial
  trans := fun _ _ => trivial
  split := fun _ => trivial

theorem lockBuffer_owned (bh : Nat) :
    Triple lockOwners (fun _ => True) 0 (lockBuffer bh) (fun _ => one bh)
      (fun _ _ => True) := by
  have waits : Triple lockOwners (fun _ => True) 0
      (waitUntil fun kernel => !(kernel.buffers bh).lock) (fun _ => 0)
      (fun _ kernel => (!(kernel.buffers bh).lock) = true) :=
    triple_waitUntil rfl
  refine triple_bind waits fun _ => ?_
  apply triple_modify
  intro rest kernel unlocked conserved
  rw [Bool.not_eq_true'] at unlocked
  rw [zero_add] at conserved
  exact ⟨conserved.lock unlocked, trivial, trivial⟩

theorem unlockBuffer_owned {pre : Kernel → Prop} (bh : Nat) :
    Triple lockOwners pre (one bh) (unlockBuffer bh) (fun _ => 0)
      (fun _ _ => True) := by
  apply triple_modify
  intro rest kernel _ conserved
  rw [zero_add]
  exact ⟨Conserved.unlock conserved, trivial, trivial⟩

theorem fileRequest_owned {kernel : Kernel} {major slot bh : Nat} {rw : Rw}
    (plain : rw = .read ∨ rw = .write)
    (found : findRequest kernel.requests (requestLimit rw) = some slot) :
    Triple lockOwners (fun current => current = kernel) (one bh)
      (fileRequest major slot bh rw) (fun _ => 0) (fun _ _ => True) := by
  apply triple_modify
  rintro rest state rfl conserved
  obtain ⟨inLimit, isFree⟩ := findRequest_some found
  have inRange := Nat.lt_of_lt_of_le inLimit (requestLimit_le rw)
  rw [zero_add]
  refine ⟨?_, trivial, trivial⟩
  obtain ⟨line, perm, adds⟩ := addRequest_cases
    (state.setRequest slot (requestOf state bh rw)) major slot
  have isFor : ((state.setRequest slot (requestOf state bh rw)).requests
      slot).bh = bh := congrArg Request.bh (if_pos rfl)
  rw [isFor] at adds
  have mayUse : rw = .read ∨ rw = .write ∧ slot < requestLimit .write := by
    rcases plain with rfl | rfl
    · exact .inl rfl
    · exact .inr ⟨rfl, inLimit⟩
  have lined : Conserved rest
      (lined (state.setRequest slot (requestOf state bh rw)) major bh line) := by
    have placed := @Conserved.placed _ _ _ _ _ (requestOf state bh rw) _
      conserved inRange isFree rfl (Option.some_ne_none _) mayUse perm
    refine placed.congr (fun other => ?_) rfl rfl
    change ((Kernel.setBuffer _ bh _).buffers other).lock = _
    rw [Kernel.setBuffer_buffers]
    split
    · rename_i isOwn
      rw [isOwn]
      rfl
    · rfl
  rcases adds with adds | adds
  · rw [adds]
    exact lined
  · rw [adds]
    exact lined.requestFn major slot

theorem submit_owned (major : Nat) (ahead : Bool) {rw : Rw} (bh : Nat)
    (plain : rw = .read ∨ rw = .write) :
    Triple lockOwners (fun _ => True) (one bh) (submit major ahead rw bh)
      (fun _ => 0) (fun _ _ => True) := by
  apply triple_get
  intro kernel _
  split
  · exact unlockBuffer_owned bh
  · split
    · rename_i slot found
      exact fileRequest_owned plain found
    · split
      · exact unlockBuffer_owned bh
      · have waits : Triple lockOwners (fun current => current = kernel)
            (one bh) (waitUntil fun kernel =>
              (findRequest kernel.requests (requestLimit rw)).isSome)
            (fun _ => one bh) (fun _ kernel =>
              (findRequest kernel.requests (requestLimit rw)).isSome = true) :=
          triple_waitUntil rfl
        refine triple_bind waits fun _ => ?_
        apply triple_get
        intro kernel _
        split
        · rename_i slot found
          exact fileRequest_owned plain found
        · exact triple_spent

theorem plain_cases (rw : Rw) : rw.plain = .read ∨ rw.plain = .write := by
  cases rw <;> simp [Rw.plain]

theorem makeRequest_owned (major : Nat) (rw : Rw) (bh : Nat) :
    Triple lockOwners (fun _ => True) 0 (makeRequest major rw bh)
      (fun _ => 0) (fun _ _ => True) := by
  apply triple_get
  intro kernel _
  split
  · exact triple_pure (fun _ _ => trivial) rfl
  · have locks : Triple lockOwners (fun current => current = kernel) 0
        (lockBuffer bh) (fun _ => one bh) (fun _ _ => True) :=
      triple_weaken (lockBuffer_owned bh) (fun _ _ => trivial) fun _ _ _ =>
        trivial
    exact triple_bind locks fun _ => submit_owned major _ bh (plain_cases rw)

/-! ## Every interleaving -/

structure MakeRequest where
  major : Nat
  rw : Rw
  bh : Nat

def requesters : Client Kernel Unit where
  Call := MakeRequest
  Memory := Unit
  enabled := fun _ _ => True
  program := fun call => makeRequest call.major call.rw call.bh
  finish := fun _ _ _ => ()

/-- A driver ends the current request of a device, with or without having
moved its data. -/
inductive Ends (kernel : Kernel) : Kernel → Prop where
  | endRequest (major : Nat) (uptodate : Bool) :
      Ends kernel (endRequest major uptodate kernel)
  | complete (major : Nat) (success : Bool) :
      Ends kernel (complete major success kernel)

theorem requesters_verified :
    Verified requesters lockOwners Ends (fun _ => 0) (fun _ _ _ => True) where
  call := by
    intro memory call others state _ allowed
    rw [zero_add] at allowed
    have owned : Conserved (0 + 0 + others) state := by
      rw [zero_add, zero_add]
      exact allowed
    apply Run.Safe.weaken
      ((makeRequest_owned call.major call.rw call.bh).run 0 others state
        trivial owned)
    intro mine _ value next _ holds
    exact ⟨holds.1, trivial⟩
  device := by
    intro total state next allowed ends
    refine ⟨?_, fun _ => trivial⟩
    cases ends with
    | endRequest major uptodate => exact Conserved.endRequest allowed _ _
    | complete major success => exact Conserved.complete allowed _ _

theorem blkDevInit_conserved (kernel : Kernel) :
    Conserved 0 (blkDevInit kernel) := by
  have notQueued (slot : Nat) : ¬(blkDevInit kernel).Queued slot := by
    intro queued
    obtain ⟨major, member⟩ := queued
    cases member
  refine ⟨fun _ => List.nodup_nil, ?_, ?_, ?_, ?_, ?_, ?_, ?_⟩
  · intro slot first second member
    cases member
  · intro slot queued
    exact (notQueued slot queued).elim
  · intro slot inRange
    have isFree : ((blkDevInit kernel).requests slot).dev = none :=
      congrArg Request.dev (if_pos inRange)
    simp [isFree, notQueued slot]
  · intro first second queued
    exact (notQueued first queued).elim
  · intro slot queued
    exact (notQueued slot queued).elim
  · intro slot queued
    exact (notQueued slot queued).elim
  · intro bh isOwned
    exact (Nat.lt_irrefl 0 isOwned).elim

/-- Whatever is requested and ended in whatever order, a slot is in use while
it is once in one list, its buffer is locked and its own, and the slots from
21 on hold reads. -/
theorem requestSlots_conserved {count : Nat} {kernel : Kernel}
    {world : World requesters count}
    (reached : Reachable Ends (blkDevInit kernel) () world) :
    (∀ slot, slot < nrRequest →
      ((world.state.requests slot).dev ≠ none ↔
        ∃ major, (world.state.queue major).count slot = 1 ∧
          ∀ other, other ≠ major → slot ∉ world.state.queue other)) ∧
    (∀ first second, world.state.Queued first → world.state.Queued second →
      (world.state.requests first).bh = (world.state.requests second).bh →
        first = second) ∧
    ∀ slot, world.state.Queued slot → slot < nrRequest ∧
      (world.state.buffers (world.state.requests slot).bh).lock = true ∧
      ((world.state.requests slot).cmd = .write → slot ≤ 20) ∧
      (20 < slot → (world.state.requests slot).cmd = .read) := by
  obtain ⟨shares, allowed, _⟩ := reachable_balanced requesters_verified rfl
    (blkDevInit_conserved kernel) reached
  have conserved : Conserved (∑ index, shares index) world.state := allowed
  refine ⟨?_, conserved.apart, ?_⟩
  · intro slot inRange
    rw [conserved.busy slot inRange]
    constructor
    · intro queued
      obtain ⟨major, member⟩ := queued
      refine ⟨major, List.count_eq_one_of_mem (conserved.nodup major) member,
        ?_⟩
      intro other different isOther
      exact different (conserved.single slot other major isOther member)
    · intro listed
      obtain ⟨major, once, _⟩ := listed
      exact ⟨major, List.count_pos_iff.mp (by omega)⟩
  · intro slot queued
    have limit : requestLimit .write = 21 := rfl
    refine ⟨conserved.inRange slot queued, conserved.locked slot queued, ?_, ?_⟩
    · intro isWrite
      rcases conserved.reads slot queued with isRead | ⟨_, inLimit⟩
      · rw [isRead] at isWrite
        cases isWrite
      · omega
    · intro above
      rcases conserved.reads slot queued with isRead | ⟨_, inLimit⟩
      · exact isRead
      · omega

section Witness

/-- One task asks for two blocks, another for the first one again. -/
def threeRequests : List (Move requesters 2) :=
  [.call 0 ⟨3, .read, 1⟩, .call 1 ⟨3, .read, 1⟩, .call 0 ⟨3, .read, 2⟩]

theorem requestSlots_conserved_two :
    ∃ world : World requesters 2,
      World.play ⟨blkDevInit idleKernel, fun _ => .idle ()⟩ threeRequests =
        some world ∧
      world.state.queue 3 = [31, 30] ∧
      (world.state.buffers (world.state.requests 31).bh).lock = true ∧
      ((world.state.requests 30).dev ≠ none ↔
        ∃ major, (world.state.queue major).count 30 = 1 ∧
          ∀ other, other ≠ major → 30 ∉ world.state.queue other) := by
  obtain ⟨world, played, isQueue⟩ : ∃ world : World requesters 2,
      World.play ⟨blkDevInit idleKernel, fun _ => .idle ()⟩ threeRequests =
        some world ∧ world.state.queue 3 = [31, 30] := ⟨_, rfl, rfl⟩
  have fair : ∀ move ∈ threeRequests, move.Fair Ends := by
    intro move member
    simp only [threeRequests, List.mem_cons, List.not_mem_nil, or_false]
      at member
    rcases member with rfl | rfl | rfl <;> exact fun _ => trivial
  obtain ⟨slots, _, listed⟩ :=
    requestSlots_conserved (reachable_play .start fair played)
  have isFirst : 31 ∈ world.state.queue 3 := by simp [isQueue]
  exact ⟨world, played, isQueue, (listed 31 ⟨3, isFirst⟩).2.1,
    slots 30 (by decide)⟩

end Witness

end Linux011.Fs
