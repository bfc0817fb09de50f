import Linux011.Library.Likeness
import Linux011.Fs.CacheClaims
import Linux011.Fs.CacheReferences

/-!
# A cache without changes

Where no buffer holds changes, `getblk` has none to write out and makes no
request.  A block that nobody asks for then stays as it is.
-/

namespace Linux011.Fs

open Coop Prog

/-- No request names the buffer, neither in its slot nor through a queue. -/
structure Unasked (bh : Nat) (kernel : Kernel) : Prop where
  untouched : kernel.Untouched bh
  unqueued : ∀ major, ∀ slot ∈ kernel.queue major,
    (kernel.requests slot).bh ≠ bh

/-- No buffer of the cache has changes.  Those of the blocks that are `left`
are not asked for, and only `may` be up to date. -/
structure Idle (dev : Nat) (left : Nat → Prop) (may : Bool → Prop)
    (kernel : Kernel) : Prop where
  clean : ∀ bh, bh < kernel.nrBuffers → (kernel.buffers bh).dirt = false
  unasked : ∀ bh, bh < kernel.nrBuffers → (kernel.buffers bh).dev = dev →
    left (kernel.buffers bh).block →
      Unasked bh kernel ∧ may (kernel.buffers bh).uptodate

theorem Sound.unasked {kernel : Kernel} (sound : Sound kernel) {bh : Nat}
    (unlocked : (kernel.buffers bh).lock = false) : Unasked bh kernel := by
  have untouched := sound.untouched unlocked
  refine ⟨untouched, fun major slot isQueued => ?_⟩
  obtain ⟨inRange, dev, isFor, _⟩ := (sound.queues major).2 slot isQueued
  apply untouched slot inRange
  rw [isFor]
  exact Option.some_ne_none dev

/-! ## Completions -/

section Complete

variable {kernel next : Kernel} {bh : Nat}

/-- What a completion may do to a buffer.  One that succeeds unlocks it only
when it is up to date. -/
theorem complete_buffer (major : Nat) (success : Bool) (kernel : Kernel)
    (bh : Nat) :
    ∃ data uptodate lock, (complete major success kernel).buffers bh =
        { kernel.buffers bh with data, uptodate, lock } ∧
      (success = true → ((kernel.buffers bh).uptodate = true →
          uptodate = true) ∧
        ((kernel.buffers bh).lock = true → uptodate = true ∨ lock = true)) := by
  have ends (uptodate : Bool) (kernel : Kernel) :
      ∃ fresh lock, (endRequest major uptodate kernel).buffers bh =
          { kernel.buffers bh with uptodate := fresh, lock } ∧
        (uptodate = true → ((kernel.buffers bh).uptodate = true →
            fresh = true) ∧
          ((kernel.buffers bh).lock = true → fresh = true ∨ lock = true)) := by
    unfold endRequest
    split
    · exact ⟨_, _, rfl, fun _ => ⟨id, .inr⟩⟩
    · show ∃ fresh lock, (if bh = _ then _ else _) = _ ∧ _
      split <;> rename_i here
      · rw [here]
        exact ⟨_, _, rfl, fun isTrue => ⟨fun _ => isTrue, fun _ => .inl isTrue⟩⟩
      · exact ⟨_, _, rfl, fun _ => ⟨id, .inr⟩⟩
  have moves (slot : Nat) : ∃ data, (transfer slot kernel).buffers bh =
      { kernel.buffers bh with data } := by
    unfold transfer
    dsimp only
    split
    · exact ⟨_, rfl⟩
    · rw [Kernel.setBuffer_buffers]
      split <;> rename_i here
      · rw [here]
        exact ⟨_, rfl⟩
      · exact ⟨_, rfl⟩
  unfold complete
  split
  · exact ⟨_, _, _, rfl, fun _ => ⟨id, .inr⟩⟩
  · rename_i slot _ _
    split <;> rename_i isSuccess
    · obtain ⟨data, moved⟩ := moves slot
      obtain ⟨fresh, lock, ended, keeps⟩ := ends true (transfer slot kernel)
      rw [moved] at ended keeps
      exact ⟨_, _, _, ended, fun _ => keeps rfl⟩
    · obtain ⟨fresh, lock, ended, _⟩ := ends false kernel
      exact ⟨_, _, _, ended, fun isTrue => (isSuccess isTrue).elim⟩

/-- A completion leaves alone what nobody has asked for. -/
theorem Unasked.complete (unasked : Unasked bh kernel) (major : Nat)
    (success : Bool) :
    Unasked bh (complete major success kernel) ∧
      (Fs.complete major success kernel).buffers bh = kernel.buffers bh := by
  have ends {kernel : Kernel} (unasked : Unasked bh kernel) (uptodate : Bool) :
      Unasked bh (endRequest major uptodate kernel) ∧
        (endRequest major uptodate kernel).buffers bh = kernel.buffers bh := by
    unfold endRequest
    split <;> rename_i queued
    · exact ⟨unasked, rfl⟩
    · rename_i slot rest
      have different := unasked.unqueued major slot (by rw [queued]; simp)
      refine ⟨⟨?_, ?_⟩, if_neg (Ne.symm different)⟩
      · intro other inRange
        show (if other = slot then _ else _ : Request).dev ≠ none →
          (if other = slot then _ else _ : Request).bh ≠ bh
        split
        · exact fun _ => different
        · exact unasked.untouched other inRange
      · intro place other
        show other ∈ (if place = major then rest else kernel.queue place) →
          (if other = slot then _ else _ : Request).bh ≠ bh
        intro isQueued
        split
        · exact different
        · refine unasked.unqueued place other ?_
          split at isQueued <;> rename_i here
          · rw [here, queued]
            exact List.mem_cons_of_mem _ isQueued
          · exact isQueued
  have moves {slot : Nat} (different : (kernel.requests slot).bh ≠ bh) :
      Unasked bh (transfer slot kernel) ∧
        (transfer slot kernel).buffers bh = kernel.buffers bh := by
    unfold transfer
    dsimp only
    split
    · exact ⟨⟨unasked.untouched, unasked.unqueued⟩, rfl⟩
    · exact ⟨⟨unasked.untouched, unasked.unqueued⟩,
        Kernel.setBuffer_other (Ne.symm different)⟩
  unfold Fs.complete
  split <;> rename_i queued
  · exact ⟨unasked, rfl⟩
  · rename_i slot rest
    have different := unasked.unqueued major slot (by rw [queued]; simp)
    split
    · obtain ⟨moved, same⟩ := moves different
      obtain ⟨ended, last⟩ := ends moved true
      exact ⟨ended, last.trans same⟩
    · exact ends unasked false

end Complete

section Idle

variable {kernel next : Kernel} {bh dev : Nat} {left : Nat → Prop}
  {may : Bool → Prop}

namespace Idle

/-- Nothing but buffers that are not left, and locks and counts, change. -/
theorem change (idle : Idle dev left may kernel) (same : SameLists kernel next)
    (clean : ∀ other, (next.buffers other).dirt = true →
      (kernel.buffers other).dirt = true)
    (others : ∀ other, other < kernel.nrBuffers →
      (kernel.buffers other).dev = dev → left (kernel.buffers other).block →
        Unasked other kernel → Unasked other next ∧
          (next.buffers other).uptodate = (kernel.buffers other).uptodate) :
    Idle dev left may next where
  clean := by
    intro other isBuffer
    rw [same.nrBuffers] at isBuffer
    by_contra isDirty
    rw [Bool.not_eq_false] at isDirty
    have wasDirty := clean other isDirty
    rw [idle.clean other isBuffer] at wasDirty
    cases wasDirty
  unasked := by
    intro other isBuffer isDev isLeft
    rw [same.nrBuffers] at isBuffer
    rw [same.dev] at isDev
    rw [same.block] at isLeft
    obtain ⟨unasked, isAllowed⟩ := idle.unasked other isBuffer isDev isLeft
    obtain ⟨still, uptodate⟩ := others other isBuffer isDev isLeft unasked
    rw [uptodate]
    exact ⟨still, isAllowed⟩

theorem complete (idle : Idle dev left may kernel) (major : Nat)
    (success : Bool) : Idle dev left may (complete major success kernel) := by
  apply idle.change (complete_quiet major success kernel).same
  · intro other isDirty
    obtain ⟨_, _, _, isNow, _⟩ := complete_buffer major success kernel other
    rw [isNow] at isDirty
    exact isDirty
  · intro other _ _ _ unasked
    obtain ⟨still, same⟩ := unasked.complete major success
    exact ⟨still, congrArg Buffer.uptodate same⟩

theorem io (idle : Idle dev left may kernel) (io : Io kernel next) :
    Idle dev left may next := by
  induction io with
  | refl => exact idle
  | tail _ completes induction =>
      obtain ⟨major, rfl⟩ := completes
      exact induction.complete major true

theorem hold {buffer : Buffer} {count : Nat} {lock : Bool}
    (idle : Idle dev left may kernel)
    (isBuffer : buffer = { kernel.buffers bh with count, lock }) :
    Idle dev left may (kernel.setBuffer bh buffer) := by
  subst isBuffer
  have same : SameLists kernel
      (kernel.setBuffer bh { kernel.buffers bh with count, lock }) :=
    sameLists_setBuffer rfl rfl rfl rfl rfl rfl
  apply idle.change same
  · intro other isDirty
    rw [Kernel.setBuffer_buffers] at isDirty
    split at isDirty <;> rename_i here
    · rw [here]
      exact isDirty
    · exact isDirty
  · intro other _ _ _ unasked
    refine ⟨⟨unasked.untouched, unasked.unqueued⟩, ?_⟩
    rw [Kernel.setBuffer_buffers]
    split <;> rename_i here
    · rw [here]
    · rfl

/-- A request for a buffer that is not left. -/
theorem filed {major slot : Nat} {rw : Rw} {line : List Nat}
    (idle : Idle dev left may kernel)
    (notLeft : (kernel.buffers bh).dev = dev → ¬left (kernel.buffers bh).block)
    (perm : line.Perm (slot :: kernel.queue major)) :
    Idle dev left may (filed kernel major slot bh rw line) := by
  apply idle.change filed_same
  · intro other isDirty
    rw [filed_buffers] at isDirty
    split at isDirty
    · cases isDirty
    · exact isDirty
  · intro other _ isDev isLeft unasked
    have different : bh ≠ other := by
      rintro rfl
      exact notLeft isDev isLeft
    refine ⟨⟨?_, ?_⟩, ?_⟩
    · intro place inRange
      rw [filed_requests]
      split
      · exact fun _ => different
      · exact unasked.untouched place inRange
    · intro where_ place isQueued
      rw [filed_requests]
      split <;> rename_i here
      · exact different
      · refine unasked.unqueued where_ place ?_
        change place ∈ (if where_ = major then line else kernel.queue where_)
          at isQueued
        split at isQueued <;> rename_i isHere
        · rw [perm.mem_iff, List.mem_cons] at isQueued
          rw [isHere]
          exact isQueued.resolve_left here
        · exact isQueued
    · rw [filed_buffers, if_neg (Ne.symm different)]

/-- A buffer is claimed for a block. -/
theorem claim {toDev block : Nat} (idle : Idle dev left may kernel)
    (sound : Sound kernel) (unlocked : (kernel.buffers bh).lock = false)
    (allowed : may false) :
    Idle dev left may (claim bh toDev block kernel) where
  clean := by
    intro other isBuffer
    rw [claim_nrBuffers] at isBuffer
    by_cases isOwn : other = bh
    · rw [isOwn, claim_own.dirt]
      rfl
    · rw [(claim_other isOwn).dirt]
      exact idle.clean other isBuffer
  unasked := by
    have still {other : Nat} (unasked : Unasked other kernel) :
        Unasked other (Fs.claim bh toDev block kernel) := by
      refine ⟨?_, ?_⟩
      · unfold Kernel.Untouched
        rw [claim_beside.requests]
        exact unasked.untouched
      · rw [claim_beside.requests, claim_beside.queue]
        exact unasked.unqueued
    intro other isBuffer isDev isLeft
    rw [claim_nrBuffers] at isBuffer
    by_cases isOwn : other = bh
    · rw [isOwn, claim_own.uptodate]
      exact ⟨still (sound.unasked unlocked), allowed⟩
    · rw [(claim_other isOwn).dev] at isDev
      rw [(claim_other isOwn).block] at isLeft
      obtain ⟨unasked, isAllowed⟩ := idle.unasked other isBuffer isDev isLeft
      rw [(claim_other isOwn).uptodate]
      exact ⟨still unasked, isAllowed⟩

end Idle

/-! ## The functions of the cache -/

section Programs

variable {first : Nat}

end Programs

end Idle

end Linux011.Fs
