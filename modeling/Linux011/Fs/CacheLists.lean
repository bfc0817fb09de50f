import Linux011.Library.Links
import Linux011.Fs.BufferCache

/-!
# The hash chains and the free list

Every buffer of a device is on the chain of its hash, exactly once, and the
free list is a ring of all buffers.  `find_buffer` therefore finds a cached
block if there is one, and the end of `getblk` moves a buffer to its new
block without disturbing any other.
-/

namespace Linux011.Fs

open Coop Links

namespace Buffer

/-- A buffer without its links. -/
def bare (buffer : Buffer) : Buffer :=
  { buffer with prev := none, next := none, prevFree := none, nextFree := none }

end Buffer

namespace Kernel

def nextLink (kernel : Kernel) (bh : Nat) : Option Nat :=
  (kernel.buffers bh).next

def prevLink (kernel : Kernel) (bh : Nat) : Option Nat :=
  (kernel.buffers bh).prev

def nextFreeLink (kernel : Kernel) (bh : Nat) : Option Nat :=
  (kernel.buffers bh).nextFree

def prevFreeLink (kernel : Kernel) (bh : Nat) : Option Nat :=
  (kernel.buffers bh).prevFree

/-- A kernel state without the cache's pointer structures. -/
def bare (kernel : Kernel) : Kernel :=
  { kernel with
    buffers := fun bh => (kernel.buffers bh).bare
    hashTable := fun _ => none
    freeList := 0 }

theorem setBuffer_bare (kernel : Kernel) (bh : Nat) (buffer : Buffer) :
    (kernel.setBuffer bh buffer).bare =
      kernel.bare.setBuffer bh buffer.bare := by
  unfold bare setBuffer
  congr 1
  funext other
  dsimp only
  split <;> rfl

theorem bare_setBuffer {kernel : Kernel} {bh : Nat} {buffer : Buffer}
    (same : buffer.bare = (kernel.buffers bh).bare) :
    (kernel.setBuffer bh buffer).bare = kernel.bare := by
  unfold bare
  congr 1
  funext other
  rw [setBuffer_buffers]
  split <;> rename_i here
  · rw [here, same]
  · rfl

/-- Equal bare states agree on each buffer up to its links. -/
theorem bare_buffer {left right : Kernel} (same : left.bare = right.bare)
    (bh : Nat) : (left.buffers bh).bare = (right.buffers bh).bare :=
  congrFun (congrArg Kernel.buffers same) bh

theorem bare_nrBuffers {left right : Kernel} (same : left.bare = right.bare) :
    left.nrBuffers = right.nrBuffers := by
  have bares := congrArg Kernel.nrBuffers same
  exact bares

theorem through_buffers (kernel : Kernel) (pointer : Option Nat)
    (change : Buffer → Buffer) (other : Nat) :
    (kernel.through pointer change).buffers other =
      if pointer = some other then change (kernel.buffers other)
      else kernel.buffers other := by
  cases pointer with
  | none => rfl
  | some bh =>
      unfold through
      rw [setBuffer_buffers]
      split <;> simp_all [eq_comm]

theorem through_hashTable (kernel : Kernel) (pointer : Option Nat)
    (change : Buffer → Buffer) :
    (kernel.through pointer change).hashTable = kernel.hashTable := by
  cases pointer with
  | none => rfl
  | some bh => rfl

theorem through_freeList (kernel : Kernel) (pointer : Option Nat)
    (change : Buffer → Buffer) :
    (kernel.through pointer change).freeList = kernel.freeList := by
  cases pointer with
  | none => rfl
  | some bh => rfl

theorem through_bare {kernel : Kernel} {pointer : Option Nat}
    {change : Buffer → Buffer}
    (links : ∀ buffer, (change buffer).bare = buffer.bare) :
    (kernel.through pointer change).bare = kernel.bare := by
  cases pointer with
  | none => rfl
  | some bh => exact bare_setBuffer (links _)

section Stores

variable (kernel : Kernel) (pointer value : Option Nat)

@[simp] theorem storePrev_bare :
    (kernel.storePrev pointer value).bare = kernel.bare :=
  through_bare fun _ => rfl

@[simp] theorem storeNext_bare :
    (kernel.storeNext pointer value).bare = kernel.bare :=
  through_bare fun _ => rfl

@[simp] theorem storePrevFree_bare :
    (kernel.storePrevFree pointer value).bare = kernel.bare :=
  through_bare fun _ => rfl

@[simp] theorem storeNextFree_bare :
    (kernel.storeNextFree pointer value).bare = kernel.bare :=
  through_bare fun _ => rfl

@[simp] theorem storeHash_bare (slot : Nat) :
    (kernel.storeHash slot value).bare = kernel.bare := rfl

end Stores

end Kernel

section Surgery

variable (bh : Nat) (kernel : Kernel)

theorem unhash_next : (unhash bh kernel).nextLink =
    bypassNext kernel.nextLink kernel.prevLink bh := by
  funext other
  unfold unhash bypassNext Kernel.nextLink Kernel.prevLink Kernel.storePrev
    Kernel.storeNext Kernel.storeHash
  dsimp only
  split <;> simp only [Kernel.through_buffers] <;> grind

theorem unhash_prev : (unhash bh kernel).prevLink =
    bypassPrev kernel.nextLink kernel.prevLink bh := by
  funext other
  unfold unhash bypassPrev Kernel.nextLink Kernel.prevLink Kernel.storePrev
    Kernel.storeNext Kernel.storeHash
  dsimp only
  split <;> simp only [Kernel.through_buffers] <;> grind

theorem unhash_nextFree :
    (unhash bh kernel).nextFreeLink = kernel.nextFreeLink := by
  funext other
  unfold unhash Kernel.nextFreeLink Kernel.storePrev Kernel.storeNext
    Kernel.storeHash
  dsimp only
  split <;> simp only [Kernel.through_buffers] <;> grind

theorem unhash_prevFree :
    (unhash bh kernel).prevFreeLink = kernel.prevFreeLink := by
  funext other
  unfold unhash Kernel.prevFreeLink Kernel.storePrev Kernel.storeNext
    Kernel.storeHash
  dsimp only
  split <;> simp only [Kernel.through_buffers] <;> grind

theorem unhash_hashTable (slot : Nat) :
    (unhash bh kernel).hashTable slot =
      if slot = hashfn (kernel.buffers bh).dev (kernel.buffers bh).block ∧
          kernel.hashTable slot = some bh then kernel.nextLink bh
      else kernel.hashTable slot := by
  unfold unhash Kernel.nextLink Kernel.storePrev Kernel.storeNext
    Kernel.storeHash
  dsimp only
  split <;> simp only [Kernel.through_hashTable] at * <;> grind

theorem unhash_freeList : (unhash bh kernel).freeList = kernel.freeList := by
  unfold unhash Kernel.storePrev Kernel.storeNext Kernel.storeHash
  dsimp only
  split <;> simp only [Kernel.through_freeList]

theorem unhash_bare : (unhash bh kernel).bare = kernel.bare := by
  unfold unhash
  dsimp only
  split <;> simp

theorem unlinkFree_next :
    (unlinkFree bh kernel).nextLink = kernel.nextLink := by
  funext other
  unfold unlinkFree Kernel.nextLink Kernel.storePrevFree Kernel.storeNextFree
  dsimp only
  split <;> simp only [Kernel.through_buffers] <;> grind

theorem unlinkFree_prev :
    (unlinkFree bh kernel).prevLink = kernel.prevLink := by
  funext other
  unfold unlinkFree Kernel.prevLink Kernel.storePrevFree Kernel.storeNextFree
  dsimp only
  split <;> simp only [Kernel.through_buffers] <;> grind

theorem unlinkFree_nextFree : (unlinkFree bh kernel).nextFreeLink =
    bypassNext kernel.nextFreeLink kernel.prevFreeLink bh := by
  funext other
  unfold unlinkFree bypassNext Kernel.nextFreeLink Kernel.prevFreeLink
    Kernel.storePrevFree Kernel.storeNextFree
  dsimp only
  split <;> simp only [Kernel.through_buffers] <;> grind

theorem unlinkFree_prevFree : (unlinkFree bh kernel).prevFreeLink =
    bypassPrev kernel.nextFreeLink kernel.prevFreeLink bh := by
  funext other
  unfold unlinkFree bypassPrev Kernel.nextFreeLink Kernel.prevFreeLink
    Kernel.storePrevFree Kernel.storeNextFree
  dsimp only
  split <;> simp only [Kernel.through_buffers] <;> grind

theorem unlinkFree_hashTable :
    (unlinkFree bh kernel).hashTable = kernel.hashTable := by
  unfold unlinkFree Kernel.storePrevFree Kernel.storeNextFree
  dsimp only
  split <;> simp only [Kernel.through_hashTable]

theorem unlinkFree_freeList : (unlinkFree bh kernel).freeList =
    if kernel.freeList = bh then (kernel.nextFreeLink bh).getD 0
    else kernel.freeList := by
  unfold unlinkFree Kernel.nextFreeLink Kernel.storePrevFree
    Kernel.storeNextFree
  dsimp only
  split <;> simp only [Kernel.through_freeList] at * <;> simp_all

theorem unlinkFree_bare : (unlinkFree bh kernel).bare = kernel.bare := by
  have stores : ((kernel.storeNextFree (kernel.buffers bh).prevFree
      (kernel.buffers bh).nextFree).storePrevFree (kernel.buffers bh).nextFree
        (kernel.buffers bh).prevFree).bare = kernel.bare := by
    simp
  unfold unlinkFree
  dsimp only
  split
  · exact stores
  · exact stores

theorem linkFree_next : (linkFree bh kernel).nextLink = kernel.nextLink := by
  funext other
  unfold linkFree Kernel.nextLink Kernel.storePrevFree Kernel.storeNextFree
  simp only [Kernel.through_buffers]
  grind

theorem linkFree_prev : (linkFree bh kernel).prevLink = kernel.prevLink := by
  funext other
  unfold linkFree Kernel.prevLink Kernel.storePrevFree Kernel.storeNextFree
  simp only [Kernel.through_buffers]
  grind

theorem linkFree_nextFree (other : Nat) :
    (linkFree bh kernel).nextFreeLink other =
      if kernel.prevFreeLink kernel.freeList = some other then some bh
      else if bh = other then some kernel.freeList
      else kernel.nextFreeLink other := by
  unfold linkFree Kernel.nextFreeLink Kernel.prevFreeLink Kernel.storePrevFree
    Kernel.storeNextFree
  simp only [Kernel.through_buffers]
  grind

theorem linkFree_prevFree (other : Nat) :
    (linkFree bh kernel).prevFreeLink other =
      if kernel.freeList = other then some bh
      else if bh = other then kernel.prevFreeLink kernel.freeList
      else kernel.prevFreeLink other := by
  unfold linkFree Kernel.prevFreeLink Kernel.storePrevFree
    Kernel.storeNextFree
  simp only [Kernel.through_buffers]
  grind

theorem linkFree_hashTable :
    (linkFree bh kernel).hashTable = kernel.hashTable := by
  unfold linkFree Kernel.storePrevFree Kernel.storeNextFree
  simp only [Kernel.through_hashTable]

theorem linkFree_freeList :
    (linkFree bh kernel).freeList = kernel.freeList := by
  unfold linkFree Kernel.storePrevFree Kernel.storeNextFree
  simp only [Kernel.through_freeList]

theorem linkFree_bare : (linkFree bh kernel).bare = kernel.bare := by
  simp [linkFree]

/-- The head of the chain a buffer is put on; none without a device. -/
def chainHead (bh : Nat) (kernel : Kernel) : Option Nat :=
  if (kernel.buffers bh).dev = 0 then none
  else kernel.hashTable
    (hashfn (kernel.buffers bh).dev (kernel.buffers bh).block)

theorem enhash_next (other : Nat) :
    (enhash bh kernel).nextLink other =
      if bh = other then chainHead bh kernel else kernel.nextLink other := by
  unfold enhash chainHead Kernel.nextLink Kernel.storePrev Kernel.storeNext
    Kernel.storeHash
  dsimp only
  split <;>
    simp only [Kernel.through_buffers, Kernel.through_hashTable] at * <;> grind

theorem enhash_prev (other : Nat) :
    (enhash bh kernel).prevLink other =
      if chainHead bh kernel = some other then some bh
      else if bh = other then none
      else kernel.prevLink other := by
  unfold enhash chainHead Kernel.prevLink Kernel.storePrev Kernel.storeNext
    Kernel.storeHash
  dsimp only
  split <;>
    simp only [Kernel.through_buffers, Kernel.through_hashTable] at * <;> grind

theorem enhash_nextFree :
    (enhash bh kernel).nextFreeLink = kernel.nextFreeLink := by
  funext other
  unfold enhash Kernel.nextFreeLink Kernel.storePrev Kernel.storeNext
    Kernel.storeHash
  dsimp only
  split <;> simp only [Kernel.through_buffers] at * <;> grind

theorem enhash_prevFree :
    (enhash bh kernel).prevFreeLink = kernel.prevFreeLink := by
  funext other
  unfold enhash Kernel.prevFreeLink Kernel.storePrev Kernel.storeNext
    Kernel.storeHash
  dsimp only
  split <;> simp only [Kernel.through_buffers] at * <;> grind

theorem enhash_hashTable (slot : Nat) :
    (enhash bh kernel).hashTable slot =
      if (kernel.buffers bh).dev ≠ 0 ∧
          slot = hashfn (kernel.buffers bh).dev (kernel.buffers bh).block then
        some bh
      else kernel.hashTable slot := by
  unfold enhash Kernel.storePrev Kernel.storeNext Kernel.storeHash
  dsimp only
  split <;>
    simp only [Kernel.through_buffers, Kernel.through_hashTable] at * <;> grind

theorem enhash_freeList : (enhash bh kernel).freeList = kernel.freeList := by
  unfold enhash Kernel.storePrev Kernel.storeNext Kernel.storeHash
  dsimp only
  split <;> simp only [Kernel.through_freeList]

theorem enhash_bare : (enhash bh kernel).bare = kernel.bare := by
  unfold enhash
  dsimp only
  split <;> simp

end Surgery

/-- The buffers in `member`, and no others, are on the chains of their
hashes. -/
def Chained (kernel : Kernel) (member : Nat → Prop) : Prop :=
  ∀ slot, ∃ nodes,
    Listed kernel.nextLink kernel.prevLink (kernel.hashTable slot) nodes ∧
      ∀ bh, bh ∈ nodes ↔ member bh ∧
        hashfn (kernel.buffers bh).dev (kernel.buffers bh).block = slot

/-- The cache's pointer structures are in order, and no block is cached
twice. -/
structure Lists (kernel : Kernel) : Prop where
  chained : Chained kernel fun bh =>
    bh < kernel.nrBuffers ∧ (kernel.buffers bh).dev ≠ 0
  loose : ∀ bh, bh < kernel.nrBuffers → (kernel.buffers bh).dev = 0 →
    kernel.nextLink bh = none ∧ kernel.prevLink bh = none
  ring : ∃ nodes,
    Ring kernel.nextFreeLink kernel.prevFreeLink kernel.freeList nodes ∧
      ∀ bh, bh ∈ nodes ↔ bh < kernel.nrBuffers
  unique : ∀ first second, first < kernel.nrBuffers →
    second < kernel.nrBuffers → (kernel.buffers first).dev ≠ 0 →
      (kernel.buffers first).dev = (kernel.buffers second).dev →
        (kernel.buffers first).block = (kernel.buffers second).block →
          first = second

namespace Kernel

theorem bare_dev {left right : Kernel} (same : left.bare = right.bare)
    (bh : Nat) : (left.buffers bh).dev = (right.buffers bh).dev := by
  have bares := congrArg Buffer.dev (bare_buffer same bh)
  exact bares

theorem bare_block {left right : Kernel} (same : left.bare = right.bare)
    (bh : Nat) : (left.buffers bh).block = (right.buffers bh).block := by
  have bares := congrArg Buffer.block (bare_buffer same bh)
  exact bares

theorem bare_count {left right : Kernel} (same : left.bare = right.bare)
    (bh : Nat) : (left.buffers bh).count = (right.buffers bh).count := by
  have bares := congrArg Buffer.count (bare_buffer same bh)
  exact bares

end Kernel

section Chains

variable {kernel : Kernel} {member : Nat → Prop} {bh : Nat}

/-- Taking a buffer off its chain, if it is on one. -/
theorem chained_unhash (bh : Nat) (chained : Chained kernel member)
    (loose : ¬ member bh → kernel.nextLink bh = none ∧
      kernel.prevLink bh = none) :
    Chained (unhash bh kernel) fun other => member other ∧ other ≠ bh := by
  have sameDev := Kernel.bare_dev (unhash_bare bh kernel)
  have sameBlock := Kernel.bare_block (unhash_bare bh kernel)
  intro slot
  obtain ⟨nodes, listed, members⟩ := chained slot
  rw [unhash_next, unhash_prev, unhash_hashTable]
  by_cases here : bh ∈ nodes
  · obtain ⟨before, after, rfl⟩ := List.append_of_mem here
    have isSlot := ((members bh).mp here).2
    have nodup := listed.nodup
    rw [List.perm_middle.nodup_iff, List.nodup_cons] at nodup
    refine ⟨before ++ after, ?_, ?_⟩
    · have removed := listed.remove
      rw [isSlot]
      simpa using removed
    · intro other
      rw [sameDev, sameBlock]
      have others := members other
      rw [List.perm_middle.mem_iff, List.mem_cons] at others
      constructor
      · intro isIn
        obtain ⟨isMember, hashed⟩ := others.mp (.inr isIn)
        refine ⟨⟨isMember, ?_⟩, hashed⟩
        rintro rfl
        exact nodup.1 isIn
      · rintro ⟨⟨isMember, different⟩, hashed⟩
        exact (others.mpr ⟨isMember, hashed⟩).resolve_left different
  · -- the links of the buffer lead into another chain, or nowhere
    have apart : ∀ other ∈ nodes, kernel.nextLink bh ≠ some other ∧
        kernel.prevLink bh ≠ some other := by
      intro other isIn
      by_cases isMember : member bh
      · obtain ⟨own, ownListed, ownMembers⟩ := chained
          (hashfn (kernel.buffers bh).dev (kernel.buffers bh).block)
        have ownHere := (ownMembers bh).mpr ⟨isMember, rfl⟩
        obtain ⟨before, after, rfl⟩ := List.append_of_mem ownHere
        obtain ⟨toPrev, toNext⟩ := ownListed.neighbours
        have elsewhere (isOwn : other ∈ before ++ bh :: after) : False := by
          have hashed := ((members other).mp isIn).2
          have ownHashed := ((ownMembers other).mp isOwn).2
          apply here
          exact (members bh).mpr ⟨isMember, ownHashed.symm.trans hashed⟩
        constructor
        · intro isNext
          apply elsewhere
          have isHead := List.mem_of_mem_head? (toNext ▸ isNext)
          simp [isHead]
        · intro isPrev
          apply elsewhere
          have isLast := List.mem_of_mem_getLast? (toPrev ▸ isPrev)
          simp [isLast]
      · obtain ⟨noNext, noPrev⟩ := loose isMember
        simp [noNext, noPrev]
    refine ⟨nodes, ?_, ?_⟩
    · have notHead : ¬ (slot =
          hashfn (kernel.buffers bh).dev (kernel.buffers bh).block ∧
            kernel.hashTable slot = some bh) := by
        rintro ⟨_, isHead⟩
        apply here
        exact List.mem_of_mem_head? (listed.head ▸ isHead)
      rw [if_neg notHead]
      refine listed.congr ?_
      intro other isIn
      obtain ⟨notNext, notPrev⟩ := apart other isIn
      exact ⟨if_neg notPrev, if_neg notNext⟩
    · intro other
      rw [sameDev, sameBlock, members other]
      constructor
      · rintro ⟨isMember, hashed⟩
        refine ⟨⟨isMember, ?_⟩, hashed⟩
        rintro rfl
        exact here ((members other).mpr ⟨isMember, hashed⟩)
      · rintro ⟨⟨isMember, _⟩, hashed⟩
        exact ⟨isMember, hashed⟩

/-- No link of a buffer leads to one without a device. -/
theorem Lists.apart (lists : Lists kernel) {other : Nat}
    (isBuffer : bh < kernel.nrBuffers) (free : (kernel.buffers other).dev = 0) :
    kernel.nextLink bh ≠ some other ∧ kernel.prevLink bh ≠ some other := by
  by_cases hasDev : (kernel.buffers bh).dev = 0
  · obtain ⟨noNext, noPrev⟩ := lists.loose bh isBuffer hasDev
    simp [noNext, noPrev]
  · obtain ⟨nodes, listed, members⟩ := lists.chained
      (hashfn (kernel.buffers bh).dev (kernel.buffers bh).block)
    have here := (members bh).mpr ⟨⟨isBuffer, hasDev⟩, rfl⟩
    have notIn : other ∉ nodes := fun isIn => ((members other).mp isIn).1.2 free
    obtain ⟨before, after, rfl⟩ := List.append_of_mem here
    obtain ⟨toPrev, toNext⟩ := listed.neighbours
    constructor
    · intro isNext
      have isHead := List.mem_of_mem_head? (toNext ▸ isNext)
      exact notIn (by simp [isHead])
    · intro isPrev
      have isLast := List.mem_of_mem_getLast? (toPrev ▸ isPrev)
      exact notIn (by simp [isLast])

/-- Putting a buffer that is on no chain on the chain of its hash. -/
theorem chained_enhash (bh : Nat) (chained : Chained kernel member)
    (fresh : ¬ member bh) :
    Chained (enhash bh kernel) fun other =>
      member other ∨ other = bh ∧ (kernel.buffers bh).dev ≠ 0 := by
  have sameDev := Kernel.bare_dev (enhash_bare bh kernel)
  have sameBlock := Kernel.bare_block (enhash_bare bh kernel)
  intro slot
  obtain ⟨nodes, listed, members⟩ := chained slot
  have notIn : bh ∉ nodes := fun isIn => fresh ((members bh).mp isIn).1
  rw [enhash_hashTable]
  by_cases here : (kernel.buffers bh).dev ≠ 0 ∧
      slot = hashfn (kernel.buffers bh).dev (kernel.buffers bh).block
  · rw [if_pos here]
    have head : chainHead bh kernel = kernel.hashTable slot := by
      unfold chainHead
      rw [if_neg here.1, here.2]
    have notHead : kernel.hashTable slot ≠ some bh := by
      intro isHead
      exact notIn (List.mem_of_mem_head? (listed.head ▸ isHead))
    have others {other : Nat} (isIn : other ∈ nodes) : bh ≠ other := by
      rintro rfl
      exact notIn isIn
    refine ⟨bh :: nodes, ?_, ?_⟩
    · refine listed.push notIn ?_ ?_ ?_ ?_ ?_
      · rw [enhash_next, if_pos rfl, head]
      · rw [enhash_prev, head, if_neg notHead, if_pos rfl]
      · intro other isHead
        rw [enhash_prev, head, if_pos isHead]
      · intro other isIn
        rw [enhash_next, if_neg (others isIn)]
      · intro other isIn isNotHead
        rw [enhash_prev, head, if_neg isNotHead, if_neg (others isIn)]
    · intro other
      rw [List.mem_cons, members other, sameDev, sameBlock]
      constructor
      · rintro (rfl | ⟨isMember, hashed⟩)
        · exact ⟨.inr ⟨rfl, here.1⟩, here.2.symm⟩
        · exact ⟨.inl isMember, hashed⟩
      · rintro ⟨isMember | ⟨rfl, _⟩, hashed⟩
        · exact .inr ⟨isMember, hashed⟩
        · exact .inl rfl
  · rw [if_neg here]
    refine ⟨nodes, ?_, ?_⟩
    · refine listed.congr ?_
      intro other isIn
      have different : bh ≠ other := by
        rintro rfl
        exact notIn isIn
      rw [enhash_next, enhash_prev, if_neg different, if_neg different]
      refine ⟨rfl, ?_⟩
      rw [if_neg]
      intro isHead
      unfold chainHead at isHead
      split at isHead <;> rename_i hasDev
      · cases isHead
      · obtain ⟨own, ownListed, ownMembers⟩ := chained
          (hashfn (kernel.buffers bh).dev (kernel.buffers bh).block)
        have ownIn : other ∈ own :=
          List.mem_of_mem_head? (ownListed.head ▸ isHead)
        apply here
        refine ⟨hasDev, ?_⟩
        rw [← ((members other).mp isIn).2]
        exact ((ownMembers other).mp ownIn).2
    · intro other
      rw [members other, sameDev, sameBlock]
      constructor
      · rintro ⟨isMember, hashed⟩
        exact ⟨.inl isMember, hashed⟩
      · rintro ⟨isMember | ⟨rfl, hasDev⟩, hashed⟩
        · exact ⟨isMember, hashed⟩
        · exact (here ⟨hasDev, hashed.symm⟩).elim

end Chains

/-- Out of the free list and back in at its end. -/
theorem ring_moved {kernel moved : Kernel} {nodes : List Nat} {bh : Nat}
    (ring : Ring kernel.nextFreeLink kernel.prevFreeLink kernel.freeList nodes)
    (member : bh ∈ nodes)
    (sameNext : moved.nextFreeLink = (unlinkFree bh kernel).nextFreeLink)
    (samePrev : moved.prevFreeLink = (unlinkFree bh kernel).prevFreeLink)
    (sameHead : moved.freeList = (unlinkFree bh kernel).freeList) :
    ∃ order,
      Ring (linkFree bh moved).nextFreeLink (linkFree bh moved).prevFreeLink
        (linkFree bh moved).freeList order ∧
      ∀ other, other ∈ order ↔ other ∈ nodes := by
  rw [unlinkFree_nextFree] at sameNext
  rw [unlinkFree_prevFree] at samePrev
  rw [unlinkFree_freeList] at sameHead
  have headIn : kernel.freeList ∈ nodes := List.mem_of_mem_head? ring.head
  obtain ⟨before, after, rfl⟩ := List.append_of_mem member
  have turned := ring.rotate
  cases rest : after ++ before with
  | nil =>
      obtain ⟨rfl, rfl⟩ := List.append_eq_nil_iff.mp rest
      have isHead : kernel.freeList = bh := by simpa using headIn
      obtain ⟨ownNext, ownPrev⟩ : Adjacent kernel.nextFreeLink
          kernel.prevFreeLink bh bh := ring.closed bh (by simp) bh (by simp)
      rw [if_pos isHead, ownNext] at sameHead
      have movedHead : moved.freeList = bh := sameHead
      have movedPrev : moved.prevFreeLink bh = some bh := by
        rw [samePrev]
        unfold bypassPrev
        rw [if_pos ownNext]
        exact ownPrev
      refine ⟨[bh], ⟨?_, by simp, by simp, ?_⟩, by simp⟩
      · rw [linkFree_freeList, movedHead]
        rfl
      · intro last isLast first isFirst
        have atLast : bh = last := by simpa using isLast
        have atFirst : bh = first := by simpa using isFirst
        rw [← atLast, ← atFirst]
        constructor
        · rw [linkFree_nextFree, movedHead, if_pos movedPrev]
        · rw [linkFree_prevFree, if_pos movedHead]
  | cons start tail =>
      have notIn : bh ∉ start :: tail := by
        have nodup := turned.nodup
        rw [List.cons_append, rest, List.nodup_cons] at nodup
        exact nodup.1
      -- the ring without the buffer, entered where the free list now starts
      have shorter : ∃ remaining, Ring moved.nextFreeLink moved.prevFreeLink
          moved.freeList remaining ∧
            ∀ other, other ∈ remaining ↔ other ∈ start :: tail := by
        rw [List.cons_append, rest] at turned
        have ending : Ring kernel.nextFreeLink kernel.prevFreeLink start
            (start :: tail ++ [bh]) := @Ring.rotate Nat _ _ _ [bh] tail start turned
        have removed := ending.removeLast rfl
        rw [← sameNext, ← samePrev] at removed
        by_cases isHead : kernel.freeList = bh
        · have toStart : kernel.nextFreeLink bh = some start := by
            obtain ⟨link, _⟩ := List.isChain_cons.mp turned.chain
            exact (link start rfl).1
          rw [if_pos isHead, toStart] at sameHead
          exact ⟨_, sameHead ▸ removed, fun _ => Iff.rfl⟩
        · rw [if_neg isHead] at sameHead
          have headRest : kernel.freeList ∈ start :: tail := by
            rw [← rest]
            simp only [List.mem_append, List.mem_cons] at headIn ⊢
            rcases headIn with inBefore | same | inAfter
            · exact .inr inBefore
            · exact (isHead same).elim
            · exact .inl inAfter
          obtain ⟨front, back, split⟩ := List.append_of_mem headRest
          rw [split] at removed
          refine ⟨_, sameHead ▸ removed.rotate, ?_⟩
          intro other
          rw [split, sameHead]
          exact List.perm_append_comm.mem_iff
      obtain ⟨remaining, shortRing, members⟩ := shorter
      have fresh : bh ∉ remaining := fun isIn => notIn ((members bh).mp isIn)
      have headIn : moved.freeList ∈ remaining :=
        List.mem_of_mem_head? shortRing.head
      obtain ⟨last, lastPrev⟩ : ∃ last,
          moved.prevFreeLink moved.freeList = some last := by
        cases ending : remaining.getLast? with
        | none =>
            have empty := List.getLast?_eq_none_iff.mp ending
            simp [empty] at headIn
        | some last =>
            exact ⟨last, (shortRing.closed last ending _ shortRing.head).2⟩
      have others {other : Nat} (isIn : other ∈ remaining) : bh ≠ other := by
        rintro rfl
        exact fresh isIn
      have lastIn : last ∈ remaining := by
        cases ending : remaining.getLast? with
        | none =>
            have empty := List.getLast?_eq_none_iff.mp ending
            simp [empty] at headIn
        | some final =>
            have link := (shortRing.closed final ending _ shortRing.head).2
            rw [lastPrev, Option.some.injEq] at link
            rw [link]
            exact List.mem_of_mem_getLast? ending
      refine ⟨remaining ++ [bh], ?_, ?_⟩
      · rw [linkFree_freeList]
        refine shortRing.insertLast fresh lastPrev ?_ ?_ ?_ ?_ ?_ ?_
        · rw [linkFree_nextFree, lastPrev, if_neg, if_pos rfl]
          intro same
          exact others lastIn (Option.some.inj same).symm
        · rw [linkFree_prevFree, if_neg (Ne.symm (others headIn)),
            if_pos rfl, lastPrev]
        · rw [linkFree_nextFree, if_pos lastPrev]
        · rw [linkFree_prevFree, if_pos rfl]
        · intro other isIn notLast
          rw [linkFree_nextFree, lastPrev, if_neg, if_neg (others isIn)]
          intro same
          exact notLast (Option.some.inj same).symm
        · intro other isIn notHead
          rw [linkFree_prevFree, if_neg (Ne.symm notHead),
            if_neg (others isIn)]
      · intro other
        rw [List.mem_append, members, ← rest]
        simp only [List.mem_append, List.mem_cons, List.not_mem_nil, or_false]
        tauto

/-- A change of a buffer that leaves its links alone. -/
theorem links_setBuffer {kernel : Kernel} {bh : Nat} {buffer : Buffer}
    (sameNext : buffer.next = (kernel.buffers bh).next)
    (samePrev : buffer.prev = (kernel.buffers bh).prev)
    (sameNextFree : buffer.nextFree = (kernel.buffers bh).nextFree)
    (samePrevFree : buffer.prevFree = (kernel.buffers bh).prevFree) :
    (kernel.setBuffer bh buffer).nextLink = kernel.nextLink ∧
      (kernel.setBuffer bh buffer).prevLink = kernel.prevLink ∧
      (kernel.setBuffer bh buffer).nextFreeLink = kernel.nextFreeLink ∧
      (kernel.setBuffer bh buffer).prevFreeLink = kernel.prevFreeLink := by
  unfold Kernel.nextLink Kernel.prevLink Kernel.nextFreeLink
    Kernel.prevFreeLink
  refine ⟨?_, ?_, ?_, ?_⟩ <;> funext other <;>
    rw [Kernel.setBuffer_buffers] <;> split <;> simp_all

/-- The pointer structures, the devices and the block numbers are those of
another state. -/
structure SameLists (kernel next : Kernel) : Prop where
  nextLink : next.nextLink = kernel.nextLink
  prevLink : next.prevLink = kernel.prevLink
  nextFreeLink : next.nextFreeLink = kernel.nextFreeLink
  prevFreeLink : next.prevFreeLink = kernel.prevFreeLink
  hashTable : next.hashTable = kernel.hashTable
  freeList : next.freeList = kernel.freeList
  nrBuffers : next.nrBuffers = kernel.nrBuffers
  dev : ∀ bh, (next.buffers bh).dev = (kernel.buffers bh).dev
  block : ∀ bh, (next.buffers bh).block = (kernel.buffers bh).block

theorem Lists.congr {kernel next : Kernel} (lists : Lists kernel)
    (same : SameLists kernel next) : Lists next where
  chained := by
    intro slot
    obtain ⟨nodes, listed, members⟩ := lists.chained slot
    refine ⟨nodes, ?_, ?_⟩
    · rw [same.nextLink, same.prevLink, same.hashTable]
      exact listed
    · intro bh
      have member := members bh
      simp only [same.nrBuffers, same.dev, same.block]
      exact member
  loose := by
    intro bh isBuffer free
    rw [same.nextLink, same.prevLink]
    exact lists.loose bh (same.nrBuffers ▸ isBuffer) (same.dev bh ▸ free)
  ring := by
    rw [same.nextFreeLink, same.prevFreeLink, same.freeList, same.nrBuffers]
    exact lists.ring
  unique := by
    intro first second
    rw [same.nrBuffers, same.dev, same.dev, same.block, same.block]
    exact lists.unique first second

theorem SameLists.refl (kernel : Kernel) : SameLists kernel kernel :=
  ⟨rfl, rfl, rfl, rfl, rfl, rfl, rfl, fun _ => rfl, fun _ => rfl⟩

theorem SameLists.trans {first second third : Kernel}
    (left : SameLists first second) (right : SameLists second third) :
    SameLists first third where
  nextLink := right.nextLink.trans left.nextLink
  prevLink := right.prevLink.trans left.prevLink
  nextFreeLink := right.nextFreeLink.trans left.nextFreeLink
  prevFreeLink := right.prevFreeLink.trans left.prevFreeLink
  hashTable := right.hashTable.trans left.hashTable
  freeList := right.freeList.trans left.freeList
  nrBuffers := right.nrBuffers.trans left.nrBuffers
  dev := fun bh => (right.dev bh).trans (left.dev bh)
  block := fun bh => (right.block bh).trans (left.block bh)

/-- A change outside the cache. -/
theorem SameLists.elsewhere {kernel next : Kernel}
    (buffers : next.buffers = kernel.buffers)
    (hashTable : next.hashTable = kernel.hashTable)
    (freeList : next.freeList = kernel.freeList)
    (nrBuffers : next.nrBuffers = kernel.nrBuffers) :
    SameLists kernel next := by
  refine ⟨?_, ?_, ?_, ?_, hashTable, freeList, nrBuffers, ?_, ?_⟩
  · unfold Kernel.nextLink
    rw [buffers]
  · unfold Kernel.prevLink
    rw [buffers]
  · unfold Kernel.nextFreeLink
    rw [buffers]
  · unfold Kernel.prevFreeLink
    rw [buffers]
  · intro bh
    rw [buffers]
  · intro bh
    rw [buffers]

/-- A change of one buffer outside its links, device and block number. -/
theorem sameLists_setBuffer {kernel : Kernel} {bh : Nat} {buffer : Buffer}
    (sameNext : buffer.next = (kernel.buffers bh).next)
    (samePrev : buffer.prev = (kernel.buffers bh).prev)
    (sameNextFree : buffer.nextFree = (kernel.buffers bh).nextFree)
    (samePrevFree : buffer.prevFree = (kernel.buffers bh).prevFree)
    (sameDev : buffer.dev = (kernel.buffers bh).dev)
    (sameBlock : buffer.block = (kernel.buffers bh).block) :
    SameLists kernel (kernel.setBuffer bh buffer) := by
  obtain ⟨nextLink, prevLink, nextFreeLink, prevFreeLink⟩ :=
    links_setBuffer sameNext samePrev sameNextFree samePrevFree
  refine ⟨nextLink, prevLink, nextFreeLink, prevFreeLink, rfl, rfl, rfl,
    ?_, ?_⟩ <;> intro other <;> rw [Kernel.setBuffer_buffers] <;> split <;>
    simp_all

/-- A buffer that has been given a new block. -/
def Buffer.claimed (buffer : Buffer) (dev block : Nat) : Buffer :=
  { buffer with
    count := 1, dirt := false, uptodate := false, dev := dev, block := block }

section Claim

variable (bh dev block : Nat) (kernel : Kernel)

/-- The buffer at the end of `getblk`, before it leaves its queues. -/
def reset : Kernel :=
  kernel.setBuffer bh
    { kernel.buffers bh with count := 1, dirt := false, uptodate := false }

/-- The buffer out of its queues, and renamed. -/
def renamed : Kernel :=
  let kernel := unlinkFree bh (unhash bh (reset bh kernel))
  kernel.setBuffer bh { kernel.buffers bh with dev := dev, block := block }

/-- The buffer back in the queues. -/
def claim : Kernel := enhash bh (linkFree bh (renamed bh dev block kernel))

theorem reset_sameLists : SameLists kernel (reset bh kernel) :=
  sameLists_setBuffer rfl rfl rfl rfl rfl rfl

theorem renamed_bare : (renamed bh dev block kernel).bare =
    (kernel.setBuffer bh ((kernel.buffers bh).claimed dev block)).bare := by
  have unlinkedBare := (unlinkFree_bare bh (unhash bh (reset bh kernel))).trans
    (unhash_bare bh (reset bh kernel))
  have own : ((unlinkFree bh (unhash bh (reset bh kernel))).buffers bh).bare =
      Buffer.bare { kernel.buffers bh with
        count := 1, dirt := false, uptodate := false } := by
    rw [Kernel.bare_buffer unlinkedBare bh]
    unfold reset
    rw [Kernel.setBuffer_same]
  have ownNamed : Buffer.bare
      { (unlinkFree bh (unhash bh (reset bh kernel))).buffers bh with
        dev := dev, block := block } =
      ((kernel.buffers bh).claimed dev block).bare := by
    have named := congrArg
      (fun buffer : Buffer => { buffer with dev := dev, block := block }) own
    exact named
  unfold renamed
  dsimp only
  rw [Kernel.setBuffer_bare, ownNamed, unlinkedBare, reset,
    Kernel.setBuffer_bare, Kernel.setBuffer_bare]
  unfold Kernel.setBuffer
  congr 1
  funext other
  dsimp only
  split <;> rfl

theorem claim_bare : (claim bh dev block kernel).bare =
    (kernel.setBuffer bh ((kernel.buffers bh).claimed dev block)).bare :=
  ((enhash_bare bh _).trans (linkFree_bare bh _)).trans
    (renamed_bare bh dev block kernel)

/-- Renaming leaves the links as the removal left them. -/
theorem renamed_links :
    (renamed bh dev block kernel).nextLink =
        (unhash bh (reset bh kernel)).nextLink ∧
      (renamed bh dev block kernel).prevLink =
        (unhash bh (reset bh kernel)).prevLink ∧
      (renamed bh dev block kernel).nextFreeLink =
        (unlinkFree bh (unhash bh (reset bh kernel))).nextFreeLink ∧
      (renamed bh dev block kernel).prevFreeLink =
        (unlinkFree bh (unhash bh (reset bh kernel))).prevFreeLink := by
  obtain ⟨nextLink, prevLink, nextFreeLink, prevFreeLink⟩ :=
    @links_setBuffer (unlinkFree bh (unhash bh (reset bh kernel))) bh
      { (unlinkFree bh (unhash bh (reset bh kernel))).buffers bh with
        dev := dev, block := block } rfl rfl rfl rfl
  refine ⟨nextLink.trans ?_, prevLink.trans ?_, nextFreeLink, prevFreeLink⟩
  · exact unlinkFree_next bh _
  · exact unlinkFree_prev bh _

end Claim

section Claimed

variable {bh dev block : Nat} {kernel : Kernel}

theorem claim_nrBuffers : (claim bh dev block kernel).nrBuffers =
    kernel.nrBuffers := by
  have bares := Kernel.bare_nrBuffers (claim_bare bh dev block kernel)
  exact bares

theorem claim_dev (other : Nat) :
    ((claim bh dev block kernel).buffers other).dev =
      if other = bh then dev else (kernel.buffers other).dev := by
  rw [Kernel.bare_dev (claim_bare bh dev block kernel),
    Kernel.setBuffer_buffers]
  split <;> rfl

theorem claim_block (other : Nat) :
    ((claim bh dev block kernel).buffers other).block =
      if other = bh then block else (kernel.buffers other).block := by
  rw [Kernel.bare_block (claim_bare bh dev block kernel),
    Kernel.setBuffer_buffers]
  split <;> rfl

/-- The chains between removal and insertion. -/
theorem renamed_chained (dev block : Nat) (lists : Lists kernel) (isBuffer : bh < kernel.nrBuffers) :
    Chained (renamed bh dev block kernel) fun other =>
      (other < kernel.nrBuffers ∧ (kernel.buffers other).dev ≠ 0) ∧
        other ≠ bh := by
  have same := reset_sameLists bh kernel
  have resetLists := lists.congr same
  obtain ⟨nextLink, prevLink, _, _⟩ := renamed_links bh dev block kernel
  have removed := chained_unhash bh resetLists.chained (by
    intro notMember
    apply resetLists.loose bh (same.nrBuffers ▸ isBuffer)
    by_contra hasDev
    exact notMember ⟨same.nrBuffers ▸ isBuffer, hasDev⟩)
  intro slot
  obtain ⟨nodes, listed, members⟩ := removed slot
  refine ⟨nodes, ?_, ?_⟩
  · rw [nextLink, prevLink]
    have hashTable : (renamed bh dev block kernel).hashTable =
        (unhash bh (reset bh kernel)).hashTable := unlinkFree_hashTable bh _
    rw [hashTable]
    exact listed
  · intro other
    have member := members other
    have sameBare := renamed_bare bh dev block kernel
    simp only [Kernel.bare_dev (unhash_bare bh (reset bh kernel)),
      Kernel.bare_block (unhash_bare bh (reset bh kernel)), same.nrBuffers,
      same.dev, same.block] at member
    rw [Kernel.bare_dev sameBare, Kernel.bare_block sameBare,
      Kernel.setBuffer_buffers]
    by_cases here : other = bh
    · have notIn : other ∉ nodes := fun isIn => (member.mp isIn).1.2 here
      simp only [notIn, false_iff]
      exact fun isIn => isIn.1.2 here
    · rw [if_neg here]
      exact member

theorem claim_chained (lists : Lists kernel) (isBuffer : bh < kernel.nrBuffers) :
    Chained (claim bh dev block kernel) fun other =>
      other < kernel.nrBuffers ∧
        ((claim bh dev block kernel).buffers other).dev ≠ 0 := by
  have between := renamed_chained dev block lists isBuffer
  have linked : Chained (linkFree bh (renamed bh dev block kernel))
      fun other => (other < kernel.nrBuffers ∧
        (kernel.buffers other).dev ≠ 0) ∧ other ≠ bh := by
    intro slot
    obtain ⟨nodes, listed, members⟩ := between slot
    have sameBare := linkFree_bare bh (renamed bh dev block kernel)
    refine ⟨nodes, ?_, ?_⟩
    · rw [linkFree_next, linkFree_prev, linkFree_hashTable]
      exact listed
    · intro other
      rw [Kernel.bare_dev sameBare, Kernel.bare_block sameBare]
      exact members other
  have inserted := chained_enhash bh linked (by simp)
  intro slot
  obtain ⟨nodes, listed, members⟩ := inserted slot
  refine ⟨nodes, listed, ?_⟩
  intro other
  have ownDev : ((linkFree bh (renamed bh dev block kernel)).buffers bh).dev =
      dev := by
    have sameBare := (linkFree_bare bh _).trans (renamed_bare bh dev block kernel)
    rw [Kernel.bare_dev sameBare, Kernel.setBuffer_same]
    rfl
  have member := members other
  rw [ownDev] at member
  refine member.trans (and_congr ?_ Iff.rfl)
  dsimp only
  rw [claim_dev]
  by_cases here : other = bh
  · rw [if_pos here]
    constructor
    · rintro (⟨_, different⟩ | ⟨_, hasDev⟩)
      · exact (different here).elim
      · exact ⟨here ▸ isBuffer, hasDev⟩
    · rintro ⟨_, hasDev⟩
      exact .inr ⟨here, hasDev⟩
  · rw [if_neg here]
    constructor
    · rintro (⟨isMember, _⟩ | ⟨same, _⟩)
      · exact isMember
      · exact (here same).elim
    · intro isMember
      exact .inl ⟨isMember, here⟩

theorem claim_loose (lists : Lists kernel) (isBuffer : bh < kernel.nrBuffers)
    {other : Nat} (otherBuffer : other < kernel.nrBuffers)
    (free : ((claim bh dev block kernel).buffers other).dev = 0) :
    (claim bh dev block kernel).nextLink other = none ∧
      (claim bh dev block kernel).prevLink other = none := by
  have resetLists := lists.congr (reset_sameLists bh kernel)
  obtain ⟨nextLink, prevLink, _, _⟩ := renamed_links bh dev block kernel
  have linkedBare := (linkFree_bare bh _).trans (renamed_bare bh dev block kernel)
  have linkedDev := Kernel.bare_dev linkedBare bh
  rw [Kernel.setBuffer_same] at linkedDev
  have ownDev : ((linkFree bh (renamed bh dev block kernel)).buffers bh).dev =
      dev := linkedDev
  rw [claim_dev] at free
  unfold claim
  rw [enhash_next, enhash_prev, linkFree_next, linkFree_prev, nextLink, prevLink,
    unhash_next, unhash_prev]
  by_cases here : other = bh
  · rw [if_pos here] at free
    have noHead : chainHead bh (linkFree bh (renamed bh dev block kernel)) =
        none := by
      unfold chainHead
      rw [if_pos (ownDev.trans free)]
    rw [noHead, if_pos here.symm, if_neg (by simp), if_pos here.symm]
    exact ⟨rfl, rfl⟩
  · rw [if_neg here] at free
    have different : ¬ bh = other := fun same => here same.symm
    have resetFree : ((reset bh kernel).buffers other).dev = 0 :=
      ((reset_sameLists bh kernel).dev other).trans free
    obtain ⟨noNext, noPrev⟩ := resetLists.loose other otherBuffer resetFree
    obtain ⟨notNext, notPrev⟩ := resetLists.apart isBuffer resetFree
    have notHead : chainHead bh (linkFree bh (renamed bh dev block kernel)) ≠
        some other := by
      have between := renamed_chained dev block lists isBuffer
      intro isHead
      unfold chainHead at isHead
      split at isHead
      · cases isHead
      · rw [linkFree_hashTable] at isHead
        obtain ⟨nodes, listed, members⟩ := between _
        have isIn := List.mem_of_mem_head? (listed.head ▸ isHead)
        exact ((members other).mp isIn).1.1.2 free
    rw [if_neg different, if_neg notHead, if_neg different]
    constructor
    · exact (if_neg notPrev).trans noNext
    · exact (if_neg notNext).trans noPrev

/-- A block that is not cached is cached once afterwards. -/
theorem claim_unique (lists : Lists kernel)
    (fresh : dev ≠ 0 → ∀ other, other < kernel.nrBuffers →
      (kernel.buffers other).dev = dev →
        (kernel.buffers other).block ≠ block)
    {first second : Nat} (isFirst : first < kernel.nrBuffers)
    (isSecond : second < kernel.nrBuffers)
    (hasDev : ((claim bh dev block kernel).buffers first).dev ≠ 0)
    (sameDev : ((claim bh dev block kernel).buffers first).dev =
      ((claim bh dev block kernel).buffers second).dev)
    (sameBlock : ((claim bh dev block kernel).buffers first).block =
      ((claim bh dev block kernel).buffers second).block) :
    first = second := by
  rw [claim_dev] at hasDev
  rw [claim_dev, claim_dev] at sameDev
  rw [claim_block, claim_block] at sameBlock
  by_cases firstHere : first = bh <;> by_cases secondHere : second = bh
  · exact firstHere.trans secondHere.symm
  · rw [if_pos firstHere] at hasDev
    rw [if_pos firstHere, if_neg secondHere] at sameDev sameBlock
    exact (fresh hasDev second isSecond sameDev.symm sameBlock.symm).elim
  · rw [if_neg firstHere] at hasDev
    rw [if_neg firstHere, if_pos secondHere] at sameDev sameBlock
    exact (fresh (sameDev ▸ hasDev) first isFirst sameDev sameBlock).elim
  · rw [if_neg firstHere] at hasDev
    rw [if_neg firstHere, if_neg secondHere] at sameDev sameBlock
    exact lists.unique first second isFirst isSecond hasDev sameDev sameBlock

theorem claim_ring (lists : Lists kernel) (isBuffer : bh < kernel.nrBuffers) :
    ∃ nodes,
      Ring (claim bh dev block kernel).nextFreeLink
        (claim bh dev block kernel).prevFreeLink
        (claim bh dev block kernel).freeList nodes ∧
      ∀ other, other ∈ nodes ↔ other < kernel.nrBuffers := by
  obtain ⟨nodes, ring, members⟩ := (lists.congr (reset_sameLists bh kernel)).ring
  rw [(reset_sameLists bh kernel).nrBuffers] at members
  rw [← unhash_nextFree bh, ← unhash_prevFree bh, ← unhash_freeList bh] at ring
  obtain ⟨_, _, nextFreeLink, prevFreeLink⟩ := renamed_links bh dev block kernel
  obtain ⟨order, moved, sameMembers⟩ := ring_moved ring
    ((members bh).mpr isBuffer) nextFreeLink prevFreeLink rfl
  refine ⟨order, ?_, fun other => (sameMembers other).trans (members other)⟩
  unfold claim
  rw [enhash_nextFree, enhash_prevFree, enhash_freeList]
  exact moved

theorem claim_lists (lists : Lists kernel) (isBuffer : bh < kernel.nrBuffers)
    (fresh : dev ≠ 0 → ∀ other, other < kernel.nrBuffers →
      (kernel.buffers other).dev = dev →
        (kernel.buffers other).block ≠ block) :
    Lists (claim bh dev block kernel) where
  chained := by
    rw [claim_nrBuffers]
    exact claim_chained lists isBuffer
  loose := by
    rw [claim_nrBuffers]
    exact fun other => claim_loose lists isBuffer
  ring := by
    rw [claim_nrBuffers]
    exact claim_ring lists isBuffer
  unique := by
    rw [claim_nrBuffers]
    intro first second isFirst isSecond
    exact claim_unique lists fresh isFirst isSecond

/-- The end of `getblk`: the free list is never found corrupted. -/
theorem claimBuffer_eq (lists : Lists kernel) (isBuffer : bh < kernel.nrBuffers) :
    claimBuffer bh dev block kernel =
      .done () (claim bh dev block kernel) := by
  obtain ⟨nodes, ring, members⟩ := (lists.congr (reset_sameLists bh kernel)).ring
  rw [(reset_sameLists bh kernel).nrBuffers] at members
  rw [← unhash_nextFree bh, ← unhash_prevFree bh] at ring
  have isIn := (members bh).mpr isBuffer
  obtain ⟨after, _, toNext, _⟩ := ring.next_mem isIn
  obtain ⟨before, _, toPrev⟩ := ring.prev_mem isIn
  have hasNext : ((unhash bh (reset bh kernel)).buffers bh).nextFree =
      some after := toNext
  have hasPrev : ((unhash bh (reset bh kernel)).buffers bh).prevFree =
      some before := toPrev.2
  have removes : removeFromQueues bh (reset bh kernel) =
      .done () (unlinkFree bh (unhash bh (reset bh kernel))) := by
    show (if ((unhash bh (reset bh kernel)).buffers bh).prevFree = none ∨
        ((unhash bh (reset bh kernel)).buffers bh).nextFree = none then
          Prog.panic "Free block list corrupted"
        else Prog.modify (unlinkFree bh)) (unhash bh (reset bh kernel)) = _
    rw [if_neg (by simp [hasNext, hasPrev])]
    rfl
  show (removeFromQueues bh (reset bh kernel)).bind _ = _
  rw [removes]
  rfl

end Claimed

end Linux011.Fs
