import Linux011.Fs.CacheTasks
import Linux011.Library.Hoare

/-!
# Stores through `NULL` in the queues of the buffers

The queues of `buffer.c`, with a stop at a pointer that is `NULL` where the
code reads or writes a field.  The functions that go on past such a store are
the same up to there.
-/

namespace Linux011.Fs

open Coop Prog Links

/-- What a checked function stops with. -/
def nullAccess : String := "NULL buffer_head"

/-- A store to a field of a `buffer_head`. -/
def storeThrough (pointer : Option Nat) (change : Buffer → Buffer) : Sys Unit :=
  match pointer with
  | none => Prog.panic nullAccess
  | some bh => onBuffer bh change

/-- The hash queue half of `remove_from_queues`. -/
def unhashChecked (bh : Nat) : Sys Unit := do
  let kernel ← Prog.get
  let buffer := kernel.buffers bh
  let unlinkNext : Sys Unit :=
    if buffer.next = none then pure ()
    else storeThrough buffer.next fun next => { next with prev := buffer.prev }
  unlinkNext
  let unlinkPrev : Sys Unit :=
    if buffer.prev = none then pure ()
    else storeThrough buffer.prev fun prev => { prev with next := buffer.next }
  unlinkPrev
  Prog.modify fun kernel =>
    let slot := hashfn buffer.dev buffer.block
    if kernel.hashTable slot = some bh then kernel.storeHash slot buffer.next
    else kernel

/-- The free list half. -/
def unlinkFreeChecked (bh : Nat) : Sys Unit := do
  let kernel ← Prog.get
  let buffer := kernel.buffers bh
  if buffer.prevFree = none ∨ buffer.nextFree = none then
    Prog.panic "Free block list corrupted"
  else do
    storeThrough buffer.prevFree fun prev =>
      { prev with nextFree := buffer.nextFree }
    storeThrough buffer.nextFree fun next =>
      { next with prevFree := buffer.prevFree }
    Prog.modify fun kernel =>
      if kernel.freeList = bh then
        { kernel with freeList := buffer.nextFree.getD 0 }
      else kernel

def removeChecked (bh : Nat) : Sys Unit := do
  unhashChecked bh
  unlinkFreeChecked bh

/-- The free list half of `insert_into_queues`. -/
def linkFreeChecked (bh : Nat) : Sys Unit := do
  let kernel ← Prog.get
  let head := kernel.freeList
  let last := (kernel.buffers head).prevFree
  storeThrough (some bh) fun buffer => { buffer with nextFree := some head }
  storeThrough (some bh) fun buffer => { buffer with prevFree := last }
  storeThrough last fun buffer => { buffer with nextFree := some bh }
  storeThrough (some head) fun buffer => { buffer with prevFree := some bh }

/-- The buffer goes to the head of the chain of its block, if it has a
device. -/
def chainChecked (bh : Nat) : Sys Unit := do
  let kernel ← Prog.get
  let buffer := kernel.buffers bh
  if buffer.dev = 0 then pure ()
  else do
    let slot := hashfn buffer.dev buffer.block
    let head := kernel.hashTable slot
    storeThrough (some bh) fun buffer => { buffer with next := head }
    Prog.modify fun kernel => kernel.storeHash slot (some bh)
    storeThrough head fun buffer => { buffer with prev := some bh }

/-- The hash queue half. -/
def enhashChecked (bh : Nat) : Sys Unit := do
  storeThrough (some bh) fun buffer => { buffer with prev := none }
  storeThrough (some bh) fun buffer => { buffer with next := none }
  chainChecked bh

def insertChecked (bh : Nat) : Sys Unit := do
  linkFreeChecked bh
  enhashChecked bh

/-- The end of `getblk`. -/
def claimChecked (bh dev block : Nat) : Sys Unit := do
  onBuffer bh fun buffer =>
    { buffer with count := 1, dirt := false, uptodate := false }
  removeChecked bh
  onBuffer bh fun buffer => { buffer with dev := dev, block := block }
  insertChecked bh

/-- `getblk`, over what it does to the buffer it claims. -/
def getblkWith (claims : Nat → Nat → Nat → Sys Unit) :
    Nat → Nat → Nat → Sys Nat
  | 0, _, _ => Prog.spent
  | fuel + 1, dev, block => do
      match ← getHashTable fuel dev block with
      | some bh => return bh
      | none => do
          let kernel ← Prog.get
          match scanFree kernel kernel.nrBuffers kernel.freeList none with
          | none => do
              Prog.sleep
              getblkWith claims fuel dev block
          | some bh => do
              waitOnBuffer bh
              let kernel ← Prog.get
              if (kernel.buffers bh).countByte ≠ 0 then
                getblkWith claims fuel dev block
              else do
                let clean ← cleanWith (getblkWith claims fuel) fuel bh fuel
                if clean = false then getblkWith claims fuel dev block
                else do
                  let kernel ← Prog.get
                  match findBuffer kernel dev block with
                  | some _ => getblkWith claims fuel dev block
                  | none => do
                      claims bh dev block
                      return bh

theorem getblkWith_claimBuffer (fuel : Nat) :
    getblkWith claimBuffer fuel = getblk fuel := by
  induction fuel with
  | zero => rfl
  | succ fuel induction =>
      funext dev block
      unfold getblkWith getblk
      generalize getblk fuel = search at induction ⊢
      subst induction
      rfl

/-! ## Where the pointers are `NULL` -/

section Checked

variable {bh dev block : Nat} {kernel : Kernel}

/-- Behind a check of the pointer. -/
theorem storeThrough_guarded (pointer : Option Nat) (change : Buffer → Buffer) :
    (if pointer = none then pure () else storeThrough pointer change) =
      Prog.modify fun kernel => kernel.through pointer change := by
  cases pointer with
  | none => rfl
  | some bh => rfl

theorem unhashChecked_eq (bh : Nat) (kernel : Kernel) :
    unhashChecked bh kernel = .done () (unhash bh kernel) := by
  unfold unhashChecked
  simp only [storeThrough_guarded]
  rfl

theorem unlinkFreeChecked_eq {before after : Nat}
    (hasPrev : (kernel.buffers bh).prevFree = some before)
    (hasNext : (kernel.buffers bh).nextFree = some after) :
    unlinkFreeChecked bh kernel = .done () (unlinkFree bh kernel) := by
  show (if (kernel.buffers bh).prevFree = none ∨
    (kernel.buffers bh).nextFree = none then _ else _ : Sys Unit) kernel = _
  unfold unlinkFree
  dsimp only
  rw [hasPrev, hasNext, if_neg (by simp)]
  rfl

theorem linkFreeChecked_eq {last : Nat}
    (hasLast : (kernel.buffers kernel.freeList).prevFree = some last) :
    linkFreeChecked bh kernel = .done () (linkFree bh kernel) := by
  unfold linkFree
  dsimp only
  rw [hasLast]
  show (do
    storeThrough (some bh) fun buffer =>
      { buffer with nextFree := some kernel.freeList }
    storeThrough (some bh) fun buffer =>
      { buffer with prevFree := (kernel.buffers kernel.freeList).prevFree }
    storeThrough (kernel.buffers kernel.freeList).prevFree fun buffer =>
      { buffer with nextFree := some bh }
    storeThrough (some kernel.freeList) fun buffer =>
      { buffer with prevFree := some bh } : Sys Unit) kernel = _
  rw [hasLast]
  rfl

/-- The chain of the block that a buffer has is empty. -/
def Kernel.NoChain (kernel : Kernel) (dev block : Nat) : Prop :=
  dev ≠ 0 ∧ kernel.hashTable (hashfn dev block) = none

instance (kernel : Kernel) (dev block : Nat) :
    Decidable (kernel.NoChain dev block) :=
  inferInstanceAs (Decidable (_ ∧ _))

/-- The last store goes through `NULL` where the chain is empty. -/
theorem chainChecked_empty (hasDev : (kernel.buffers bh).dev ≠ 0)
    (empty : kernel.hashTable
      (hashfn (kernel.buffers bh).dev (kernel.buffers bh).block) = none) :
    chainChecked bh kernel = .panic nullAccess := by
  show (if (kernel.buffers bh).dev = 0 then _ else _ : Sys Unit) kernel = _
  rw [if_neg hasDev, empty]
  rfl

theorem enhashChecked_eq (bh : Nat) (kernel : Kernel) :
    enhashChecked bh kernel =
      if kernel.NoChain (kernel.buffers bh).dev (kernel.buffers bh).block then
        .panic nullAccess
      else .done () (enhash bh kernel) := by
  obtain ⟨cleared, isCleared⟩ : ∃ cleared,
      cleared = (kernel.storePrev (some bh) none).storeNext (some bh) none :=
    ⟨_, rfl⟩
  have own : cleared.buffers bh =
      { kernel.buffers bh with prev := none, next := none } := by
    rw [isCleared]
    unfold Kernel.storeNext Kernel.storePrev
    rw [Kernel.through_buffers, if_pos rfl, Kernel.through_buffers, if_pos rfl]
  have sameDev : (cleared.buffers bh).dev = (kernel.buffers bh).dev := by
    rw [own]
  have sameBlock : (cleared.buffers bh).block = (kernel.buffers bh).block := by
    rw [own]
  have sameHash : cleared.hashTable = kernel.hashTable := by
    rw [isCleared]
    rfl
  have starts : enhashChecked bh kernel = chainChecked bh cleared := by
    rw [isCleared]
    rfl
  have ends : enhash bh kernel =
      if (cleared.buffers bh).dev = 0 then cleared
      else
        ((cleared.storeNext (some bh) (cleared.hashTable
          (hashfn (cleared.buffers bh).dev (cleared.buffers bh).block))).storeHash
            (hashfn (cleared.buffers bh).dev (cleared.buffers bh).block)
            (some bh)).storePrev (cleared.hashTable
          (hashfn (cleared.buffers bh).dev (cleared.buffers bh).block))
            (some bh) := by
    rw [isCleared]
    rfl
  have noChain : kernel.NoChain (kernel.buffers bh).dev (kernel.buffers bh).block ↔
      cleared.NoChain (cleared.buffers bh).dev (cleared.buffers bh).block := by
    unfold Kernel.NoChain
    rw [sameDev, sameBlock, sameHash]
  rw [starts, ends]
  by_cases isEmpty : kernel.NoChain (kernel.buffers bh).dev
      (kernel.buffers bh).block
  · obtain ⟨hasDev, empty⟩ := noChain.mp isEmpty
    rw [if_pos isEmpty]
    exact chainChecked_empty hasDev empty
  · rw [if_neg isEmpty]
    show (if (cleared.buffers bh).dev = 0 then _ else _ : Sys Unit) cleared = _
    by_cases noDev : (cleared.buffers bh).dev = 0
    · rw [if_pos noDev, if_pos noDev]
      rfl
    · obtain ⟨head, isHead⟩ := Option.ne_none_iff_exists'.mp fun empty =>
        isEmpty (noChain.mpr ⟨noDev, empty⟩)
      rw [if_neg noDev, if_neg noDev, isHead]
      rfl

/-- The free list that is left has a last buffer. -/
theorem unlinkFree_last {nodes : List Nat}
    (ring : Ring kernel.nextFreeLink kernel.prevFreeLink kernel.freeList nodes)
    (member : bh ∈ nodes) :
    ∃ last, (unlinkFree bh kernel).prevFreeLink
      (unlinkFree bh kernel).freeList = some last := by
  obtain ⟨after, isAfter, toNext, _⟩ := ring.next_mem member
  have headIn : (unlinkFree bh kernel).freeList ∈ nodes := by
    rw [unlinkFree_freeList]
    split
    · rw [toNext]
      exact isAfter
    · exact List.mem_of_mem_head? ring.head
  rw [unlinkFree_prevFree]
  unfold bypassPrev
  split
  · obtain ⟨before, _, toPrev⟩ := ring.prev_mem member
    exact ⟨before, toPrev.2⟩
  · obtain ⟨before, _, toPrev⟩ := ring.prev_mem headIn
    exact ⟨before, toPrev.2⟩

/-- What `getblk` does with the buffer it has found: the one access through
`NULL` is that of a chain that is empty once the buffer is off its own. -/
theorem claimChecked_eq (lists : Lists kernel) (isBuffer : bh < kernel.nrBuffers)
    (dev block : Nat) :
    claimChecked bh dev block kernel =
      if (unhash bh (reset bh kernel)).NoChain dev block then .panic nullAccess
      else .done () (claim bh dev block kernel) := by
  obtain ⟨nodes, ring, members⟩ := (lists.congr (reset_sameLists bh kernel)).ring
  rw [(reset_sameLists bh kernel).nrBuffers] at members
  rw [← unhash_nextFree bh, ← unhash_prevFree bh, ← unhash_freeList bh] at ring
  have isIn := (members bh).mpr isBuffer
  obtain ⟨after, _, toNext, _⟩ := ring.next_mem isIn
  obtain ⟨before, _, toPrev⟩ := ring.prev_mem isIn
  have removes : removeChecked bh (reset bh kernel) =
      .done () (unlinkFree bh (unhash bh (reset bh kernel))) := by
    show (unhashChecked bh (reset bh kernel)).bind _ = _
    rw [unhashChecked_eq]
    exact unlinkFreeChecked_eq toPrev.2 toNext
  obtain ⟨last, hasLast⟩ := unlinkFree_last ring isIn
  have renamedLast : (renamed bh dev block kernel).prevFreeLink
      (renamed bh dev block kernel).freeList = some last := by
    rw [(renamed_links bh dev block kernel).2.2.2]
    exact hasLast
  obtain ⟨linked, isLinked⟩ : ∃ linked,
      linked = linkFree bh (renamed bh dev block kernel) := ⟨_, rfl⟩
  have sameBare : linked.bare =
      (kernel.setBuffer bh ((kernel.buffers bh).claimed dev block)).bare := by
    rw [isLinked]
    exact (linkFree_bare bh _).trans (renamed_bare bh dev block kernel)
  have ownDev : (linked.buffers bh).dev = dev := by
    rw [Kernel.bare_dev sameBare, Kernel.setBuffer_same]
    rfl
  have ownBlock : (linked.buffers bh).block = block := by
    rw [Kernel.bare_block sameBare, Kernel.setBuffer_same]
    rfl
  have sameHash : linked.hashTable = (unhash bh (reset bh kernel)).hashTable := by
    rw [isLinked, linkFree_hashTable]
    exact unlinkFree_hashTable bh _
  have inserts : insertChecked bh (renamed bh dev block kernel) =
      enhashChecked bh linked := by
    show (linkFreeChecked bh (renamed bh dev block kernel)).bind _ = _
    rw [linkFreeChecked_eq renamedLast, ← isLinked]
    rfl
  have noChain : linked.NoChain (linked.buffers bh).dev (linked.buffers bh).block ↔
      (unhash bh (reset bh kernel)).NoChain dev block := by
    unfold Kernel.NoChain
    rw [ownDev, ownBlock, sameHash]
  have claims : claimChecked bh dev block kernel = enhashChecked bh linked := by
    show (removeChecked bh (reset bh kernel)).bind _ = _
    rw [removes, ← inserts]
    rfl
  rw [claims, enhashChecked_eq]
  by_cases isEmpty : (unhash bh (reset bh kernel)).NoChain dev block
  · rw [if_pos isEmpty, if_pos (noChain.mpr isEmpty)]
  · rw [if_neg isEmpty, if_neg fun empty => isEmpty (noChain.mp empty), isLinked]
    rfl

end Checked

/-! ## Empty chains -/

/-- No chain has a buffer, and no buffer has to be waited for or written. -/
structure Unhashed (kernel : Kernel) : Prop where
  lists : Lists kernel
  empty : ∀ slot, kernel.hashTable slot = none
  unlocked : ∀ bh, (kernel.buffers bh).lock = false
  clean : ∀ bh, (kernel.buffers bh).dirt = false

/-- Other tasks release buffers. -/
inductive Releases : Kernel → Kernel → Prop where
  | refl (kernel : Kernel) : Releases kernel kernel
  | release {kernel next : Kernel} (bh : Nat)
      (used : (kernel.buffers bh).countByte ≠ 0)
      (rest : Releases
        (kernel.setBuffer bh (kernel.buffers bh).dropCount) next) :
      Releases kernel next

theorem bufferInit_unhashed {count : Nat} (some : 0 < count)
    (memory : Nat → Buffer) (kernel : Kernel) :
    Unhashed (bufferInit count memory kernel) where
  lists := bufferInit_lists some memory kernel
  empty := fun _ => rfl
  unlocked := fun _ => rfl
  clean := fun _ => rfl

section Unhashed

variable {kernel next : Kernel} {bh dev block : Nat}

theorem Unhashed.release (unhashed : Unhashed kernel) (bh : Nat) :
    Unhashed (kernel.setBuffer bh (kernel.buffers bh).dropCount) where
  lists := unhashed.lists.congr (sameLists_setBuffer rfl rfl rfl rfl rfl rfl)
  empty := unhashed.empty
  unlocked := by
    intro other
    rw [Kernel.setBuffer_buffers]
    split
    · exact unhashed.unlocked bh
    · exact unhashed.unlocked other
  clean := by
    intro other
    rw [Kernel.setBuffer_buffers]
    split
    · exact unhashed.clean bh
    · exact unhashed.clean other

theorem Unhashed.releases (unhashed : Unhashed kernel)
    (releases : Releases kernel next) : Unhashed next := by
  induction releases with
  | refl kernel => exact unhashed
  | release bh _ _ induction => exact induction (unhashed.release bh)

/-- A buffer may be released as often as it is in use. -/
theorem releases_unused (bh : Nat) (kernel : Kernel) :
    ∃ next, Releases kernel next ∧ next.nrBuffers = kernel.nrBuffers ∧
      (next.buffers bh).countByte = 0 := by
  obtain ⟨used, isUsed⟩ : ∃ used, (kernel.buffers bh).countByte = used :=
    ⟨_, rfl⟩
  induction used generalizing kernel with
  | zero => exact ⟨kernel, .refl kernel, rfl, isUsed⟩
  | succ used induction =>
      have fewer : ((kernel.setBuffer bh
          (kernel.buffers bh).dropCount).buffers bh).countByte = used := by
        rw [Kernel.setBuffer_same]
        unfold Buffer.dropCount
        rw [if_neg (by omega)]
        unfold Buffer.countByte at isUsed ⊢
        dsimp only
        omega
      obtain ⟨next, releases, sameNumber, unused⟩ := induction _ fewer
      exact ⟨next, .release bh (by omega) releases, sameNumber, unused⟩

theorem Unhashed.missing (unhashed : Unhashed kernel) (dev block : Nat) :
    findBuffer kernel dev block = none := by
  unfold findBuffer
  rw [unhashed.empty]
  cases kernel.nrBuffers with
  | zero => rfl
  | succ fuel => rfl

/-- Without a device the buffer goes to no chain. -/
theorem Unhashed.claim (unhashed : Unhashed kernel)
    (isBuffer : bh < kernel.nrBuffers) (block : Nat) :
    Unhashed (claim bh 0 block kernel) where
  lists := claim_lists unhashed.lists isBuffer fun hasDev => (hasDev rfl).elim
  empty := by
    have noDev : ((linkFree bh (renamed bh 0 block kernel)).buffers bh).dev =
        0 := by
      rw [Kernel.bare_dev ((linkFree_bare bh _).trans
        (renamed_bare bh 0 block kernel)), Kernel.setBuffer_same]
      rfl
    have renamedHash : (renamed bh 0 block kernel).hashTable =
        (unhash bh (reset bh kernel)).hashTable := unlinkFree_hashTable bh _
    intro slot
    unfold Fs.claim
    rw [enhash_hashTable, if_neg fun both => both.1 noDev, linkFree_hashTable,
      renamedHash, unhash_hashTable]
    split <;> rename_i isHead
    · have empty := unhashed.empty slot
      exact nomatch isHead.2.symm.trans empty
    · exact unhashed.empty slot
  unlocked := by
    intro other
    have bares := congrArg Buffer.lock
      (Kernel.bare_buffer (claim_bare bh 0 block kernel) other)
    refine bares.trans ?_
    rw [Kernel.setBuffer_buffers]
    split
    · exact unhashed.unlocked bh
    · exact unhashed.unlocked other
  clean := by
    intro other
    have bares := congrArg Buffer.dirt
      (Kernel.bare_buffer (claim_bare bh 0 block kernel) other)
    refine bares.trans ?_
    rw [Kernel.setBuffer_buffers]
    split
    · rfl
    · exact unhashed.clean other

theorem Unhashed.noChain (unhashed : Unhashed kernel) (bh dev block : Nat) :
    (unhash bh (reset bh kernel)).NoChain dev block ↔ dev ≠ 0 := by
  unfold Kernel.NoChain
  refine and_iff_left ?_
  rw [unhash_hashTable, if_neg]
  · exact unhashed.empty _
  · rintro ⟨_, isHead⟩
    exact nomatch isHead.symm.trans (unhashed.empty _)

/-- `getblk` with no chain to look at. -/
theorem getblkWith_unhashed (claims : Nat → Nat → Nat → Sys Unit) (fuel : Nat)
    (unhashed : Unhashed kernel) (dev block : Nat) :
    getblkWith claims (fuel + 2) dev block kernel =
      match scanFree kernel kernel.nrBuffers kernel.freeList none with
      | none => .asleep (fun _ => true) kernel fun next =>
          getblkWith claims (fuel + 1) dev block next
      | some bh => (claims bh dev block kernel).bind fun _ => pure bh := by
  have looks : getHashTable (fuel + 1) dev block kernel = .done none kernel := by
    show (match findBuffer kernel dev block with
      | none => _
      | some bh => _ : Sys (Option Nat)) kernel = _
    rw [unhashed.missing]
    rfl
  show (getHashTable (fuel + 1) dev block kernel).bind _ = _
  rw [looks]
  show (match scanFree kernel kernel.nrBuffers kernel.freeList none with
    | none => _
    | some bh => _ : Sys Nat) kernel = _
  cases scans : scanFree kernel kernel.nrBuffers kernel.freeList none with
  | none => rfl
  | some bh =>
      obtain ⟨_, unused⟩ := scanFree_some unhashed.lists scans
      have waits : waitOnBuffer bh kernel = .done () kernel := by
        show (if (!(kernel.buffers bh).lock) = true then _ else _ : Run Kernel Unit) = _
        rw [unhashed.unlocked]
        rfl
      have cleans (rounds : Nat) :
          cleanWith (getblkWith claims (fuel + 1)) (fuel + 1) bh (rounds + 1)
            kernel = .done true kernel := by
        show (if (kernel.buffers bh).dirt = false then _ else _ : Sys Bool)
          kernel = _
        rw [if_pos (unhashed.clean bh)]
        rfl
      show (waitOnBuffer bh kernel).bind _ = _
      rw [waits]
      show (if (kernel.buffers bh).countByte ≠ 0 then _ else _ : Sys Nat)
        kernel = _
      rw [if_neg fun used => used unused]
      show (cleanWith (getblkWith claims (fuel + 1)) (fuel + 1) bh (fuel + 1)
        kernel).bind _ = _
      rw [cleans]
      show (match findBuffer kernel dev block with
        | some _ => _
        | none => _ : Sys Nat) kernel = _
      rw [unhashed.missing]
      rfl

/-- What the end of `getblk` does without a chain, all of `getblk` does. -/
theorem getblkWith_meets {fate : Fate} {claims : Nat → Nat → Nat → Sys Unit}
    {post : Kernel → Prop} (ranOut : fate.spent)
    (ends : ∀ state bh, Unhashed state → bh < state.nrBuffers →
      (claims bh dev block state).unmarked.wp fate Releases fun _ => post)
    (fuel : Nat) (unhashed : Unhashed kernel) :
    (getblkWith claims fuel dev block kernel).unmarked.wp fate Releases
      fun _ => post := by
  induction fuel generalizing kernel with
  | zero => exact ranOut
  | succ fuel induction =>
      cases fuel with
      | zero => exact ranOut
      | succ fuel =>
          rw [getblkWith_unhashed claims fuel unhashed]
          cases scans : scanFree kernel kernel.nrBuffers kernel.freeList none with
          | none =>
              intro next releases _
              exact induction (unhashed.releases releases)
          | some bh =>
              obtain ⟨isBuffer, _⟩ := scanFree_some unhashed.lists scans
              show ((claims bh dev block kernel).bind _).unmarked.wp _ _ _
              rw [Run.unmarked_bind]
              exact Run.wp_bind.mpr (ends kernel bh unhashed isBuffer)

end Unhashed

/-! ## Calls from `buffer_init` on -/

/-- A call to one of the functions that take and release buffers. -/
inductive BufferCall where
  | getblk (dev block : Nat)
  | brelse (buf : Option Nat)

namespace BufferCall

/-- The call can return with this state. -/
def MayReach (kernel : Kernel) (call : BufferCall) (final : Kernel) : Prop :=
  match call with
  | .getblk dev block => ∃ fuel bh,
      (Fs.getblk fuel dev block kernel).MayReturn True Releases bh final
  | .brelse buf => (Fs.brelse buf kernel).MayReturn True Releases () final

/-- No access of the call to a `buffer_head` goes through `NULL`.  `brelse`
calls neither function. -/
def NullFree (kernel : Kernel) (call : BufferCall) : Prop :=
  match call with
  | .getblk dev block => ∀ fuel,
      (getblkWith claimChecked fuel dev block kernel).unmarked.wp
        { panic := fun message => message ≠ nullAccess
          spent := True
          crossed := True } Releases fun _ _ => True
  | .brelse _ => True

/-- The call asks for no block of a device. -/
def Deviceless : BufferCall → Prop
  | .getblk dev _ => dev = 0
  | .brelse _ => True

end BufferCall

/-- Calls one after another, the last first, each with the state before it. -/
inductive BufferCalls (start : Kernel) :
    List (Kernel × BufferCall) → Kernel → Prop where
  | none : BufferCalls start [] start
  | call {calls : List (Kernel × BufferCall)} {kernel final : Kernel}
      (call : BufferCall) (before : BufferCalls start calls kernel)
      (reaches : call.MayReach kernel final) :
      BufferCalls start ((kernel, call) :: calls) final

section BufferCalls

variable {kernel final start : Kernel} {calls : List (Kernel × BufferCall)}
  {call : BufferCall}

theorem getblk_unhashed (unhashed : Unhashed kernel) {fuel block bh : Nat}
    (returns : (getblk fuel 0 block kernel).MayReturn True Releases bh final) :
    Unhashed final := by
  rw [← getblkWith_claimBuffer] at returns
  refine returns.meets (@getblkWith_meets kernel 0 block .any claimBuffer
    Unhashed trivial ?_ fuel unhashed)
  intro state bh unhashed isBuffer
  rw [claimBuffer_eq unhashed.lists isBuffer]
  exact unhashed.claim isBuffer block

theorem brelse_unhashed (unhashed : Unhashed kernel) {buf : Option Nat}
    (returns : (brelse buf kernel).MayReturn True Releases () final) :
    Unhashed final := by
  cases buf with
  | none =>
      obtain ⟨_, rfl⟩ := returns
      exact unhashed
  | some bh =>
      have waits : waitOnBuffer bh kernel = .done () kernel := by
        show (if (!(kernel.buffers bh).lock) = true then _ else _ : Run Kernel Unit) = _
        rw [unhashed.unlocked]
        rfl
      have releases : ((waitOnBuffer bh kernel).bind _).MayReturn True Releases ()
        final := returns
      rw [waits] at releases
      have drops : (if (kernel.buffers bh).countByte = 0 then _ else _ : Sys Unit)
        kernel |>.MayReturn True Releases () final := releases
      split at drops
      · exact drops.elim
      · obtain ⟨_, rfl⟩ := drops
        exact unhashed.release bh

theorem BufferCall.Deviceless.unhashed (deviceless : call.Deviceless)
    (unhashed : Unhashed kernel) (reaches : call.MayReach kernel final) :
    Unhashed final := by
  cases call with
  | getblk dev block =>
      obtain ⟨fuel, bh, returns⟩ := reaches
      have noDev : dev = 0 := deviceless
      subst noDev
      exact getblk_unhashed unhashed returns
  | brelse buf => exact brelse_unhashed unhashed reaches

/-- The first block of a device goes on an empty chain. -/
theorem getblk_storesNull (unhashed : Unhashed kernel)
    (some : 0 < kernel.nrBuffers) {dev : Nat} (hasDev : dev ≠ 0) (block : Nat) :
    ¬ (BufferCall.getblk dev block).NullFree kernel := by
  have taken {state : Kernel} {bh : Nat} (unhashed : Unhashed state) (fuel : Nat)
      (scans : scanFree state state.nrBuffers state.freeList none = .some bh) :
      getblkWith claimChecked (fuel + 2) dev block state = .panic nullAccess := by
    obtain ⟨isBuffer, _⟩ := scanFree_some unhashed.lists scans
    rw [getblkWith_unhashed claimChecked fuel unhashed, scans]
    dsimp only
    rw [claimChecked_eq unhashed.lists isBuffer,
      if_pos ((unhashed.noChain bh dev block).mpr hasDev)]
    rfl
  intro nullFree
  have runs := nullFree 3
  cases scans : scanFree kernel kernel.nrBuffers kernel.freeList none with
  | some bh =>
      rw [taken unhashed 1 scans] at runs
      exact runs rfl
  | none =>
      -- it sleeps until a buffer is released
      rw [getblkWith_unhashed claimChecked 1 unhashed, scans] at runs
      obtain ⟨next, releases, sameNumber, unused⟩ := releases_unused 0 kernel
      have isUnhashed := unhashed.releases releases
      obtain ⟨bh, found⟩ := Option.isSome_iff_exists.mp
        (scanFree_isSome isUnhashed.lists (sameNumber ▸ some) unused)
      have woken : (getblkWith claimChecked 2 dev block next).unmarked.wp _ _ _ :=
        runs next releases rfl
      rw [taken isUnhashed 0 found] at woken
      exact woken rfl

theorem BufferCall.nullFree_iff (unhashed : Unhashed kernel)
    (some : 0 < kernel.nrBuffers) (call : BufferCall) :
    call.NullFree kernel ↔ call.Deviceless := by
  cases call with
  | getblk dev block =>
      by_cases noDev : dev = 0
      · refine iff_of_true ?_ noDev
        subst noDev
        intro fuel
        refine getblkWith_meets trivial ?_ fuel unhashed
        intro state bh unhashed isBuffer
        rw [claimChecked_eq unhashed.lists isBuffer, if_neg fun noChain =>
          (unhashed.noChain bh 0 block).mp noChain rfl]
        trivial
      · exact iff_of_false (getblk_storesNull unhashed some noDev block) noDev
  | brelse buf => exact Iff.rfl

/-- There is a free list only over some buffer. -/
theorem Lists.some (lists : Lists kernel) : 0 < kernel.nrBuffers := by
  obtain ⟨nodes, ring, members⟩ := lists.ring
  have isIn := List.mem_of_mem_head? ring.head
  exact Nat.zero_lt_of_lt ((members kernel.freeList).mp isIn)

theorem BufferCalls.unhashed (ran : BufferCalls start calls final)
    (unhashed : Unhashed start)
    (deviceless : ∀ entry ∈ calls, entry.2.Deviceless) : Unhashed final := by
  induction ran with
  | none => exact unhashed
  | @call calls kernel final call before reaches induction =>
      have isUnhashed := induction fun entry isIn =>
        deviceless entry (List.mem_cons_of_mem _ isIn)
      exact (deviceless (kernel, call) List.mem_cons_self).unhashed isUnhashed
        reaches

/-- In a run from `buffer_init` on, no call goes through `NULL` if and only if
no call asks for a block of a device. -/
theorem getblk_nullFree_iff {count : Nat} (some : 0 < count)
    (memory : Nat → Buffer) (kernel : Kernel)
    (ran : BufferCalls (bufferInit count memory kernel) calls final) :
    (∀ entry ∈ calls, entry.2.NullFree entry.1) ↔
      ∀ entry ∈ calls, entry.2.Deviceless := by
  induction ran with
  | none => simp
  | @call calls state final call before reaches induction =>
      rw [List.forall_mem_cons, List.forall_mem_cons, induction]
      refine and_congr_left fun deviceless => ?_
      have unhashed := before.unhashed (bufferInit_unhashed some memory kernel)
        deviceless
      exact BufferCall.nullFree_iff unhashed unhashed.lists.some call

end BufferCalls

/-- A buffer taken for no device and released again. -/
theorem getblk_nullFree_deviceless :
    ∃ state final,
      BufferCalls (bufferInit 2 idleKernel.buffers idleKernel)
        [(state, .brelse (some 0)),
          (bufferInit 2 idleKernel.buffers idleKernel, .getblk 0 5)] final ∧
      ∀ entry ∈ [(state, BufferCall.brelse (some 0)),
        (bufferInit 2 idleKernel.buffers idleKernel, .getblk 0 5)],
          entry.2.NullFree entry.1 := by
  obtain ⟨state, takes, final, gives⟩ : ∃ state,
      getblk 2 0 5 (bufferInit 2 idleKernel.buffers idleKernel) =
        .done 0 state ∧
      ∃ final, brelse (some 0) state = .done () final := ⟨_, rfl, _, rfl⟩
  have ran : BufferCalls (bufferInit 2 idleKernel.buffers idleKernel)
      [(state, .brelse (some 0)),
        (bufferInit 2 idleKernel.buffers idleKernel, .getblk 0 5)] final := by
    refine .call _ (.call _ .none ⟨2, 0, ?_⟩) ?_
    · rw [takes]
      exact ⟨rfl, rfl⟩
    · show (brelse (some 0) state).MayReturn True Releases () final
      rw [gives]
      exact ⟨rfl, rfl⟩
  refine ⟨state, final, ran, ?_⟩
  refine (getblk_nullFree_iff (by decide) idleKernel.buffers idleKernel ran).mpr ?_
  simp [BufferCall.Deviceless]

/-- The first block of a hard disk that is asked for. -/
theorem getblk_hashesThroughNull :
    ∃ final, BufferCalls (bufferInit 2 idleKernel.buffers idleKernel)
        [(bufferInit 2 idleKernel.buffers idleKernel, .getblk 769 1)] final ∧
      ¬ (BufferCall.getblk 769 1).NullFree
        (bufferInit 2 idleKernel.buffers idleKernel) := by
  obtain ⟨final, takes⟩ : ∃ final,
      getblk 2 769 1 (bufferInit 2 idleKernel.buffers idleKernel) =
        .done 0 final := ⟨_, rfl⟩
  refine ⟨final, .call _ .none ⟨2, 0, takes ▸ ⟨rfl, rfl⟩⟩, ?_⟩
  intro nullFree
  have stores : getblkWith claimChecked 2 769 1
      (bufferInit 2 idleKernel.buffers idleKernel) = .panic nullAccess := rfl
  have runs := nullFree 2
  rw [stores] at runs
  exact runs rfl

end Linux011.Fs
