import Linux011.Fs.CacheKeeps
import Linux011.Fs.CacheTasks

/-!
# The queues after any calls

Whatever one task calls, and also where `b_count` wraps, the hash chains and
the free list stay in order: each function of the cache keeps them, the marks
that bound the references left out.
-/

namespace Linux011.Fs

open Coop Prog Links

/-- One pass of `invalidate_buffers`. -/
def invalidatePass (dev bh : Nat) : Sys Unit := do
  let kernel ← Prog.get
  if (kernel.buffers bh).dev ≠ dev then pure ()
  else do
    waitOnBuffer bh
    let kernel ← Prog.get
    if (kernel.buffers bh).dev = dev then
      onBuffer bh fun buffer => { buffer with uptodate := false, dirt := false }
    else pure ()

def invalidateBuffers (dev : Nat) : Sys Unit := do
  let kernel ← Prog.get
  Prog.upTo (invalidatePass dev) kernel.nrBuffers

/-- What a task calls. -/
inductive QueueCall where
  | getblk (dev block : Nat)
  | getHashTable (dev block : Nat)
  | brelse (buf : Option Nat)
  | invalidateBuffers (dev : Nat)

def QueueCall.perform (fuel : Nat) : QueueCall → Sys Unit
  | .getblk dev block => do
      let _ ← Fs.getblk fuel dev block
      return ()
  | .getHashTable dev block => do
      let _ ← Fs.getHashTable fuel dev block
      return ()
  | .brelse buf => Fs.brelse buf
  | .invalidateBuffers dev => Fs.invalidateBuffers dev

def performCalls (fuel : Nat) : List QueueCall → Sys Unit
  | [] => return ()
  | call :: rest => do
      call.perform fuel
      performCalls fuel rest

/-- Any way to stop is allowed but that of finding the free list corrupted. -/
def uncorrupted : Fate where
  panic := fun message => message ≠ "Free block list corrupted"
  spent := True
  crossed := True

/-- The lists of a cache of `size` buffers. -/
structure Ordered (size : Nat) (kernel : Kernel) : Prop where
  nrBuffers : kernel.nrBuffers = size
  lists : Lists kernel

theorem Ordered.quiet {size : Nat} {kernel next : Kernel}
    (ordered : Ordered size kernel) (quiet : Quiet kernel next) :
    Ordered size next where
  nrBuffers := quiet.same.nrBuffers.trans ordered.nrBuffers
  lists := ordered.lists.congr quiet.same

theorem Ordered.setBuffer {size : Nat} {kernel : Kernel} {bh : Nat}
    {buffer : Buffer} (ordered : Ordered size kernel)
    (same : SameLists kernel (kernel.setBuffer bh buffer)) :
    Ordered size (kernel.setBuffer bh buffer) where
  nrBuffers := same.nrBuffers.trans ordered.nrBuffers
  lists := ordered.lists.congr same

/-! ## The functions of the cache -/

section Functions

variable {size : Nat} {α : Type}

/-- Each step of the cache keeps the lists, whatever buffers it is about. -/
theorem ordered_keeps :
    CacheKeeps uncorrupted Quiet size (Ordered size) (fun _ => True)
      fun _ _ => True where
  spent := trivial
  panic := show ∀ message ∈ cachePanics, message ≠ _ by decide
  lists := Ordered.lists
  nrBuffers := Ordered.nrBuffers
  lasts := Ordered.quiet
  inode := fun _ _ _ ordered =>
    ordered.quiet (Quiet.elsewhere rfl rfl rfl rfl)
  lock := fun _ _ ordered => ordered.quiet Quiet.setBuffer
  file := by
    intro kernel major slot bh rw ordered _
    have filled : Quiet kernel
        (kernel.setRequest slot (requestOf kernel bh rw)) :=
      Quiet.elsewhere rfl rfl rfl rfl
    exact ordered.quiet (filled.trans (addRequest_quiet _ _ _))
  found := fun _ _ _ _ => trivial
  unused := fun _ _ => trivial
  count := fun _ ordered _ =>
    ordered.setBuffer (sameLists_setBuffer rfl rfl rfl rfl rfl rfl)
  store := fun _ _ ordered _ => ordered.quiet Quiet.setBuffer
  claim := by
    intro kernel bh dev block ordered _ _ isBuffer missing
    refine ⟨claim_nrBuffers.trans ordered.nrBuffers,
      claim_lists ordered.lists (ordered.nrBuffers ▸ isBuffer) ?_⟩
    intro hasDev other isOther sameDev
    exact findBuffer_none ordered.lists missing hasDev isOther sameDev
  locate := by
    intro kernel fuel index ordered
    have lasts (kernel next : Kernel) (ordered : Ordered size kernel)
        (quiet : Quiet kernel next) : Ordered size next :=
      ordered.quiet quiet
    refine hoare_at ordered (hoare_post (getSuper_finds trivial lasts _ fuel)
      fun _ _ found => ?_)
    exact ⟨found.1, fun _ _ => trivial⟩

/-- The program keeps the lists, whatever marks it crosses. -/
abbrev Orders (size : Nat) (program : Sys α) : Prop :=
  Stays uncorrupted Quiet (Ordered size) program

theorem getblk_orders (fuel dev block : Nat) :
    Orders size (getblk fuel dev block) :=
  hoare_post (ordered_keeps.getblk fuel trivial) fun _ _ returned => returned.2

theorem getHashTable_orders (fuel dev block : Nat) :
    Orders size (getHashTable fuel dev block) :=
  hoare_post (ordered_keeps.getHashTable trivial fuel)
    fun _ _ returned => returned.2

theorem brelse_orders (buf : Option Nat) : Orders size (brelse buf) := by
  cases buf with
  | none => exact stays_pure
  | some bh => exact ordered_keeps.brelse trivial

theorem invalidateBuffers_orders (dev : Nat) :
    Orders size (invalidateBuffers dev) := by
  apply stays_read
  intro kernel
  apply stays_upTo
  intro bh
  apply stays_read
  intro kernel
  split
  · exact stays_pure
  · apply stays_bind (ordered_keeps.waitUntil _)
    intro _
    apply stays_read
    intro kernel
    split
    · exact stays_modify fun _ ordered => ordered.quiet Quiet.setBuffer
    · exact stays_pure

theorem performCalls_orders (fuel : Nat) (calls : List QueueCall) :
    Orders size (performCalls fuel calls) := by
  induction calls with
  | nil => exact stays_pure
  | cons call rest induction =>
      refine stays_bind ?_ fun _ => induction
      cases call with
      | getblk dev block =>
          exact stays_bind (getblk_orders fuel dev block) fun _ => stays_pure
      | getHashTable dev block =>
          exact stays_bind (getHashTable_orders fuel dev block) fun _ =>
            stays_pure
      | brelse buf => exact brelse_orders buf
      | invalidateBuffers dev => exact invalidateBuffers_orders dev

end Functions

/-! ## What the lists are good for -/

variable {kernel : Kernel} {size : Nat}

/-- The walk of `getblk` ends where the ring closes. -/
theorem scanFree_closes {nodes : List Nat} {start fuel : Nat}
    {best : Option Nat}
    (chain : nodes.IsChain (Adjacent kernel.nextFreeLink kernel.prevFreeLink))
    (closed : ∀ last ∈ nodes.getLast?,
      kernel.nextFreeLink last = some kernel.freeList)
    (notHead : ∀ node ∈ nodes.tail, node ≠ kernel.freeList)
    (isStart : nodes.head? = some start) (enough : nodes.length ≤ fuel) :
    scanFree kernel fuel start best =
      scanFree kernel nodes.length start best := by
  induction nodes generalizing fuel start best with
  | nil => cases isStart
  | cons node rest induction =>
      cases isStart
      cases fuel with
      | zero => exact absurd enough (Nat.not_succ_le_zero _)
      | succ fuel =>
          rw [List.length_cons]
          unfold scanFree
          dsimp only
          split
          · rfl
          · cases rest with
            | nil =>
                have toHead : (kernel.buffers node).nextFree =
                    some kernel.freeList := closed node rfl
                rw [toHead]
                dsimp only
                rw [if_pos rfl, if_pos rfl]
            | cons following tail =>
                obtain ⟨link, chainRest⟩ := List.isChain_cons.mp chain
                have toNext : (kernel.buffers node).nextFree =
                    some following := (link following rfl).1
                have goesOn : following ≠ kernel.freeList :=
                  notHead following List.mem_cons_self
                rw [toNext]
                dsimp only
                rw [if_neg goesOn, if_neg goesOn]
                apply induction chainRest _ _ rfl
                  (Nat.le_of_succ_le_succ enough)
                · intro last isLast
                  exact closed last (by rwa [List.getLast?_cons_cons])
                · intro other isOther
                  exact notHead other (List.mem_cons_of_mem _ isOther)

/-- What the search and the scan rely on.  A buffer without a device is no
block's. -/
structure InOrder (size : Nat) (kernel : Kernel) : Prop where
  ring : ∃ nodes,
    Ring kernel.nextFreeLink kernel.prevFreeLink kernel.freeList nodes ∧
      ∀ bh, bh ∈ nodes ↔ bh < size
  chains : ∀ slot, ∃ nodes,
    Listed kernel.nextLink kernel.prevLink (kernel.hashTable slot) nodes ∧
      ∀ bh, bh ∈ nodes ↔ (bh < size ∧ (kernel.buffers bh).dev ≠ 0) ∧
        hashfn (kernel.buffers bh).dev (kernel.buffers bh).block = slot
  finds : ∀ dev block, (findBuffer kernel dev block).isSome ↔
    ∃ bh, bh < size ∧ (kernel.buffers bh).dev ≠ 0 ∧
      (kernel.buffers bh).dev = dev ∧ (kernel.buffers bh).block = block
  scans : ∀ fuel, size ≤ fuel → scanFree kernel fuel kernel.freeList none =
    scanFree kernel size kernel.freeList none

theorem Ordered.inOrder (ordered : Ordered size kernel) :
    InOrder size kernel := by
  obtain ⟨isSize, lists⟩ := ordered
  subst isSize
  refine ⟨lists.ring, lists.chained, ?_, ?_⟩
  · intro dev block
    constructor
    · intro isFound
      obtain ⟨bh, found⟩ := Option.isSome_iff_exists.mp isFound
      obtain ⟨nodes, search, members⟩ := findBuffer_eq lists dev block
      rw [search] at found
      have isIn := List.mem_of_find?_eq_some found
      have matching := List.find?_some found
      rw [decide_eq_true_eq] at matching
      obtain ⟨isBuffer, hasDev⟩ := ((members bh).mp isIn).1
      exact ⟨bh, isBuffer, hasDev, matching⟩
    · rintro ⟨bh, isBuffer, hasDev, sameDev, sameBlock⟩
      rw [findBuffer_of_cached lists (sameDev ▸ hasDev) isBuffer sameDev
        sameBlock]
      rfl
  · intro fuel enough
    obtain ⟨nodes, ring, members⟩ := lists.ring
    have short : nodes.length ≤ kernel.nrBuffers :=
      length_le_of_lt ring.nodup fun node isIn => (members node).mp isIn
    have closed (last : Nat) (isLast : last ∈ nodes.getLast?) :
        kernel.nextFreeLink last = some kernel.freeList :=
      (ring.closed last isLast _ ring.head).1
    have notHead (node : Nat) (isTail : node ∈ nodes.tail) :
        node ≠ kernel.freeList := by
      rintro rfl
      have start := ring.head
      have nodup := ring.nodup
      cases nodes with
      | nil => cases isTail
      | cons first rest =>
          cases start
          exact (List.nodup_cons.mp nodup).1 isTail
    rw [scanFree_closes ring.chain closed notHead ring.head
        (le_trans short enough),
      scanFree_closes ring.chain closed notHead ring.head short]

/-- The lists are in order after any calls of one task, and no call finds the
free list corrupted. -/
theorem performCalls_inOrder {count : Nat} (some : 0 < count)
    (memory : Nat → Buffer) (kernel : Kernel) (fuel : Nat)
    (calls : List QueueCall) :
    (performCalls fuel calls).unmarked.wp uncorrupted Quiet
      (fun _ next => InOrder count next) (bufferInit count memory kernel) := by
  have start : Ordered count (bufferInit count memory kernel) :=
    ⟨rfl, bufferInit_lists some memory kernel⟩
  refine Prog.wp_mono ((performCalls_orders fuel calls).run _ start) ?_
  intro _ next ordered
  exact ordered.inOrder

/-- Two blocks with the same hash in a cache of two buffers, and a third in
the place of one of them. -/
theorem performCalls_inOrder_two :
    (performCalls 3 [.getblk 769 7, .getblk 769 722, .brelse (some 0),
      .invalidateBuffers 769, .getblk 769 8]).unmarked.wp uncorrupted Quiet
      (fun _ next => InOrder 2 next) (bufferInit 2 idleKernel.buffers
        idleKernel) :=
  performCalls_inOrder (by decide) _ _ _ _

end Linux011.Fs
