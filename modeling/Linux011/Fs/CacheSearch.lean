import Mathlib.Data.List.Perm.Subperm
import Mathlib.Data.List.Range
import Linux011.Fs.CacheLists

/-!
# Searching the cache

The walk along a hash chain finds the buffer of a block exactly if there is
one; the walk along the free list finds an unused buffer exactly if there is
one.  `buffer_init` builds lists that are in order.
-/

namespace Linux011.Fs

open Links

/-- `find_buffer` on the list of a chain. -/
theorem findFrom_eq {kernel : Kernel} {dev block fuel : Nat}
    {nodes : List Nat}
    (chain : nodes.IsChain (Adjacent kernel.nextLink kernel.prevLink))
    (last : ∀ bh ∈ nodes.getLast?, kernel.nextLink bh = none)
    (enough : nodes.length ≤ fuel) :
    findFrom kernel dev block fuel nodes.head? =
      nodes.find? fun bh =>
        (kernel.buffers bh).dev = dev ∧ (kernel.buffers bh).block = block := by
  induction nodes generalizing fuel with
  | nil => cases fuel <;> rfl
  | cons bh rest induction =>
      cases fuel with
      | zero => simp at enough
      | succ fuel =>
          have enoughRest : rest.length ≤ fuel := by simpa using enough
          have toRest : (kernel.buffers bh).next = rest.head? := by
            cases rest with
            | nil => exact last bh rfl
            | cons following tail =>
                exact ((List.isChain_cons.mp chain).1 following rfl).1
          rw [List.head?_cons, findFrom, List.find?_cons]
          by_cases here : (kernel.buffers bh).dev = dev ∧
              (kernel.buffers bh).block = block
          · simp [here]
          · rw [if_neg here, toRest,
              induction (List.isChain_cons.mp chain).2 _ enoughRest]
            · simp [here]
            · intro other isLast
              apply last
              cases rest with
              | nil => simp at isLast
              | cons following tail => simpa using isLast

section Find

variable {kernel : Kernel} {dev block : Nat}

theorem length_le_of_lt {nodes : List Nat} {bound : Nat}
    (nodup : nodes.Nodup) (below : ∀ node ∈ nodes, node < bound) :
    nodes.length ≤ bound := by
  have subset : nodes ⊆ List.range bound := by
    intro node isIn
    exact List.mem_range.mpr (below node isIn)
  have shorter := (nodup.subperm subset).length_le
  rwa [List.length_range] at shorter

/-- `find_buffer` looks at the chain of the block's hash. -/
theorem findBuffer_eq (lists : Lists kernel) (dev block : Nat) :
    ∃ nodes : List Nat,
      findBuffer kernel dev block =
        nodes.find? (fun bh => (kernel.buffers bh).dev = dev ∧
          (kernel.buffers bh).block = block) ∧
      ∀ bh, bh ∈ nodes ↔
        (bh < kernel.nrBuffers ∧ (kernel.buffers bh).dev ≠ 0) ∧
          hashfn (kernel.buffers bh).dev (kernel.buffers bh).block =
            hashfn dev block := by
  obtain ⟨nodes, listed, members⟩ := lists.chained (hashfn dev block)
  refine ⟨nodes, ?_, members⟩
  unfold findBuffer
  rw [listed.head]
  apply findFrom_eq listed.chain listed.last
  apply length_le_of_lt listed.nodup
  intro bh isIn
  exact ((members bh).mp isIn).1.1

theorem findBuffer_some (lists : Lists kernel) {bh : Nat}
    (found : findBuffer kernel dev block = some bh) :
    bh < kernel.nrBuffers ∧ (kernel.buffers bh).dev = dev ∧
      (kernel.buffers bh).block = block := by
  obtain ⟨nodes, search, members⟩ := findBuffer_eq lists dev block
  rw [search] at found
  have isIn := List.mem_of_find?_eq_some found
  have matching := List.find?_some found
  rw [decide_eq_true_eq] at matching
  exact ⟨((members bh).mp isIn).1.1, matching⟩

theorem findBuffer_none (lists : Lists kernel)
    (missing : findBuffer kernel dev block = none) (hasDev : dev ≠ 0)
    {bh : Nat} (isBuffer : bh < kernel.nrBuffers)
    (sameDev : (kernel.buffers bh).dev = dev) :
    (kernel.buffers bh).block ≠ block := by
  intro sameBlock
  obtain ⟨nodes, search, members⟩ := findBuffer_eq lists dev block
  rw [search] at missing
  have isIn : bh ∈ nodes := by
    rw [members, sameDev, sameBlock]
    exact ⟨⟨isBuffer, hasDev⟩, rfl⟩
  have other := List.find?_eq_none.mp missing bh isIn
  simp [sameDev, sameBlock] at other

/-- A cached block is found. -/
theorem findBuffer_of_cached (lists : Lists kernel) (hasDev : dev ≠ 0)
    {bh : Nat} (isBuffer : bh < kernel.nrBuffers)
    (sameDev : (kernel.buffers bh).dev = dev)
    (sameBlock : (kernel.buffers bh).block = block) :
    findBuffer kernel dev block = some bh := by
  cases found : findBuffer kernel dev block with
  | none =>
      exact (findBuffer_none lists found hasDev isBuffer sameDev
        sameBlock).elim
  | some other =>
      obtain ⟨otherBuffer, otherDev, otherBlock⟩ :=
        findBuffer_some lists found
      rw [lists.unique other bh otherBuffer isBuffer (otherDev ▸ hasDev)
        (otherDev.trans sameDev.symm) (otherBlock.trans sameBlock.symm)]

end Find

/-! ## The free list -/

section Scan

variable {kernel : Kernel}

/-- Whatever the walk returns is an unused buffer. -/
theorem scanFree_unused {fuel tmp : Nat} {best : Option Nat} {bh : Nat}
    {nodes : List Nat}
    (ring : Ring kernel.nextFreeLink kernel.prevFreeLink kernel.freeList nodes)
    (onRing : tmp ∈ nodes)
    (soFar : ∀ other ∈ best, other ∈ nodes ∧
      (kernel.buffers other).countByte = 0)
    (found : scanFree kernel fuel tmp best = some bh) :
    bh ∈ nodes ∧ (kernel.buffers bh).countByte = 0 := by
  induction fuel generalizing tmp best with
  | zero => exact soFar bh found
  | succ fuel induction =>
      obtain ⟨following, isIn, toNext, _⟩ := ring.next_mem onRing
      have hasNext : (kernel.buffers tmp).nextFree = some following := toNext
      unfold scanFree at found
      simp only [hasNext] at found
      split at found <;> rename_i isBest
      · rw [Option.some.injEq] at found
        rw [← found]
        exact ⟨onRing, isBest.1.1⟩
      · have better : ∀ other ∈ (if (kernel.buffers tmp).countByte = 0 ∧
              ∀ old, best = some old →
                (kernel.buffers tmp).badness < (kernel.buffers old).badness
            then some tmp else best), other ∈ nodes ∧
              (kernel.buffers other).countByte = 0 := by
          intro other isOther
          split at isOther <;> rename_i unused
          · rw [Option.mem_some_iff] at isOther
            rw [← isOther]
            exact ⟨onRing, unused.1⟩
          · exact soFar other isOther
        split at found
        · exact better bh found
        · exact induction isIn better found

/-- A walk that has found a buffer goes on to return one. -/
theorem scanFree_keeps {fuel tmp : Nat} {best : Option Nat}
    (soFar : best.isSome) : (scanFree kernel fuel tmp best).isSome := by
  induction fuel generalizing tmp best with
  | zero => exact soFar
  | succ fuel induction =>
      unfold scanFree
      dsimp only
      split
      · rfl
      · split
        · split
          · rfl
          · exact soFar
        · split
          · split
            · rfl
            · exact soFar
          · apply induction
            split
            · rfl
            · exact soFar

/-- The walk visits the rest of the ring. -/
theorem scanFree_reaches {fuel : Nat} {nodes : List Nat} {best : Option Nat}
    (chain : nodes.IsChain (Adjacent kernel.nextFreeLink kernel.prevFreeLink))
    (notHead : ∀ node ∈ nodes.tail, node ≠ kernel.freeList)
    (enough : nodes.length ≤ fuel) {bh start : Nat}
    (isStart : nodes.head? = some start) (isIn : bh ∈ nodes)
    (unused : (kernel.buffers bh).countByte = 0) :
    (scanFree kernel fuel start best).isSome := by
  induction nodes generalizing fuel start best with
  | nil => cases isIn
  | cons node rest induction =>
      have same : node = start := by simpa using isStart
      subst same
      cases fuel with
      | zero => simp at enough
      | succ fuel =>
          unfold scanFree
          dsimp only
          by_cases here : (kernel.buffers node).countByte = 0
          · -- the walk has something from here on
            have someBest : (if (kernel.buffers node).countByte = 0 ∧
                  ∀ old, best = some old →
                    (kernel.buffers node).badness <
                      (kernel.buffers old).badness
                then some node else best).isSome := by
              split <;> rename_i isBetter
              · rfl
              · cases best with
                | none => simp [here] at isBetter
                | some old => rfl
            split
            · rfl
            · split
              · exact someBest
              · split
                · exact someBest
                · exact scanFree_keeps someBest
          · have inRest : bh ∈ rest := by
              rcases List.mem_cons.mp isIn with same | later
              · subst same
                exact (here unused).elim
              · exact later
            cases rest with
            | nil => cases inRest
            | cons following tail =>
                obtain ⟨link, chainRest⟩ := List.isChain_cons.mp chain
                have hasNext : (kernel.buffers node).nextFree =
                    some following := (link following rfl).1
                have goesOn : following ≠ kernel.freeList :=
                  notHead following (by simp)
                simp only [here, hasNext, goesOn, false_and, if_false]
                apply induction chainRest _ _ rfl inRest
                · intro other isOther
                  exact notHead other (List.mem_of_mem_tail isOther)
                · simpa using enough

theorem scanFree_some (lists : Lists kernel) {bh : Nat}
    (found : scanFree kernel kernel.nrBuffers kernel.freeList none = some bh) :
    bh < kernel.nrBuffers ∧ (kernel.buffers bh).countByte = 0 := by
  obtain ⟨nodes, ring, members⟩ := lists.ring
  have start := List.mem_of_mem_head? ring.head
  obtain ⟨isIn, unused⟩ := scanFree_unused ring start (by simp) found
  exact ⟨(members bh).mp isIn, unused⟩

/-- An unused buffer is found if there is one. -/
theorem scanFree_isSome (lists : Lists kernel) {bh : Nat}
    (isBuffer : bh < kernel.nrBuffers)
    (unused : (kernel.buffers bh).countByte = 0) :
    (scanFree kernel kernel.nrBuffers kernel.freeList none).isSome := by
  obtain ⟨nodes, ring, members⟩ := lists.ring
  refine scanFree_reaches ring.chain ?_ ?_ ring.head
    ((members bh).mpr isBuffer) unused
  · intro node isTail isHead
    have nodup := ring.nodup
    have start := ring.head
    cases nodes with
    | nil => simp at isTail
    | cons first rest =>
        have same : first = kernel.freeList := by simpa using start
        rw [isHead, ← same] at isTail
        exact (List.nodup_cons.mp nodup).1 isTail
  · apply length_le_of_lt ring.nodup
    intro node isIn
    exact (members node).mp isIn

end Scan

/-! ## The initial cache -/

/-- The lists that `buffer_init` builds over at least one buffer. -/
theorem bufferInit_lists {count : Nat} (some : 0 < count)
    (memory : Nat → Buffer) (kernel : Kernel) :
    Lists (bufferInit count memory kernel) where
  chained := by
    intro slot
    refine ⟨[], ⟨rfl, List.nodup_nil, List.isChain_nil, ?_, ?_⟩, ?_⟩
    · intro node isFirst
      cases isFirst
    · intro node isLast
      cases isLast
    · intro bh
      simp [bufferInit]
  loose := fun bh _ _ => ⟨rfl, rfl⟩
  ring := by
    refine ⟨List.range count, ⟨?_, List.nodup_range, ?_, ?_⟩, ?_⟩
    · rw [List.head?_range, if_neg (Nat.pos_iff_ne_zero.mp some)]
      rfl
    · refine (List.isChain_range _ _).mpr ?_
      intro bh inRange
      constructor
      · simp [Kernel.nextFreeLink, bufferInit]
        omega
      · simp [Kernel.prevFreeLink, bufferInit]
    · intro last isLast first isFirst
      rw [List.getLast?_range, if_neg (Nat.pos_iff_ne_zero.mp some)] at isLast
      rw [List.head?_range, if_neg (Nat.pos_iff_ne_zero.mp some)] at isFirst
      cases isLast
      cases isFirst
      constructor
      · simp [Kernel.nextFreeLink, bufferInit]
        omega
      · simp [Kernel.prevFreeLink, bufferInit]
    · intro bh
      exact List.mem_range
  unique := by
    intro first second _ _ hasDev
    exact (hasDev rfl).elim

end Linux011.Fs
