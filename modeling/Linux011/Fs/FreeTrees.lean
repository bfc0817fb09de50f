import Linux011.Fs.FreeZones
import Linux011.Library.Forests

/-!
# Trees of zones that are given back

`free_ind` and `free_dind` give back the zones that an indirect block names,
and then the block.  While they do so they hold its buffer, and what they have
given back is not read again: a tree in which no zone is twice goes as a whole,
each of its zones once.
-/

namespace Linux011.Fs

open Coop Prog Forests

/-- A word of a block of the device. -/
def Kernel.word (kernel : Kernel) (dev zone entry : Nat) : Nat :=
  shortAt (kernel.content dev zone) (2 * entry)

/-- The zones of a tree of zones, its root and all that its blocks name. -/
def Kernel.zonesBelow (kernel : Kernel) (dev depth root : Nat) : Set Nat :=
  below (kernel.word dev) 512 depth root

/-- `free_block`, `free_ind` and `free_dind`. -/
def freeDeep (fuel dev : Nat) : Nat → Nat → Sys Unit
  | 0 => freeBlock fuel dev
  | depth + 1 => freeTree (freeDeep fuel dev depth) fuel dev

theorem freeInd_deep (fuel dev : Nat) : freeInd fuel dev = freeDeep fuel dev 1 :=
  rfl

theorem freeDind_deep (fuel dev : Nat) :
    freeDind fuel dev = freeDeep fuel dev 2 := rfl

/-- A tree of zones that are in use, each of them there once, and with none of
which anybody works. -/
structure Disposable (dev sb depth root : Nat) (kernel : Kernel) : Prop where
  proper : Proper (kernel.word dev) 512 depth root
  inUse : ∀ zone ∈ kernel.zonesBelow dev depth root,
    InUse (kernel.supers sb) kernel zone
  loose : ∀ zone ∈ kernel.zonesBelow dev depth root, Loose dev zone kernel

section Disposable

variable {dev sb limit more depth root : Nat} {kernel next : Kernel}
  {gain : Nat → Nat} {zones : Set Nat}

theorem GivenBack.word (given : GivenBack dev sb limit gain zones kernel next)
    {zone entry : Nat} (lower : (kernel.supers sb).firstdatazone ≤ zone)
    (untouched : zone ∉ zones) (inBlock : entry < 512) :
    next.word dev zone entry = kernel.word dev zone entry := by
  unfold Kernel.word shortAt
  rw [given.data zone _ lower untouched (by omega),
    given.data zone _ lower untouched (by omega)]

/-- A tree is what it was after others were given back. -/
theorem Disposable.below_later (disposable : Disposable dev sb depth root kernel)
    (given : GivenBack dev sb limit gain zones kernel next)
    (apart : ∀ zone ∈ kernel.zonesBelow dev depth root, zone ∉ zones) :
    next.zonesBelow dev depth root = kernel.zonesBelow dev depth root :=
  below_congr fun zone isIn _ inBlock =>
    given.word (disposable.inUse zone isIn).lower (apart zone isIn) inBlock

theorem Disposable.later (disposable : Disposable dev sb depth root kernel)
    (given : GivenBack dev sb limit gain zones kernel next)
    (apart : ∀ zone ∈ kernel.zonesBelow dev depth root, zone ∉ zones)
    (notGained : ∀ bh, 0 < gain bh →
      (next.buffers bh).block ∉ kernel.zonesBelow dev depth root) :
    Disposable dev sb depth root next := by
  have same := disposable.below_later given apart
  refine ⟨?_, ?_, ?_⟩
  · exact disposable.proper.congr fun zone isIn _ inBlock =>
      given.word (disposable.inUse zone isIn).lower (apart zone isIn) inBlock
  · intro zone isIn
    rw [same] at isIn
    exact given.inUse (disposable.inUse zone isIn) (apart zone isIn)
  · intro zone isIn
    rw [same] at isIn
    apply (disposable.loose zone isIn).carried given.carried
    rintro bh isGained _ rfl
    exact notGained bh isGained isIn

theorem Disposable.subtree_subset {entry : Nat} (inBlock : entry < 512)
    (isSome : kernel.word dev root entry ≠ 0) :
    kernel.zonesBelow dev depth (kernel.word dev root entry) ⊆
      kernel.zonesBelow dev (depth + 1) root :=
  fun _ isIn => .inl ⟨entry, inBlock, isSome, isIn⟩

theorem Disposable.subtree
    (disposable : Disposable dev sb (depth + 1) root kernel) {entry : Nat}
    (inBlock : entry < 512) (isSome : kernel.word dev root entry ≠ 0) :
    Disposable dev sb depth (kernel.word dev root entry) kernel where
  proper := (disposable.proper entry inBlock isSome).1
  inUse := fun zone isIn =>
    disposable.inUse zone (subtree_subset inBlock isSome isIn)
  loose := fun zone isIn =>
    disposable.loose zone (subtree_subset inBlock isSome isIn)

end Disposable

/-- A way to give back a tree. -/
def Frees (fate : Fate) (dev sb limit depth : Nat) (free : Nat → Sys Unit) :
    Prop :=
  ∀ root kernel, Volume dev sb limit kernel → (kernel.supers sb).MapsApart →
    Disposable dev sb depth root kernel →
      (free root).wp fate Io (fun _ next =>
        GivenBack dev sb limit 0 (kernel.zonesBelow dev depth root) kernel next)
        kernel

section FreeTree

variable {dev sb limit depth root bh : Nat} {kernel got : Kernel} {fate : Fate}
  {free : Nat → Sys Unit}

/-- While the block of the root is held, its first subtrees were given back. -/
structure Emptied (dev sb limit depth root bh count : Nat)
    (kernel got next : Kernel) : Prop where
  given : GivenBack dev sb limit (one bh)
    (firsts (kernel.word dev) 512 depth root count) kernel next
  kept : Carried 0 got next

section Emptied

variable (disposable : Disposable dev sb (depth + 1) root kernel)
  (read : Read kernel dev root bh got)

include disposable read

/-- A word of the block, from its buffer. -/
theorem Emptied.word {next : Kernel} {count entry : Nat}
    (emptied : Emptied dev sb limit depth root bh count kernel got next)
    (isWithin : count ≤ 512)
    (inBlock : entry < 512) :
    shortAt (next.buffers bh).data (2 * entry) = kernel.word dev root entry := by
  have held : 0 < (got.buffers bh).count := by
    rw [read.settled.count, one_same]
    exact Nat.succ_pos _
  obtain ⟨isDev, isBlock, fresh⟩ := emptied.kept.held bh held
  have content := emptied.given.volume.content_held
    (emptied.kept.size ▸ read.isBuffer) (isDev.trans read.isFor.1)
    (fresh read.fresh)
  rw [isBlock, read.isFor.2] at content
  rw [← content]
  exact emptied.given.word (disposable.inUse root (root_below _ root)).lower
    (disposable.proper.root_notFirst isWithin) inBlock

variable (apart : (kernel.supers sb).MapsApart)
  (frees : Frees fate dev sb limit depth free)

include apart frees

/-- One subtree more. -/
theorem Emptied.next_wp {state : Kernel} {count : Nat}
    (emptied : Emptied dev sb limit depth root bh count kernel got state)
    (isWithin : count < 512) :
    (do
      let kernel ← Prog.get
      if shortAt (kernel.buffers bh).data (2 * count) ≠ 0 then
        free (shortAt (kernel.buffers bh).data (2 * count))
      else pure () : Sys Unit).wp fate Io
      (fun _ next =>
        Emptied dev sb limit depth root bh (count + 1) kernel got next)
      state := by
  rw [wp_bind, wp_get, emptied.word disposable read (Nat.le_of_lt isWithin) isWithin]
  by_cases isSome : kernel.word dev root count ≠ 0
  · rw [if_pos isSome]
    have subtree := disposable.subtree isWithin isSome
    have notFirst (zone : Nat) (isIn : zone ∈ kernel.zonesBelow dev depth
        (kernel.word dev root count)) :=
      disposable.proper.notFirst isWithin isSome isIn
    have notGained (other : Nat) (isGained : 0 < one bh other) :
        (state.buffers other).block ∉
          kernel.zonesBelow dev depth (kernel.word dev root count) := by
      have isBuffer : other = bh := by
        by_contra different
        rw [one_other different] at isGained
        cases isGained
      have held : 0 < (got.buffers bh).count := by
        rw [read.settled.count, one_same]
        exact Nat.succ_pos _
      rw [isBuffer, (emptied.kept.held bh held).2.1, read.isFor.2]
      exact (disposable.proper count isWithin isSome).2.1
    have same := subtree.below_later emptied.given notFirst
    apply wp_mono (frees _ state emptied.given.volume
      (emptied.given.carried.supers ▸ apart)
      (subtree.later emptied.given notFirst notGained))
    intro _ next given
    rw [same] at given
    refine ⟨?_, (emptied.kept.trans given.carried).gains fun _ => rfl⟩
    rw [firsts_some isSome]
    exact (emptied.given.trans given).gains fun _ => rfl
  · rw [if_neg isSome]
    refine ⟨?_, emptied.kept⟩
    rw [firsts_none (not_not.mp isSome)]
    exact emptied.given

theorem Emptied.all_wp
    (taken : GivenBack dev sb limit (one bh) ∅ kernel got) {count : Nat}
    (isWithin : count ≤ 512) :
    (Prog.upTo (fun entry => do
      let kernel ← Prog.get
      if shortAt (kernel.buffers bh).data (2 * entry) ≠ 0 then
        free (shortAt (kernel.buffers bh).data (2 * entry))
      else pure ()) count).wp fate Io
      (fun _ next => Emptied dev sb limit depth root bh count kernel got next)
      got := by
  induction count with
  | zero =>
      refine ⟨?_, .refl got⟩
      rw [firsts_zero]
      exact taken
  | succ count induction =>
      unfold Prog.upTo
      rw [wp_bind]
      apply wp_mono (induction (Nat.le_of_lt isWithin))
      intro _ state emptied
      exact emptied.next_wp disposable read apart frees isWithin

end Emptied

theorem Frees.freeTree (frees : Frees fate dev sb (limit + 1) depth free)
    (spent : fate.spent) (room : limit < 255) (fuel : Nat) :
    Frees fate dev sb limit (depth + 1) (freeTree free fuel dev) := by
  intro root kernel volume apart disposable
  have rootUse := disposable.inUse root (root_below _ root)
  have isZone : root ≠ 0 := by
    rintro rfl
    exact volume.notInUse_zero rootUse
  unfold Fs.freeTree
  rw [if_neg isZone]
  dsimp only
  rw [wp_bind, wp_bind]
  apply wp_mono (volume.bread_wp spent room rootUse.upper fuel)
  rintro _ got ⟨bh, rfl, read⟩
  have taken : GivenBack dev sb (limit + 1) (one bh) ∅ kernel got :=
    (volume.taken read.toGot).givesNone
      (volume.mapBit_settled read.sound read.settled)
  dsimp only
  rw [wp_bind]
  -- with the number in sight, the loop would be unrolled
  generalize isAll : 512 = all
  apply wp_mono (Emptied.all_wp disposable read apart frees taken
    (Nat.le_of_eq isAll.symm))
  intro _ later emptied
  subst isAll
  have count := emptied.given.carried.count bh
  rw [one_same] at count
  have few := emptied.given.volume.few bh
  apply wp_mono (brelse_released emptied.given.volume.sound (by omega) (by omega))
  intro _ next released
  have given := emptied.given.released volume released
  have notFirst := disposable.proper.root_notFirst (Nat.le_refl 512)
  apply wp_mono (given.volume.freeBlock_wp spent room
    (given.carried.supers ▸ apart) (given.inUse rootUse notFirst)
    ((disposable.loose root (root_below _ root)).carried given.carried
      fun _ isGained => absurd isGained (Nat.lt_irrefl 0)) fuel)
  intro _ final last
  exact (given.trans last).gains fun _ => rfl

/-- The zones of a tree are given back, each of them once. -/
theorem freeDeep_frees (spent : fate.spent) (room : limit + depth < 255)
    (fuel : Nat) : Frees fate dev sb limit depth (freeDeep fuel dev depth) := by
  induction depth generalizing limit with
  | zero =>
      intro root kernel volume apart disposable
      have isRoot : root ∈ kernel.zonesBelow dev 0 root := root_below 0 root
      exact volume.freeBlock_wp spent room apart (disposable.inUse root isRoot)
        (disposable.loose root isRoot) fuel
  | succ depth induction =>
      have frees : Frees fate dev sb (limit + 1) depth (freeDeep fuel dev depth) :=
        induction (by omega)
      exact frees.freeTree spent (by omega) fuel

end FreeTree

end Linux011.Fs
