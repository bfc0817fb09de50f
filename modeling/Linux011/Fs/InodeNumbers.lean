import Mathlib.Data.Set.Insert
import Linux011.Fs.CacheSpecs
import Linux011.Fs.NewInode

/-!
# The numbers of inodes

Whatever a task calls `new_inode` and `free_inode` for, a number that is
allocated is not allocated again before it is freed.  The map says which
numbers are allocated.
-/

namespace Linux011.Fs

open Coop Prog

/-- No two blocks of maps are in one buffer. -/
theorem MapsLoaded.imap_injective {kernel : Kernel} {sb other i j bh : Nat}
    (loaded : MapsLoaded kernel) (isUsed : (kernel.supers sb).dev ≠ 0)
    (otherUsed : (kernel.supers other).dev ≠ 0)
    (isMap : (kernel.supers sb).imap i = some bh)
    (otherMap : (kernel.supers other).imap j = some bh) :
    sb = other ∧ i = j := by
  have holding := (loaded.imap sb isUsed i bh isMap).2
  have otherHolding := (loaded.imap other otherUsed j bh otherMap).2
  have block := holding.block.symm.trans otherHolding.block
  exact ⟨loaded.once other sb otherUsed (holding.dev.symm.trans otherHolding.dev),
    by omega⟩

/-- The bit of one number is changed, and no other. -/
theorem MapsAfter.changed {base next : Kernel} {change : Block → Block}
    {sb other bh nr : Nat} {value : Bool} (loaded : MapsLoaded base)
    (after : MapsAfter base
      (Function.update base.blocks bh (change (base.blocks bh))) next)
    (changes : ∀ data bit, bitOf (change data) bit =
      if bit = nr % 8192 then value else bitOf data bit)
    (otherUsed : (base.supers other).dev ≠ 0)
    (otherMap : (base.supers other).imap (nr / 8192) = some bh)
    (isUsed : (base.supers sb).dev ≠ 0) (number : Nat) :
    next.inodeBit sb number =
      if sb = other ∧ number = nr then some value
      else base.inodeBit sb number := by
  rw [after.inodeBit isUsed]
  unfold Kernel.inodeBit mapBit
  cases isMap : (base.supers sb).imap (number / 8192) with
  | none =>
      rw [if_neg]
      · rfl
      · rintro ⟨rfl, rfl⟩
        rw [isMap] at otherMap
        cases otherMap
  | some block =>
      rw [Option.map_some, Option.map_some]
      by_cases here : block = bh
      · subst here
        obtain ⟨rfl, sameBlock⟩ :=
          loaded.imap_injective isUsed otherUsed isMap otherMap
        rw [Function.update_self, changes]
        by_cases same : number = nr
        · rw [if_pos (same ▸ rfl), if_pos ⟨rfl, same⟩]
        · rw [if_neg (by omega), if_neg (fun both => same both.2)]
          rfl
      · rw [Function.update_of_ne here, if_neg]
        · rfl
        · rintro ⟨rfl, rfl⟩
          rw [isMap] at otherMap
          exact here (Option.some.inj otherMap)

theorem setBit_changes (bit : Nat) (data : Block) (other : Nat) :
    bitOf (setBit bit data) other =
      if other = bit then true else bitOf data other := by
  rw [bitOf_setBit]
  by_cases here : other = bit <;> simp [here]

theorem clearBit_changes (bit : Nat) (data : Block) (other : Nat) :
    bitOf (clearBit bit data) other =
      if other = bit then false else bitOf data other := by
  rw [bitOf_clearBit]
  by_cases here : other = bit <;> simp [here]

/-- The states of a task that calls `new_inode` and `free_inode`, and the
numbers of a device that are allocated and not freed.  Between the calls it
may change any in-core inode. -/
inductive Numbering (dev sb : Nat) (start : Kernel) : Kernel → Set Nat → Prop
    where
  | start : Numbering dev sb start start
      {nr | 1 ≤ nr ∧ nr ≤ (start.supers sb).ninodes ∧
        start.inodeBit sb nr = some true}
  | newInode {kernel next : Kernel} {used : Set Nat}
      (fuel device euid egid : Nat) (found : Option Nat)
      (reached : Numbering dev sb start kernel used)
      (unused : ∃ slot < nrInode, (kernel.inodes slot).count = 0)
      (returns : (newInode fuel device euid egid kernel).MayReturn True Devices
        found next) :
      Numbering dev sb start next (used ∪
        {nr | device = dev ∧ ∃ index, found = some index ∧
          nr = (next.inodes index).num})
  | freeInode {kernel next : Kernel} {used : Set Nat} (fuel index : Nat)
      (reached : Numbering dev sb start kernel used)
      (single : (kernel.inodes index).count ≤ 1)
      (noLinks : (kernel.inodes index).nlinks = 0)
      (allocated : (kernel.inodes index).dev = dev →
        (kernel.inodes index).num ∈ used)
      (returns : (freeInode fuel index kernel).MayReturn True Devices () next) :
      Numbering dev sb start next (used \
        {nr | (kernel.inodes index).dev = dev ∧
          nr = (kernel.inodes index).num})
  | change {kernel : Kernel} {used : Set Nat} (index : Nat) (inode : Inode)
      (reached : Numbering dev sb start kernel used) :
      Numbering dev sb start (kernel.setInode index inode) used
  | devices {kernel next : Kernel} {used : Set Nat}
      (reached : Numbering dev sb start kernel used)
      (acts : Devices kernel next) : Numbering dev sb start next used

/-- The map says which numbers are used. -/
structure Recorded (dev sb : Nat) (kernel : Kernel) (used : Set Nat) : Prop
    where
  loaded : MapsLoaded kernel
  mounted : findSuper kernel.supers dev 0 nrSuper = some sb
  superDev : (kernel.supers sb).dev = dev
  hasDev : dev ≠ 0
  covers : ∀ nr ≤ (kernel.supers sb).ninodes, kernel.inodeBit sb nr ≠ none
  zero : kernel.inodeBit sb 0 = some true
  used : ∀ nr, nr ∈ used ↔ 1 ≤ nr ∧ nr ≤ (kernel.supers sb).ninodes ∧
    kernel.inodeBit sb nr = some true

namespace Recorded

variable {dev sb : Nat} {kernel next : Kernel} {used : Set Nat}

/-- Nothing happened to the maps. -/
theorem same (recorded : Recorded dev sb kernel used) (loaded : MapsLoaded next)
    (supers : next.supers = kernel.supers)
    (bits : ∀ nr, next.inodeBit sb nr = kernel.inodeBit sb nr) :
    Recorded dev sb next used where
  loaded := loaded
  mounted := supers ▸ recorded.mounted
  superDev := supers ▸ recorded.superDev
  hasDev := recorded.hasDev
  covers := by
    rw [supers]
    intro nr isNumber
    rw [bits]
    exact recorded.covers nr isNumber
  zero := (bits 0).trans recorded.zero
  used := by
    intro nr
    rw [supers, bits]
    exact recorded.used nr

theorem isUsed (recorded : Recorded dev sb kernel used) :
    (kernel.supers sb).dev ≠ 0 := by
  rw [recorded.superDev]
  exact recorded.hasDev

/-- The superblock of a device is the one that is mounted. -/
theorem unique (recorded : Recorded dev sb kernel used) {other device : Nat}
    (superDev : (kernel.supers other).dev = device) :
    sb = other ↔ device = dev := by
  constructor
  · rintro rfl
    rw [← superDev, recorded.superDev]
  · rintro rfl
    exact recorded.loaded.once other sb (superDev ▸ recorded.hasDev)
      (recorded.superDev.trans superDev.symm)

/-- One bit was changed, of this map or of another. -/
theorem changed {other nr : Nat} {value : Bool} {later : Set Nat}
    (recorded : Recorded dev sb kernel used) (loaded : MapsLoaded next)
    (supers : next.supers = kernel.supers)
    (bits : ∀ number, next.inodeBit sb number =
      if sb = other ∧ number = nr then some value
      else kernel.inodeBit sb number)
    (isNumber : sb = other → 1 ≤ nr ∧ nr ≤ (kernel.supers sb).ninodes)
    (records : ∀ number, number ∈ later ↔
      if sb = other ∧ number = nr then value = true else number ∈ used) :
    Recorded dev sb next later where
  loaded := loaded
  mounted := supers ▸ recorded.mounted
  superDev := supers ▸ recorded.superDev
  hasDev := recorded.hasDev
  covers := by
    rw [supers]
    intro number inMap
    rw [bits]
    split
    · exact nofun
    · exact recorded.covers number inMap
  zero := by
    rw [bits, if_neg]
    · exact recorded.zero
    · rintro ⟨here, rfl⟩
      exact absurd (isNumber here).1 (by decide)
  used := by
    intro number
    rw [records, supers, bits]
    split <;> rename_i here
    · obtain ⟨here, rfl⟩ := here
      obtain ⟨positive, inMap⟩ := isNumber here
      simp [positive, inMap]
    · exact recorded.used number

/-- A free number is one of those between 1 and `s_ninodes`. -/
theorem free_range (recorded : Recorded dev sb kernel used) {nr : Nat}
    (isFree : kernel.inodeBit sb nr = some false) : 1 ≤ nr := by
  apply Nat.pos_of_ne_zero
  rintro rfl
  rw [recorded.zero] at isFree
  cases isFree

theorem newInode {device : Nat} {found : Option Nat}
    (recorded : Recorded dev sb kernel used)
    (takes : NewInode kernel device found next) :
    Recorded dev sb next (used ∪ {nr | device = dev ∧
      ∃ index, found = some index ∧ nr = (next.inodes index).num}) := by
  cases takes with
  | full superDev isUsed full maps counts =>
      have nothing : {nr | device = dev ∧ ∃ index,
          (none : Option Nat) = some index ∧ nr = (next.inodes index).num} =
          (∅ : Set Nat) :=
        Set.eq_empty_of_forall_notMem fun _ ⟨_, _, found, _⟩ => nomatch found
      rw [nothing, Set.union_empty]
      exact recorded.same maps.loaded maps.supers fun nr =>
        maps.inodeBit recorded.isUsed nr
  | @takes other bh nr index _ superDev isUsed isNumber isMap isFree maps inode =>
      have otherUsed : (kernel.supers other).dev ≠ 0 := superDev ▸ isUsed
      have isShort := recorded.loaded.ninodes other
      have sameNumber : (next.inodes index).num = nr := by
        rw [inode.2.1, Nat.mod_eq_of_lt (by omega)]
      have same := recorded.unique superDev
      refine recorded.changed maps.loaded maps.supers
        (maps.changed recorded.loaded (fun data bit => setBit_changes _ data bit)
          otherUsed isMap recorded.isUsed) ?_ ?_
      · rintro rfl
        refine ⟨recorded.free_range ?_, isNumber⟩
        unfold Kernel.inodeBit mapBit
        rw [isMap, Option.map_some]
        exact congrArg some isFree
      · intro number
        simp only [same]
        by_cases here : device = dev ∧ number = nr
        · simp [here, sameNumber]
        · simp only [Set.mem_union, Set.mem_ofPred_eq, Option.some.injEq,
            exists_eq_left', sameNumber, here, or_false, if_false]

theorem freeInode {index : Nat} (recorded : Recorded dev sb kernel used)
    (frees : FreeInode kernel index next) :
    Recorded dev sb next (used \ {nr | (kernel.inodes index).dev = dev ∧
      nr = (kernel.inodes index).num}) := by
  cases frees with
  | noDevice noDev maps =>
      have nothing : {nr | (kernel.inodes index).dev = dev ∧
          nr = (kernel.inodes index).num} = (∅ : Set Nat) :=
        Set.eq_empty_of_forall_notMem fun _ ⟨sameDev, _⟩ =>
          recorded.hasDev (sameDev.symm.trans noDev)
      rw [nothing, Set.sdiff_empty]
      exact recorded.same maps.loaded maps.supers fun nr =>
        maps.inodeBit recorded.isUsed nr
  | @frees other bh _ superDev isUsed isNumber isMap maps =>
      have otherUsed : (kernel.supers other).dev ≠ 0 := superDev ▸ isUsed
      have same := recorded.unique superDev
      refine recorded.changed maps.loaded maps.supers
        (maps.changed recorded.loaded
          (fun data bit => clearBit_changes _ data bit) otherUsed isMap
          recorded.isUsed) ?_ ?_
      · rintro rfl
        exact isNumber
      · intro number
        simp only [same]
        by_cases here : (kernel.inodes index).dev = dev ∧
            number = (kernel.inodes index).num
        · simp [here]
        · simp only [Set.mem_sdiff, Set.mem_ofPred_eq, here, not_false_eq_true,
            and_true, if_false]

theorem reached {start : Kernel} (begins : Recorded dev sb start
      {nr | 1 ≤ nr ∧ nr ≤ (start.supers sb).ninodes ∧
        start.inodeBit sb nr = some true})
    (reached : Numbering dev sb start kernel used) :
    Recorded dev sb kernel used := by
  induction reached with
  | start => exact begins
  | newInode fuel device euid egid found _ unused returns induction =>
      have takes := @newInode_takes .any _ trivial (fun _ _ => trivial)
        induction.loaded unused device (fun _ => trivial) fuel euid egid
      exact induction.newInode (returns.meets (takes.run _ rfl))
  | freeInode fuel index _ single noLinks allocated returns induction =>
      have frees := @freeInode_frees .any _ trivial induction.loaded index
        (fun _ _ => trivial) fuel
      exact induction.freeInode (returns.meets (frees.run _ rfl))
  | change index inode _ induction =>
      exact induction.same induction.loaded.setInodes rfl fun _ => rfl
  | devices _ acts induction =>
      have guarded := induction.loaded.guarded.devices acts
      have maps := MapsAfter.guarded induction.loaded guarded
      exact induction.same maps.loaded maps.supers fun nr =>
        maps.inodeBit induction.isUsed nr

end Recorded

/-- Only the cache may stop the machine. -/
def cacheOnly : Fate where
  panic := fun message => message ∈ cachePanics
  spent := True
  crossed := False

/-- Every map block is as it was. -/
structure SameMaps (kernel next : Kernel) : Prop where
  supers : next.supers = kernel.supers
  data : ∀ bh, kernel.IsMap bh → (next.buffers bh).data = (kernel.buffers bh).data

/-- `free_inode` of the inode that `new_inode` has returned, without links. -/
def freeNew (fuel index : Nat) : Sys Unit := do
  onInode index fun inode => { inode with nlinks := 0 }
  freeInode fuel index

/-- What `new_inode` returns where `used` are the numbers allocated. -/
structure Numbers (kernel : Kernel) (sb : Nat) (used : Set Nat)
    (found : Option Nat) (next : Kernel) : Prop where
  full : found = none ↔
    ∀ nr, 1 ≤ nr → nr ≤ (kernel.supers sb).ninodes → nr ∈ used
  none : found = none → SameMaps kernel next ∧
    ∀ slot, (next.inodes slot).count = (kernel.inodes slot).count
  some : ∀ index, found = some index →
    (1 ≤ (next.inodes index).num ∧
      (next.inodes index).num ≤ (kernel.supers sb).ninodes ∧
      (next.inodes index).num ∉ used) ∧
    ∀ fuel, (freeNew fuel index).unmarked.wp cacheOnly Devices
      (fun _ last => SameMaps kernel last) next

namespace Recorded

variable {dev sb : Nat} {kernel next : Kernel} {used : Set Nat}

/-- A number that was just taken goes back. -/
theorem freeNew_restores {bh nr index : Nat}
    (recorded : Recorded dev sb kernel used) (isNumber : 1 ≤ nr)
    (inMap : nr ≤ (kernel.supers sb).ninodes)
    (isMap : (kernel.supers sb).imap (nr / 8192) = some bh)
    (isFree : bitOf (kernel.blocks bh) (nr % 8192) = false)
    (maps : MapsAfter kernel (Function.update kernel.blocks bh
      (setBit (nr % 8192) (kernel.blocks bh))) next)
    (sameDev : (next.inodes index).dev = dev)
    (sameNumber : (next.inodes index).num = nr)
    (single : (next.inodes index).count = 1) (fuel : Nat) :
    (freeNew fuel index).unmarked.wp cacheOnly Devices
      (fun _ last => SameMaps kernel last) next := by
  have isHeld : kernel.IsMap bh := ⟨sb, recorded.isUsed, _, .inl isMap⟩
  have sameSupers := maps.supers
  have bit := maps.changed recorded.loaded
    (fun data bit => setBit_changes _ data bit) recorded.isUsed isMap
    recorded.isUsed nr
  rw [if_pos ⟨rfl, rfl⟩] at bit
  let unlinked := next.setInode index { next.inodes index with nlinks := 0 }
  have own : unlinked.inodes index =
      { next.inodes index with nlinks := 0 } := by
    simp [unlinked, Kernel.setInode]
  have loaded : MapsLoaded unlinked := maps.loaded.setInodes
  have freeable : Freeable unlinked index := by
    constructor
    · rw [own, ← single]
    · rw [own]
    · rw [own]
      refine ⟨sb, ?_⟩
      show findSuper next.supers (next.inodes index).dev 0 nrSuper = some sb
      rw [sameSupers, sameDev]
      exact recorded.mounted
    · rw [own]
      intro other superDev
      have superDev : (kernel.supers other).dev = dev := by
        rw [← sameDev, ← sameSupers]
        exact superDev
      have here : sb = other := (recorded.unique superDev).mpr rfl
      subst here
      show 1 ≤ (next.inodes index).num ∧
        (next.inodes index).num ≤ (next.supers sb).ninodes ∧
        next.inodeBit sb (next.inodes index).num ≠ Option.none
      rw [sameNumber, sameSupers, bit]
      exact ⟨isNumber, inMap, Option.some_ne_none _⟩
  have frees := (@freeInode_frees cacheOnly unlinked trivial loaded index
    (fun not => (not freeable).elim) fuel).run unlinked rfl
  refine Prog.wp_mono frees fun _ last freed => ?_
  cases freed with
  | noDevice noDev =>
      rw [own] at noDev
      exact (recorded.hasDev (sameDev.symm.trans noDev)).elim
  | @frees other block _ superDev isUsed _ otherMap later =>
      rw [own] at superDev otherMap later
      have supers : unlinked.supers = kernel.supers := sameSupers
      rw [supers] at superDev otherMap
      have superDev : (kernel.supers other).dev = dev := superDev.trans sameDev
      have here : sb = other := (recorded.unique superDev).mpr rfl
      subst here
      have otherMap : (kernel.supers sb).imap ((next.inodes index).num / 8192) =
        some block := otherMap
      have sameBlock : bh = block := by
        rw [sameNumber, isMap] at otherMap
        exact Option.some.inj otherMap
      subst sameBlock
      refine ⟨later.supers.trans supers, fun held isOther => ?_⟩
      have stored := maps.data held isOther
      have isOther' : unlinked.IsMap held := by
        unfold Kernel.IsMap
        rw [supers]
        exact isOther
      rw [later.data held isOther']
      by_cases same : held = bh
      · subst same
        rw [Function.update_self] at stored ⊢
        show clearBit ((next.inodes index).num % 8192) (next.buffers held).data =
          kernel.blocks held
        rw [stored, sameNumber, clearBit_setBit isFree]
      · rw [Function.update_of_ne same] at stored ⊢
        exact stored

theorem numbers {found : Option Nat} (recorded : Recorded dev sb kernel used)
    (takes : NewInode kernel dev found next) :
    Numbers kernel sb used found next := by
  cases takes with
  | @full other _ superDev isUsed full maps counts =>
      have here : sb = other := (recorded.unique superDev).mpr rfl
      subst here
      refine ⟨⟨fun _ nr positive inMap => ?_, fun _ => rfl⟩,
        fun _ => ⟨⟨maps.supers, maps.data⟩, counts⟩, nofun⟩
      rw [recorded.used]
      refine ⟨positive, inMap, ?_⟩
      have loaded := recorded.covers nr inMap
      have isSet := full nr (Nat.zero_le nr) (by omega)
      cases bit : kernel.inodeBit sb nr with
      | none => exact (loaded bit).elim
      | some value =>
          cases value with
          | false => exact (isSet bit).elim
          | true => rfl
  | @takes other bh nr index _ superDev isUsed inMap isMap isFree maps inode =>
      have here : sb = other := (recorded.unique superDev).mpr rfl
      subst here
      have isShort := recorded.loaded.ninodes sb
      have sameNumber : (next.inodes index).num = nr := by
        rw [inode.2.1, Nat.mod_eq_of_lt (by omega)]
      have bit : kernel.inodeBit sb nr = some false := by
        unfold Kernel.inodeBit mapBit
        rw [isMap, Option.map_some]
        exact congrArg some isFree
      have positive := recorded.free_range bit
      have unused : nr ∉ used := by
        rw [recorded.used, bit]
        exact fun isUsed => nomatch isUsed.2.2
      refine ⟨⟨nofun, fun all => (unused (all nr positive inMap)).elim⟩,
        nofun, ?_⟩
      rintro _ ⟨⟩
      rw [sameNumber]
      exact ⟨⟨positive, inMap, unused⟩, recorded.freeNew_restores positive inMap
        isMap isFree maps inode.1 sameNumber inode.2.2⟩

end Recorded

/-- After any calls, `new_inode` returns a number that is not allocated, and
`NULL` only where all are. -/
theorem newInode_neverTwice {dev sb : Nat} {start kernel : Kernel}
    {used : Set Nat} (loaded : MapsLoaded start) (hasDev : dev ≠ 0)
    (mounted : findSuper start.supers dev 0 nrSuper = some sb)
    (covers : ∀ nr ≤ (start.supers sb).ninodes, start.inodeBit sb nr ≠ none)
    (zero : start.inodeBit sb 0 = some true)
    (reached : Numbering dev sb start kernel used)
    (unused : ∃ slot < nrInode, (kernel.inodes slot).count = 0)
    (fuel euid egid : Nat) :
    (newInode fuel dev euid egid).unmarked.wp cacheOnly Devices
      (Numbers kernel sb used) kernel := by
  have begins : Recorded dev sb start {nr | 1 ≤ nr ∧
      nr ≤ (start.supers sb).ninodes ∧ start.inodeBit sb nr = some true} :=
    ⟨loaded, mounted, findSuper_dev mounted, hasDev, covers, zero,
      fun _ => Iff.rfl⟩
  have recorded := begins.reached reached
  have isMounted : ¬(dev = 0 ∨
      findSuper kernel.supers dev 0 nrSuper = none) := by
    rw [recorded.mounted]
    rintro (noDev | missing)
    · exact hasDev noDev
    · cases missing
  have takes := @newInode_takes cacheOnly _ trivial (fun _ isPanic => isPanic)
    recorded.loaded unused dev (fun unknown => (isMounted unknown).elim)
    fuel euid egid
  exact Prog.wp_mono (takes.run kernel rfl) fun _ _ took =>
    recorded.numbers took

/-- A cache of three buffers. -/
def threeBuffers : Kernel :=
  bufferInit 3 (fun bh =>
    { idleKernel.buffers bh with
      data := fun offset => if offset = 0 then 1 else 0 }) idleKernel

/-- Two of them got for blocks. -/
def mapBlocks : Kernel := claim 1 769 3 (claim 0 769 2 threeBuffers)

theorem mapBlocks_lists : Lists mapBlocks := by
  have empty : Lists threeBuffers := bufferInit_lists (by decide) _ _
  have first : Lists (claim 0 769 2 threeBuffers) := by
    apply claim_lists empty (show 0 < 3 by decide)
    intro _ other _ sameDev
    cases (sameDev : 0 = 769)
  apply claim_lists first (show 1 < 3 by decide)
  intro _ other _ sameDev
  rw [claim_dev] at sameDev
  rw [claim_block]
  split <;> rename_i here
  · decide
  · rw [if_neg here] at sameDev
    cases (sameDev : 0 = 769)

/-- The cache with the maps of a hard disk with three inodes, all free. -/
def freshMaps : Kernel :=
  { mapBlocks with
    supers := fun sb =>
      { idleKernel.supers sb with
        ninodes := if sb = 0 then 3 else 0
        imapBlocks := 1
        zmapBlocks := 1
        imap := fun i => if i = 0 then some 0 else none
        zmap := fun i => if i = 0 then some 1 else none
        dev := if sb = 0 then 769 else 0 } }

theorem Lists.setSupers {kernel : Kernel} (lists : Lists kernel)
    (supers : Nat → Super) : Lists { kernel with supers } :=
  lists.congr (SameLists.elsewhere rfl rfl rfl rfl)

theorem freshMaps_holding :
    freshMaps.Holding 769 2 0 ∧ freshMaps.Holding 769 3 1 :=
  ⟨⟨rfl, rfl, by decide⟩, ⟨rfl, rfl, by decide⟩⟩

theorem freshMaps_loaded : MapsLoaded freshMaps where
  lists := mapBlocks_lists.setSupers _
  ninodes := by
    intro sb
    show (if sb = 0 then 3 else 0) < 65536
    split <;> decide
  once := by
    intro sb other isUsed sameDev
    have isUsed : (if sb = 0 then 769 else 0) ≠ 0 := isUsed
    have sameDev : (if other = 0 then 769 else 0) =
      if sb = 0 then 769 else 0 := sameDev
    grind
  imap := by
    intro sb isUsed i bh isMap
    have isUsed : (if sb = 0 then 769 else 0) ≠ 0 := isUsed
    have isMap : (if i = 0 then some 0 else none) = some bh := isMap
    have here : sb = 0 := by grind
    have isFirst : i = 0 ∧ bh = 0 := by grind
    obtain ⟨rfl, rfl⟩ := isFirst
    subst here
    exact ⟨Nat.one_pos, freshMaps_holding.1⟩
  zmap := by
    intro sb isUsed i bh isMap
    have isUsed : (if sb = 0 then 769 else 0) ≠ 0 := isUsed
    have isMap : (if i = 0 then some 1 else none) = some bh := isMap
    have here : sb = 0 := by grind
    have isFirst : i = 0 ∧ bh = 1 := by grind
    obtain ⟨rfl, rfl⟩ := isFirst
    subst here
    exact ⟨Nat.one_pos, freshMaps_holding.2⟩
  pending := by
    intro major slot member
    have none : slot ∈ ([] : List Nat) := member
    cases none

theorem newInode_neverTwice_first :
    (newInode 3 769 0 0).unmarked.wp cacheOnly Devices
      (Numbers freshMaps 0 {nr | 1 ≤ nr ∧ nr ≤ 3 ∧
        freshMaps.inodeBit 0 nr = some true}) freshMaps :=
  newInode_neverTwice freshMaps_loaded (by decide) rfl (by decide) rfl .start
    ⟨0, by decide, rfl⟩ 3 0 0

end Linux011.Fs
