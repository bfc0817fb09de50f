import Linux011.Fs.FileTrees
import Linux011.Fs.FreeTrees

/-!
# What `truncate` leaves

`truncate` goes through the entries of the inode, and gives back the tree of
zones under each.  The zones of the file go, each of them once, and no others;
so all other files are what they were, and nothing is lost.
-/

namespace Linux011.Fs

open Coop Prog Forests ByteFiles

/-- The entry of the inode from which one comes to a slot. -/
def ZoneSlot.top : ZoneSlot → Nat
  | .root entry => entry
  | .cell .single _ => 7
  | .cell _ _ => 8

/-- The words through which one comes from there to it. -/
def ZoneSlot.path : ZoneSlot → List Nat
  | .root _ => []
  | .cell (.middle place) entry => [place, entry]
  | .cell _ entry => [entry]

/-- How deep the tree under an entry of the inode is. -/
def rootDepth (entry : Nat) : Nat := if entry < 7 then 0 else entry - 6

/-- Nobody works with a data zone. -/
def AtRest (dev sb : Nat) (kernel : Kernel) : Prop :=
  ∀ zone, (kernel.supers sb).firstdatazone ≤ zone → Loose dev zone kernel

theorem AtRest.carried {dev sb : Nat} {kernel next : Kernel}
    (rest : AtRest dev sb kernel) (carried : Carried 0 kernel next) :
    AtRest dev sb next := by
  intro zone lower
  rw [carried.supers] at lower
  exact (rest zone lower).carried carried fun _ gained =>
    absurd gained (Nat.lt_irrefl 0)

/-! ## The trees under the entries of an inode -/

section Trees

variable {dev sb limit index entry zone : Nat} {kernel : Kernel}
  {held : Set Nat}

theorem ZoneSlot.exists_path {path : List Nat} (inInode : entry < 9)
    (isPath : IsPath 512 (rootDepth entry) path) :
    ∃ slot : ZoneSlot, slot.Valid ∧ slot.top = entry ∧ slot.path = path := by
  obtain ⟨short, within⟩ := isPath
  have deep : rootDepth entry ≤ entry - 6 := by
    unfold rootDepth
    split <;> omega
  have short := short.trans deep
  match path with
  | [] => exact ⟨.root entry, inInode, rfl, rfl⟩
  | [place] =>
      have inBlock := within place List.mem_cons_self
      change 1 ≤ entry - 6 at short
      obtain rfl | rfl : entry = 7 ∨ entry = 8 := by omega
      · exact ⟨.cell .single place, ⟨trivial, inBlock⟩, rfl, rfl⟩
      · exact ⟨.cell .double place, ⟨trivial, inBlock⟩, rfl, rfl⟩
  | [first, second] =>
      have inDouble := within first List.mem_cons_self
      have inMiddle := within second
        (List.mem_cons_of_mem first List.mem_cons_self)
      change 2 ≤ entry - 6 at short
      obtain rfl : entry = 8 := by omega
      exact ⟨.cell (.middle first) second, ⟨inDouble, inMiddle⟩, rfl, rfl⟩
  | first :: second :: third :: rest =>
      change rest.length + 3 ≤ entry - 6 at short
      omega

theorem ZoneSlot.isPath {slot : ZoneSlot} (valid : slot.Valid) :
    IsPath 512 (rootDepth slot.top) slot.path := by
  cases slot with
  | root entry => exact .nil 512 _
  | cell block entry =>
      obtain ⟨isBlock, inBlock⟩ := valid
      have leaf (depth : Nat) : IsPath 512 (depth + 1) [entry] :=
        isPath_cons.mpr ⟨inBlock, .nil 512 depth⟩
      cases block with
      | single => exact leaf 0
      | double => exact leaf 1
      | middle place => exact isPath_cons.mpr ⟨isBlock, leaf 0⟩

/-- A slot holds what its path leads to. -/
theorem Kernel.value_reach (isDev : (kernel.inodes index).dev = dev)
    (slot : ZoneSlot) : (kernel.tree index).value slot =
      reach (kernel.word dev) ((kernel.inodes index).zone slot.top) slot.path := by
  subst isDev
  cases slot with
  | root entry => rfl
  | cell block entry =>
      cases block with
      | single => rfl
      | double => rfl
      | middle place =>
          by_cases isNone : (kernel.inodes index).zone 8 = 0
          · have absent : (kernel.tree index).block (.middle place) = 0 :=
              if_pos isNone
            show (kernel.tree index).cell _ entry = reach _ (_ : Nat) _
            rw [absent, ZoneTree.cell_zero]
            exact (if_pos isNone).symm
          · have isMiddle : (kernel.tree index).block (.middle place) =
                kernel.word _ ((kernel.inodes index).zone 8) place :=
              if_neg isNone
            show (kernel.tree index).cell _ entry = reach _ (_ : Nat) _
            rw [isMiddle]
            exact (if_neg isNone).symm

/-- Under an entry that is 0 there is nothing. -/
theorem Kernel.value_none {slot : ZoneSlot}
    (isNone : (kernel.inodes index).zone slot.top = 0) :
    (kernel.tree index).value slot = 0 := by
  rw [Kernel.value_reach rfl, isNone, reach_zero]

section Root

variable (files : FilesHeld dev sb limit held kernel) (isHeld : index ∈ held)
  (inInode : entry < 9) (isSome : (kernel.inodes index).zone entry ≠ 0)

include files isHeld inInode isSome

/-- The slots under an entry of the inode. -/
theorem FilesHeld.mem_root :
    zone ∈ kernel.zonesBelow dev (rootDepth entry)
        ((kernel.inodes index).zone entry) ↔
      zone ≠ 0 ∧ ∃ slot : ZoneSlot, slot.Valid ∧ slot.top = entry ∧
        (kernel.tree index).value slot = zone := by
  have isDev := files.isDev index isHeld
  refine (mem_below isSome).trans (and_congr_right fun _ => ?_)
  constructor
  · rintro ⟨path, isPath, leads⟩
    obtain ⟨slot, valid, rfl, rfl⟩ := ZoneSlot.exists_path inInode isPath
    exact ⟨slot, valid, rfl, (Kernel.value_reach isDev slot).trans leads⟩
  · rintro ⟨slot, valid, rfl, isValue⟩
    exact ⟨slot.path, ZoneSlot.isPath valid,
      (Kernel.value_reach isDev slot).symm.trans isValue⟩

/-- No zone is twice under an entry. -/
theorem FilesHeld.proper_root :
    Proper (kernel.word dev) 512 (rootDepth entry)
      ((kernel.inodes index).zone entry) := by
  have isDev := files.isDev index isHeld
  apply proper_of_once isSome
  intro left right isLeft isRight same isZone
  obtain ⟨first, firstValid, isFirst, rfl⟩ :=
    ZoneSlot.exists_path inInode isLeft
  obtain ⟨second, secondValid, isSecond, rfl⟩ :=
    ZoneSlot.exists_path inInode isRight
  have leads := Kernel.value_reach isDev first
  have leadsToo := Kernel.value_reach isDev second
  rw [isFirst] at leads
  rw [isSecond] at leadsToo
  rw [← leads] at same isZone
  rw [← leadsToo] at same
  rw [(files.once index isHeld index isHeld first second firstValid secondValid
    same isZone).2]

theorem FilesHeld.disposable (rest : AtRest dev sb kernel) :
    Disposable dev sb (rootDepth entry) ((kernel.inodes index).zone entry)
      kernel := by
  have inUse (zone : Nat) (isNode : zone ∈ kernel.zonesBelow dev
      (rootDepth entry) ((kernel.inodes index).zone entry)) :
      InUse (kernel.supers sb) kernel zone := by
    obtain ⟨isZone, slot, valid, _, rfl⟩ :=
      (files.mem_root isHeld inInode isSome).mp isNode
    exact files.inUse index isHeld slot valid isZone
  exact ⟨files.proper_root isHeld inInode isSome, inUse,
    fun zone isNode => rest zone (inUse zone isNode).lower⟩

end Root

end Trees

/-! ## The walk over the entries -/

/-- The zones under the first entries of an inode. -/
def Kernel.zonesUnder (kernel : Kernel) (index count : Nat) : Set Nat :=
  {zone | zone ≠ 0 ∧ ∃ slot : ZoneSlot, slot.Valid ∧ slot.top < count ∧
    (kernel.tree index).value slot = zone}

/-- The first entries are cleared. -/
def Inode.cleared (inode : Inode) (count : Nat) : Inode :=
  { inode with zone := fun entry => if entry < count then 0 else inode.zone entry }

def Kernel.cut (kernel : Kernel) (index count : Nat) : Kernel :=
  kernel.setInode index ((kernel.inodes index).cleared count)

section Cleared

variable {inode : Inode} {index count : Nat} {kernel : Kernel}

theorem Inode.cleared_setZone (inode : Inode) (count : Nat) :
    (inode.cleared count).setZone count 0 = inode.cleared (count + 1) := by
  have zones : (fun other => if other = count then 0
      else if other < count then 0 else inode.zone other) =
      fun other => if other < count + 1 then 0 else inode.zone other := by
    funext other
    by_cases here : other = count
    · rw [if_pos here, if_pos (by omega)]
    · rw [if_neg here]
      by_cases before : other < count
      · rw [if_pos before, if_pos (by omega)]
      · rw [if_neg before, if_neg (by omega)]
  unfold Inode.setZone Inode.cleared
  rw [zones]

/-- An entry that is 0 is as good as cleared. -/
theorem Inode.cleared_none (isNone : inode.zone count = 0) :
    inode.cleared (count + 1) = inode.cleared count := by
  rw [← Inode.cleared_setZone]
  exact setZone_same ((if_neg (Nat.lt_irrefl count)).trans isNone)

theorem Kernel.cut_own : (kernel.cut index count).inodes index =
    (kernel.inodes index).cleared count := if_pos rfl

theorem Kernel.cut_other {other : Nat} (different : other ≠ index) :
    (kernel.cut index count).inodes other = kernel.inodes other :=
  if_neg different

theorem Kernel.cut_none (isNone : (kernel.inodes index).zone count = 0) :
    kernel.cut index (count + 1) = kernel.cut index count := by
  unfold Kernel.cut
  rw [Inode.cleared_none isNone]

theorem Kernel.cut_zero : kernel.cut index 0 = kernel := by
  have same : (fun other => if other = index then (kernel.inodes index).cleared 0
      else kernel.inodes other) = kernel.inodes := by
    funext other
    split <;> rename_i here
    · rw [here]
      rfl
    · rfl
  unfold Kernel.cut Kernel.setInode
  rw [same]

end Cleared

/-- What was under the first entries is given back. -/
def Cut (dev sb limit index freed cleared : Nat) (kernel next : Kernel) : Prop :=
  GivenBack dev sb limit 0 (kernel.zonesUnder index freed)
    (kernel.cut index cleared) next

section Walk

variable {dev sb limit index entry cleared : Nat} {kernel state : Kernel}
  {held : Set Nat} {fate : Fate}

/-- With one entry more. -/
theorem FilesHeld.zonesUnder_some (files : FilesHeld dev sb limit held kernel)
    (isHeld : index ∈ held) (inInode : entry < 9)
    (isSome : (kernel.inodes index).zone entry ≠ 0) :
    kernel.zonesUnder index (entry + 1) =
      kernel.zonesUnder index entry ∪ kernel.zonesBelow dev (rootDepth entry)
        ((kernel.inodes index).zone entry) := by
  ext zone
  constructor
  · rintro ⟨isZone, slot, valid, below, isValue⟩
    by_cases here : slot.top = entry
    · exact .inr ((files.mem_root isHeld inInode isSome).mpr
        ⟨isZone, slot, valid, here, isValue⟩)
    · exact .inl ⟨isZone, slot, valid, by omega, isValue⟩
  · rintro (⟨isZone, slot, valid, below, isValue⟩ | isNode)
    · exact ⟨isZone, slot, valid, by omega, isValue⟩
    · obtain ⟨isZone, slot, valid, isTop, isValue⟩ :=
        (files.mem_root isHeld inInode isSome).mp isNode
      exact ⟨isZone, slot, valid, by omega, isValue⟩

theorem Kernel.zonesUnder_none (isNone : (kernel.inodes index).zone entry = 0) :
    kernel.zonesUnder index (entry + 1) = kernel.zonesUnder index entry := by
  ext zone
  constructor
  · rintro ⟨isZone, slot, valid, below, isValue⟩
    have different : slot.top ≠ entry := by
      rintro rfl
      exact isZone (isValue.symm.trans (kernel.value_none isNone))
    exact ⟨isZone, slot, valid, by omega, isValue⟩
  · rintro ⟨isZone, slot, valid, below, isValue⟩
    exact ⟨isZone, slot, valid, by omega, isValue⟩

theorem Disposable.cut {depth root : Nat}
    (disposable : Disposable dev sb depth root kernel) :
    Disposable dev sb depth root (kernel.cut index cleared) where
  proper := disposable.proper
  inUse := by
    intro zone isNode
    obtain ⟨lower, upper, isUsed⟩ := disposable.inUse zone isNode
    exact ⟨lower, upper, isUsed⟩
  loose := disposable.loose

theorem Cut.own (cut : Cut dev sb limit index entry cleared kernel state) :
    ∃ dirt lock, state.inodes index =
      { (kernel.inodes index).cleared cleared with dirt, lock } := by
  obtain ⟨dirt, lock, same⟩ := cut.inode index
  rw [Kernel.cut_own] at same
  exact ⟨dirt, lock, same⟩

/-- An entry that is not cleared yet. -/
theorem Cut.root (cut : Cut dev sb limit index entry cleared kernel state)
    {place : Nat} (notCleared : ¬place < cleared) :
    (state.inodes index).dev = (kernel.inodes index).dev ∧
      (state.inodes index).zone place = (kernel.inodes index).zone place := by
  obtain ⟨_, _, same⟩ := cut.own
  rw [same]
  exact ⟨rfl, if_neg notCleared⟩

/-- An entry is cleared whose tree was given back. -/
theorem Cut.clear (cut : Cut dev sb limit index entry cleared kernel state)
    (isDev : (kernel.inodes index).dev = dev) :
    Cut dev sb limit index entry (cleared + 1) kernel
      (state.setInode index ((state.inodes index).setZone cleared 0)) where
  volume := by
    obtain ⟨_, _, same⟩ := cut.own
    have stateDev : (state.inodes index).dev = dev := by
      rw [same]
      exact isDev
    exact cut.volume.setInode rfl rfl stateDev
  carried := ⟨⟨cut.carried.size, cut.carried.held⟩, cut.carried.supers,
    cut.carried.driver, cut.carried.now, cut.carried.count⟩
  inode := by
    intro other
    by_cases here : other = index
    · subst here
      obtain ⟨dirt, lock, same⟩ := cut.own
      refine ⟨dirt, lock, ?_⟩
      rw [Kernel.cut_own, ← Inode.cleared_setZone]
      show (if other = other then _ else state.inodes other) = _
      rw [if_pos rfl, same]
      rfl
    · obtain ⟨dirt, lock, same⟩ := cut.inode other
      refine ⟨dirt, lock, ?_⟩
      rw [Kernel.cut_other here] at same ⊢
      show (if other = index then _ else state.inodes other) = _
      rw [if_neg here]
      exact same
  data := cut.data
  wasUsed := by
    intro zone isIn
    obtain ⟨lower, upper, isUsed⟩ := cut.wasUsed zone isIn
    exact ⟨lower, upper, isUsed⟩
  cleared := cut.cleared
  others := cut.others

theorem Cut.skip (cut : Cut dev sb limit index entry cleared kernel state)
    (isNone : (kernel.inodes index).zone entry = 0) :
    Cut dev sb limit index (entry + 1) cleared kernel state := by
  unfold Cut
  rw [kernel.zonesUnder_none isNone]
  exact cut

theorem freeDeep_none (fuel dev depth : Nat) :
    freeDeep fuel dev (depth + 1) 0 = pure () := by
  unfold freeDeep freeTree
  exact if_pos rfl

variable (files : FilesHeld dev sb limit held kernel)
  (rest : AtRest dev sb kernel) (isHeld : index ∈ held) (spent : fate.spent)
  (room : limit + 2 < 255) (apart : (kernel.supers sb).MapsApart)

include files rest isHeld spent room apart

/-- The tree under an entry is given back. -/
theorem FilesHeld.freeRoot_wp (inInode : entry < 9)
    (isSome : (kernel.inodes index).zone entry ≠ 0)
    (cut : Cut dev sb limit index entry cleared kernel state) (fuel : Nat) :
    (freeDeep fuel dev (rootDepth entry) ((kernel.inodes index).zone entry)).wp
      fate Io
      (fun _ next => Cut dev sb limit index (entry + 1) cleared kernel next)
      state := by
  have disposable : Disposable dev sb (rootDepth entry)
      ((kernel.inodes index).zone entry) (kernel.cut index cleared) :=
    (files.disposable isHeld inInode isSome rest).cut
  have deep : limit + rootDepth entry < 255 := by
    unfold rootDepth
    split <;> omega
  have notFreed (zone : Nat) (isNode : zone ∈ (kernel.cut index cleared).zonesBelow
      dev (rootDepth entry) ((kernel.inodes index).zone entry)) :
      zone ∉ kernel.zonesUnder index entry := by
    rintro ⟨_, place, placeValid, before, rfl⟩
    obtain ⟨isZone, slot, valid, isTop, same⟩ :=
      (files.mem_root isHeld inInode isSome).mp isNode
    have slots := (files.once index isHeld index isHeld place slot placeValid
      valid same.symm isZone).2
    rw [slots, isTop] at before
    exact Nat.lt_irrefl _ before
  have same := disposable.below_later cut notFreed
  apply wp_mono (freeDeep_frees spent deep fuel _ state cut.volume
    (cut.carried.supers ▸ apart)
    (disposable.later cut notFreed fun _ gained => absurd gained
      (Nat.lt_irrefl 0)))
  intro _ next given
  rw [same] at given
  show GivenBack dev sb limit 0 _ _ next
  rw [files.zonesUnder_some isHeld inInode isSome]
  exact (GivenBack.trans cut given).gains fun _ => rfl

/-- The loop over the zones that the inode names. -/
theorem FilesHeld.freeDirect_wp (fuel : Nat) {count : Nat} (isWithin : count ≤ 7) :
    (Prog.upTo (fun entry => do
      let kernel ← Prog.get
      let inode := kernel.inodes index
      if inode.zone entry ≠ 0 then do
        freeBlock fuel inode.dev (inode.zone entry)
        onInode index fun inode => inode.setZone entry 0
      else pure ()) count).wp fate Io
      (fun _ next => Cut dev sb limit index count count kernel next) kernel := by
  induction count with
  | zero =>
      show GivenBack dev sb limit 0 _ _ kernel
      have nothing : kernel.zonesUnder index 0 = ∅ := by
        ext zone
        exact ⟨fun ⟨_, _, _, below, _⟩ => Nat.not_lt_zero _ below, False.elim⟩
      rw [nothing, Kernel.cut_zero]
      exact .refl files.volume
  | succ count induction =>
      unfold Prog.upTo
      rw [wp_bind]
      apply wp_mono (induction (Nat.le_of_lt isWithin))
      intro _ state cut
      obtain ⟨isDev, isRoot⟩ := cut.root (Nat.lt_irrefl count)
      rw [wp_bind, wp_get]
      dsimp only
      rw [isRoot, isDev, files.isDev index isHeld]
      by_cases isSome : (kernel.inodes index).zone count ≠ 0
      · rw [if_pos isSome, wp_bind]
        have direct : rootDepth count = 0 := if_pos isWithin
        have frees := files.freeRoot_wp rest isHeld spent room apart (by omega)
          isSome cut fuel
        rw [direct] at frees
        apply wp_mono frees
        intro _ next freed
        exact freed.clear (files.isDev index isHeld)
      · rw [if_neg isSome, wp_pure]
        have isNone := not_not.mp isSome
        unfold Cut
        rw [kernel.cut_none isNone]
        exact cut.skip isNone

/-- `free_ind` and `free_dind`. -/
theorem FilesHeld.freeIndirect_wp {depth : Nat} (isDeep : depth < 2)
    (cut : Cut dev sb limit index (7 + depth) cleared kernel state)
    (fuel : Nat) :
    (freeDeep fuel dev (depth + 1) ((kernel.inodes index).zone (7 + depth))).wp
      fate Io
      (fun _ next => Cut dev sb limit index (7 + depth + 1) cleared kernel next)
      state := by
  by_cases isSome : (kernel.inodes index).zone (7 + depth) ≠ 0
  · have frees := files.freeRoot_wp rest isHeld spent room apart (by omega)
      isSome cut fuel
    have isRoot : rootDepth (7 + depth) = depth + 1 := by
      unfold rootDepth
      rw [if_neg (by omega)]
      omega
    rw [isRoot] at frees
    exact frees
  · have isNone := not_not.mp isSome
    rw [isNone, freeDeep_none]
    exact cut.skip isNone

end Walk

/-! ## The file afterwards -/

/-- An inode that has lost its zones. -/
def Inode.truncated (inode : Inode) (now : Nat) : Inode :=
  { (inode.setZone 7 0).setZone 8 0 with
    size := 0
    dirt := true
    mtime := now
    ctime := now }

/-- A file has lost its bytes, and the others are what they were. -/
abbrev Truncated (dev sb limit : Nat) (held : Set Nat) (index : Nat) :
    Kernel → Kernel → Prop :=
  FilesChanged dev sb limit held (onFile index fun _ => ByteFile.empty)

section Afterwards

variable {dev sb limit index : Nat} {kernel state : Kernel} {held : Set Nat}

theorem ZoneSlot.top_lt {slot : ZoneSlot} (valid : slot.Valid) : slot.top < 9 := by
  cases slot with
  | root entry => exact valid
  | cell block entry =>
      cases block with
      | single => exact (by decide : 7 < 9)
      | double => exact (by decide : 8 < 9)
      | middle place => exact (by decide : 8 < 9)

theorem Kernel.mem_zonesUnder {slot : ZoneSlot} (valid : slot.Valid)
    (isZone : (kernel.tree index).value slot ≠ 0) :
    (kernel.tree index).value slot ∈ kernel.zonesUnder index 9 :=
  ⟨isZone, slot, valid, ZoneSlot.top_lt valid, rfl⟩

/-- The zones of another file are not under the inode. -/
theorem FilesHeld.notUnder (files : FilesHeld dev sb limit held kernel)
    (isHeld : index ∈ held) {other : Nat} (isOther : other ∈ held)
    (different : other ≠ index) {slot : ZoneSlot} (valid : slot.Valid)
    (isZone : (kernel.tree other).value slot ≠ 0) :
    (kernel.tree other).value slot ∉ kernel.zonesUnder index 9 := by
  rintro ⟨_, place, placeValid, _, same⟩
  exact different (files.once other isOther index isHeld slot place valid
    placeValid same.symm isZone).1

/-- The state at the end of `truncate`. -/
def Kernel.afterCut (state : Kernel) (index : Nat) : Kernel :=
  state.setInode index ((state.inodes index).truncated state.now)

variable (cut : Cut dev sb limit index 9 7 kernel state)

include cut

/-- The inode itself. -/
theorem Cut.afterwards :
    ((state.afterCut index).inodes index).zone =
        ((kernel.inodes index).cleared 9).zone ∧
      ((state.afterCut index).inodes index).size = 0 ∧
      (kernel.inodes index).SameFile ((state.afterCut index).inodes index) := by
  obtain ⟨_, _, same⟩ := cut.own
  have own : (state.afterCut index).inodes index =
      (state.inodes index).truncated state.now := if_pos rfl
  have zones : ((((kernel.inodes index).cleared 7).setZone 7 0).setZone 8 0).zone =
      ((kernel.inodes index).cleared 9).zone := by
    rw [Inode.cleared_setZone, Inode.cleared_setZone]
  rw [own, same]
  exact ⟨zones, rfl, rfl, rfl, rfl⟩

theorem Cut.own_value {slot : ZoneSlot} (valid : slot.Valid) :
    ((state.afterCut index).tree index).value slot = 0 := by
  apply Kernel.value_none
  rw [cut.afterwards.1]
  exact if_pos (ZoneSlot.top_lt valid)

/-- Another inode. -/
theorem Cut.other {other : Nat} (different : other ≠ index) : ∃ dirt lock,
      (state.afterCut index).inodes other =
        { kernel.inodes other with dirt, lock } := by
  obtain ⟨dirt, lock, same⟩ := cut.inode other
  rw [Kernel.cut_other different] at same
  refine ⟨dirt, lock, ?_⟩
  rw [← same]
  exact if_neg different

theorem Cut.own_empty :
    (state.afterCut index).fileAt index = ByteFile.empty := by
  refine ByteFile.ext cut.afterwards.2.1 (funext fun place => ?_)
  by_cases inRange : place < mappedBytes
  · exact if_pos (.inr (cut.own_value (leaf_inRange inRange)))
  · exact if_pos (.inl (Nat.le_of_not_lt inRange))

/-- A zone that is not under the inode is in use if it was. -/
theorem Cut.inUse_iff {zone : Nat} :
    InUse ((state.afterCut index).supers sb) (state.afterCut index) zone ↔
      InUse (kernel.supers sb) kernel zone ∧
        zone ∉ kernel.zonesUnder index 9 := by
  have supers : (state.afterCut index).supers = kernel.supers :=
    cut.carried.supers
  rw [supers]
  constructor
  · rintro ⟨lower, upper, isUsed⟩
    have notFreed : zone ∉ kernel.zonesUnder index 9 := by
      intro isFreed
      have isFree : mapBit (state.afterCut index) (kernel.supers sb).zmap
          (zone + 1 - (kernel.supers sb).firstdatazone) = some false :=
        cut.cleared zone isFreed
      rw [isFree] at isUsed
      cases isUsed
    exact ⟨⟨lower, upper, (cut.others zone lower upper notFreed).symm.trans isUsed⟩,
      notFreed⟩
  · rintro ⟨⟨lower, upper, isUsed⟩, notFreed⟩
    exact ⟨lower, upper, (cut.others zone lower upper notFreed).trans isUsed⟩

variable (files : FilesHeld dev sb limit held kernel) (isHeld : index ∈ held)

include files isHeld

theorem Cut.other_value {other : Nat} (isOther : other ∈ held)
    (different : other ≠ index) {slot : ZoneSlot} (valid : slot.Valid) :
    ((state.afterCut index).tree other).value slot =
      (kernel.tree other).value slot := by
  obtain ⟨_, _, same⟩ := cut.other different
  have keeps : KeepsData dev sb (kernel.zonesUnder index 9) kernel
      (state.afterCut index) := cut.data
  apply (files.sameTree keeps isOther (by rw [same]) (by rw [same]) ?_).value valid
  intro block blockValid isZone
  rw [← ZoneTree.value_slot] at isZone ⊢
  exact files.notUnder isHeld isOther different (Indirect.slot_valid blockValid)
    isZone

theorem Cut.other_same {other : Nat} (isOther : other ∈ held)
    (different : other ≠ index) :
    (state.afterCut index).fileAt other = kernel.fileAt other := by
  obtain ⟨_, _, same⟩ := cut.other different
  have keeps : KeepsData dev sb (kernel.zonesUnder index 9) kernel
      (state.afterCut index) := cut.data
  apply Kernel.fileAt_same (by rw [same])
  intro place inRange
  apply files.sameByte keeps isOther (by rw [same]) inRange
  · exact cut.other_value files isHeld isOther different (leaf_inRange inRange)
  · exact fun isZone =>
      files.notUnder isHeld isOther different (leaf_inRange inRange) isZone

theorem Cut.kept :
    SlotsKept dev sb limit held none kernel (state.afterCut index) where
  volume := by
    obtain ⟨_, _, same⟩ := cut.own
    have stateDev : (state.inodes index).dev = dev := by
      rw [same]
      exact files.isDev index isHeld
    exact cut.volume.setInode rfl rfl stateDev
  same := by
    intro other _
    by_cases here : other = index
    · rw [here]
      exact cut.afterwards.2.2
    · obtain ⟨_, _, same⟩ := cut.other here
      rw [same]
      exact ⟨rfl, rfl, rfl⟩
  slot := by
    intro other isOther slot valid isZone
    have different : other ≠ index := by
      rintro rfl
      exact isZone (cut.own_value valid)
    rw [cut.other_value files isHeld isOther different valid] at isZone ⊢
    exact ⟨cut.inUse_iff.mpr ⟨files.inUse other isOther slot valid isZone,
      files.notUnder isHeld isOther different valid isZone⟩, .inl rfl⟩

theorem Cut.ledger :
    KeepsLedger sb held kernel (state.afterCut index) := by
  apply (cut.kept files isHeld).ledger files
  · intro zone isUsed notOwn
    refine cut.inUse_iff.mpr ⟨isUsed, ?_⟩
    rintro ⟨_, slot, valid, _, isValue⟩
    exact notOwn ⟨index, isHeld, slot, valid, isValue⟩
  · intro _ zone isUsed notOwn
    obtain ⟨wasUsed, notUnder⟩ := cut.inUse_iff.mp isUsed
    refine ⟨wasUsed, ?_⟩
    rintro ⟨owner, isOwner, slot, valid, rfl⟩
    have different : owner ≠ index := by
      rintro rfl
      refine notUnder (Kernel.mem_zonesUnder valid fun isNone => ?_)
      rw [isNone] at wasUsed
      exact files.volume.notInUse_zero wasUsed
    exact notOwn ⟨owner, isOwner, slot, valid,
      cut.other_value files isHeld isOwner different valid⟩

theorem Cut.truncated :
    Truncated dev sb limit held index kernel (state.afterCut index) where
  files := (cut.kept files isHeld).hold files
  same := by
    intro other isOther
    by_cases here : other = index
    · rw [here, onFile_own]
      exact cut.own_empty
    · rw [onFile_other here]
      exact cut.other_same files isHeld isOther here
  carried := ⟨⟨cut.carried.size, cut.carried.held⟩, cut.carried.supers,
    cut.carried.driver, cut.carried.now, cut.carried.count⟩
  ledger := cut.ledger files isHeld

end Afterwards

/-- `truncate` gives back what is under a file, and does not panic. -/
theorem FilesHeld.truncate_wp {dev sb limit index : Nat} {kernel : Kernel}
    {held : Set Nat} {fate : Fate}
    (files : FilesHeld dev sb limit held kernel)
    (rest : AtRest dev sb kernel) (isHeld : index ∈ held) (spent : fate.spent)
    (room : limit + 2 < 255) (apart : (kernel.supers sb).MapsApart)
    (fuel : Nat) :
    (truncate fuel index).wp fate Io
      (fun _ next => Truncated dev sb limit held index kernel next) kernel := by
  have isRegular := (files.isFile index isHeld).1
  have isDev := files.isDev index isHeld
  unfold truncate
  rw [wp_bind, wp_get, if_neg (by simp [isRegular]), wp_bind]
  generalize isAll : 7 = all
  apply wp_mono (files.freeDirect_wp rest isHeld spent room apart fuel
    (Nat.le_of_eq isAll.symm))
  subst isAll
  intro _ direct cut
  obtain ⟨directDev, single⟩ := cut.root (Nat.lt_irrefl 7)
  rw [wp_bind, wp_get]
  dsimp only
  rw [directDev, isDev, single, freeInd_deep, wp_bind]
  apply wp_mono (files.freeIndirect_wp rest isHeld spent room apart
    (by decide : 0 < 2) cut fuel)
  intro _ middle cut
  obtain ⟨middleDev, double⟩ := cut.root (by decide : ¬8 < 7)
  rw [wp_bind, wp_get, middleDev, isDev, double, freeDind_deep, wp_bind]
  apply wp_mono (files.freeIndirect_wp rest isHeld spent room apart
    (by decide : 1 < 2) cut fuel)
  intro _ last cut
  exact cut.truncated files isHeld

end Linux011.Fs
