import Linux011.Fs.Mount
import Linux011.Fs.MountPoints

/-!
# The references of a superblock

`read_super` takes a reference to each block of both maps and `put_super`
gives them back.  Nothing else in the tables changes on the way.
-/

namespace Linux011.Fs

open Coop Prog

/-- The blocks of the maps of a superblock, one entry for each pointer. -/
def Super.maps (super : Super) : List Nat :=
  (List.range mapSlots).filterMap super.imap ++
    (List.range mapSlots).filterMap super.zmap

theorem Super.maps_length (super : Super) : super.maps.length ≤ 16 := by
  have most (slots : Nat → Option Nat) :
      ((List.range mapSlots).filterMap slots).length ≤ 8 := by
    refine le_trans (List.length_filterMap_le _ _) ?_
    rw [List.length_range]
    exact le_refl 8
  unfold Super.maps
  rw [List.length_append]
  exact Nat.add_le_add (most super.imap) (most super.zmap)

/-! ## References beyond those of a call -/

/-- The references to `bufs` are counted as old ones. -/
def Kernel.holding (base : Kernel) (bufs : List Nat) : Kernel :=
  { base with buffers := fun bh =>
      { base.buffers bh with
        count := (base.buffers bh).count + bufs.count bh } }

/-- The counters have room for so many buffers beside those of a call. -/
structure HasSpace (base : Kernel) (size : Nat) : Prop where
  buffer : ∀ bh, (base.buffers bh).count + size + 8 ≤ 255
  inode : ∀ slot, (base.inodes slot).count + 8 ≤ 65535

section Walks

variable {base : Kernel} {bufs maps inodes : List Nat} {size : Nat} {α : Type}

theorem HasSpace.room (space : HasSpace base size) (fits : maps.length ≤ size) :
    HasRoom (base.holding maps) where
  buffer := by
    intro bh
    have most : maps.count bh ≤ maps.length := List.count_le_length
    have bound := space.buffer bh
    show (base.buffers bh).count + maps.count bh + 8 ≤ 255
    omega
  inode := space.inode

theorem HasSpace.bare (space : HasSpace base size) : HasRoom base where
  buffer := by
    intro bh
    have bound := space.buffer bh
    omega
  inode := space.inode

theorem walking_holding {kernel : Kernel} :
    Walking (base.holding maps) bufs inodes kernel ↔
      Walking base (bufs ++ maps) inodes kernel := by
  have same (bh : Nat) :
      (base.buffers bh).count + maps.count bh + bufs.count bh =
        (base.buffers bh).count + (bufs ++ maps).count bh := by
    rw [List.count_append]
    omega
  constructor
  · rintro ⟨⟨isSize, lists, buffer, inode⟩, tabled⟩
    refine ⟨⟨isSize, lists, fun bh => ?_, inode⟩,
      tabled.supers, tabled.mount, tabled.num⟩
    rw [← same]
    exact buffer bh
  · rintro ⟨⟨isSize, lists, buffer, inode⟩, tabled⟩
    refine ⟨⟨isSize, lists, fun bh => ?_, inode⟩,
      tabled.supers, tabled.mount, tabled.num⟩
    rw [buffer bh, ← same]
    rfl

theorem Walking.permute {kernel : Kernel} {others : List Nat}
    (walking : Walking base bufs inodes kernel) (same : bufs.Perm others) :
    Walking base others inodes kernel :=
  ⟨walking.holding.reorder same (.refl inodes), walking.tabled⟩

theorem bread_maps (space : HasSpace base size) (fits : maps.length ≤ size)
    (fuel dev block : Nat) :
    Hoare .any Interrupts (Walking base maps inodes)
      (bread fuel dev block).unmarked
      fun found => Walking base (found.toList ++ maps) inodes := by
  have returns := @bread_returns (base.holding maps) [] inodes .any
    releasing_any (space.room fits) (by decide) fuel dev block
  refine hoare_weaken (walks returns (bread_anchored fuel dev block)) ?_ ?_
  · exact fun _ walking => walking_holding.mpr walking
  · intro found _ walking
    rw [List.append_nil] at walking
    exact walking_holding.mp walking

theorem brelse_maps (space : HasSpace base size) (fits : maps.length ≤ size)
    (buf : Option Nat) :
    Hoare .any Interrupts (Walking base (buf.toList ++ maps) inodes) (brelse buf)
      fun _ => Walking base maps inodes := by
  have returns := @brelse_pointer (base.holding maps) [] inodes .any
    (space.room fits) (by decide) buf
  have walked : Hoare .any Interrupts
      (Walking (base.holding maps) (buf.toList ++ []) inodes) (brelse buf)
      fun _ => Walking (base.holding maps) [] inodes :=
    walks returns (brelse_anchored buf)
  refine hoare_weaken walked ?_ ?_
  · intro _ walking
    rw [List.append_nil]
    exact walking_holding.mpr walking
  · exact fun _ _ walking => walking_holding.mp walking

theorem iput_maps (grounded : Grounded (base.holding maps))
    (slots : inodes.length ≤ 7) (fuel index : Nat) :
    Hoare .any Interrupts (Walking base maps (index :: inodes))
      (iput fuel (some index)) fun _ => Walking base maps inodes := by
  have puts := @iput_walks (base.holding maps) [] inodes grounded (by decide)
    slots fuel index
  refine hoare_weaken puts ?_ ?_
  · exact fun _ walking => walking_holding.mpr walking
  · exact fun _ _ walking => walking_holding.mp walking

/-! ## The slot of a superblock -/

/-- The slot holds `super`; all else is as in a look-up. -/
abbrev Slotted (base : Kernel) (sb : Nat) (super : Super)
    (bufs inodes : List Nat) : Kernel → Prop :=
  Walking (base.setSuper sb super) bufs inodes

variable {sb : Nat} {super : Super}

theorem Slotted.is {kernel : Kernel}
    (slotted : Slotted base sb super bufs inodes kernel) :
    kernel.supers sb = super := by
  rw [slotted.tabled.supers]
  exact if_pos rfl

/-- The slot is filled in with something else. -/
theorem Walking.slot {kernel : Kernel}
    (walking : Walking base bufs inodes kernel) (sb : Nat) (super : Super) :
    Slotted base sb super bufs inodes (kernel.setSuper sb super) where
  holding := by
    have holding := walking.holding
    exact ⟨holding.size,
      holding.lists.congr (SameLists.elsewhere rfl rfl rfl rfl :
        SameLists kernel (kernel.setSuper sb super)),
      holding.buffer, holding.inode⟩
  tabled := by
    refine ⟨?_, walking.tabled.mount, walking.tabled.num⟩
    show (kernel.setSuper sb super).supers = (base.setSuper sb super).supers
    unfold Kernel.setSuper
    rw [walking.tabled.supers]

theorem Slotted.slot {kernel : Kernel} {other : Super}
    (slotted : Slotted base sb super bufs inodes kernel) :
    Slotted base sb other bufs inodes (kernel.setSuper sb other) := by
  have twice : (base.setSuper sb super).setSuper sb other =
      base.setSuper sb other := by
    unfold Kernel.setSuper
    congr 1
    funext index
    dsimp only
    split <;> rfl
  show Walking (base.setSuper sb other) bufs inodes _
  rw [← twice]
  exact Walking.slot slotted sb other

theorem onSuper_slotted (change : Super → Super) :
    Hoare .any Interrupts (Slotted base sb super bufs inodes)
      (onSuper sb change)
      fun _ => Slotted base sb (change super) bufs inodes := by
  apply hoare_modify
  intro kernel slotted
  rw [slotted.is]
  exact slotted.slot

theorem lockSuper_slotted :
    Hoare .any Interrupts (Slotted base sb super bufs inodes) (lockSuper sb)
      fun _ => Slotted base sb { super with lock := true } bufs inodes := by
  apply hoare_bind (hoare_waitUntil fun _ _ slotted calm => slotted.lasts calm)
  intro _
  exact hoare_pre (onSuper_slotted _) fun _ holds => holds.1

theorem HasSpace.slot (space : HasSpace base size) :
    HasSpace (base.setSuper sb super) size :=
  ⟨space.buffer, space.inode⟩

/-! ## Giving the maps back -/

theorem releaseArray_slotted (slots : Super → Nat → Option Nat)
    (space : HasSpace base size) (count : Nat)
    (fits : count + maps.length ≤ size) :
    Hoare .any Interrupts
      (Slotted base sb super
        ((List.range count).filterMap (slots super) ++ maps) inodes)
      (Prog.upTo (fun i => do
        let kernel ← Prog.get
        brelse (slots (kernel.supers sb) i)) count)
      fun _ => Slotted base sb super maps inodes := by
  induction count generalizing maps with
  | zero => exact hoare_pure fun _ slotted => slotted
  | succ count induction =>
      have single : (slots super count).toList.length ≤ 1 := by
        cases slots super count <;> simp
      refine hoare_bind (hoare_pre (induction
        ?_ : Hoare .any Interrupts
          (Slotted base sb super ((List.range count).filterMap (slots super) ++
            ((slots super count).toList ++ maps)) inodes) _ _) ?_) fun _ => ?_
      · rw [List.length_append]
        omega
      · intro kernel slotted
        rw [List.range_succ, List.filterMap_append, List.append_assoc]
          at slotted
        have last : [count].filterMap (slots super) =
            (slots super count).toList := by
          cases isSlot : slots super count <;> simp [isSlot]
        rw [last] at slotted
        exact slotted
      · apply hoare_get
        intro kernel slotted
        rw [Slotted.is slotted]
        exact hoare_at slotted
          (brelse_maps space.slot (show maps.length ≤ size by omega) _)

theorem releaseMaps_slotted (space : HasSpace base 16) :
    Hoare .any Interrupts (Slotted base sb super super.maps inodes)
      (releaseMaps sb) fun _ => Slotted base sb super [] inodes := by
  have second : ((List.range mapSlots).filterMap super.zmap).length ≤ 8 := by
    refine le_trans (List.length_filterMap_le _ _) ?_
    rw [List.length_range]
    exact le_refl 8
  apply hoare_bind (releaseArray_slotted Super.imap space mapSlots
    (Nat.add_le_add (le_refl 8) second))
  intro _
  refine hoare_pre (releaseArray_slotted Super.zmap space mapSlots
    (show 8 + 0 ≤ 16 by decide)) fun _ slotted => ?_
  rw [List.append_nil]
  exact slotted

/-! ## Reading a superblock -/

/-- The slot is in use for `dev`, is mounted nowhere and owns its maps. -/
def Filling (base : Kernel) (dev sb : Nat) (inodes : List Nat)
    (kind : Super → Prop) (kernel : Kernel) : Prop :=
  ∃ super : Super, super.dev = dev ∧ super.isup = none ∧ super.imount = none ∧
    kind super ∧ Slotted base sb super super.maps inodes kernel

/-- The slot has been given up. -/
def GivenUp (base : Kernel) (sb : Nat) (inodes : List Nat) (kernel : Kernel) :
    Prop :=
  ∃ super : Super, super.dev = 0 ∧ super.isup = none ∧ super.imount = none ∧
    Slotted base sb super [] inodes kernel

/-- What `read_super` does to a slot it has taken. -/
def Filled (base : Kernel) (dev sb : Nat) (inodes : List Nat) :
    Option Nat → Kernel → Prop
  | none => GivenUp base sb inodes
  | some found => fun kernel =>
      found = sb ∧ Filling base dev sb inodes (fun _ => True) kernel

/-- How a store to one of the map pointers adds to the maps. -/
structure Stores (set : Nat → Option Nat → Super → Super)
    (free : Nat → Super → Prop) : Prop where
  head : ∀ i bh (super : Super), (set i bh super).dev = super.dev ∧
    (set i bh super).isup = super.isup ∧ (set i bh super).imount = super.imount
  next : ∀ i bh super, free i super → free (i + 1) (set i bh super)
  maps : ∀ i bh super, i < mapSlots → free i super →
    (set i bh super).maps.Perm (bh.toList ++ super.maps)

/-- A pointer that was `NULL` is set. -/
theorem filterMap_set {slots : Nat → Option Nat} {i count : Nat}
    (isNull : slots i = none) (inRange : i < count) (bh : Option Nat) :
    ((List.range count).filterMap fun other =>
      if other = i then bh else slots other).Perm
        (bh.toList ++ (List.range count).filterMap slots) := by
  induction count with
  | zero => exact absurd inRange (Nat.not_lt_zero i)
  | succ count induction =>
      rw [List.range_succ, List.filterMap_append, List.filterMap_append]
      by_cases here : i = count
      · subst here
        have before : (List.range i).filterMap
            (fun other => if other = i then bh else slots other) =
              (List.range i).filterMap slots := by
          apply List.filterMap_congr
          intro other member
          rw [if_neg (Nat.ne_of_lt (List.mem_range.mp member))]
        have after : [i].filterMap
            (fun other => if other = i then bh else slots other) =
              bh.toList := by
          cases bh <;> simp
        have none : [i].filterMap slots = [] := by
          simp [isNull]
        rw [before, after, none, List.append_nil]
        exact List.perm_append_comm
      · have same : [count].filterMap
            (fun other => if other = i then bh else slots other) =
              [count].filterMap slots := by
          apply List.filterMap_congr
          intro other member
          rw [List.mem_singleton.mp member, if_neg (Ne.symm here)]
        rw [same, ← List.append_assoc]
        exact (induction (by omega)).append_right _

theorem imap_stores : Stores Super.setImap fun i super =>
    (∀ j, i ≤ j → super.imap j = none) ∧ ∀ j, super.zmap j = none where
  head := fun _ _ _ => ⟨rfl, rfl, rfl⟩
  next := by
    rintro i bh super ⟨imap, zmap⟩
    refine ⟨fun j later => ?_, zmap⟩
    show (if j = i then bh else super.imap j) = none
    rw [if_neg (by omega)]
    exact imap j (by omega)
  maps := by
    rintro i bh super inRange ⟨imap, _⟩
    unfold Super.maps
    rw [← List.append_assoc]
    exact (filterMap_set (imap i (le_refl i)) inRange bh).append_right _

theorem zmap_stores : Stores Super.setZmap fun i super =>
    ∀ j, i ≤ j → super.zmap j = none where
  head := fun _ _ _ => ⟨rfl, rfl, rfl⟩
  next := by
    intro i bh super zmap j later
    show (if j = i then bh else super.zmap j) = none
    rw [if_neg (by omega)]
    exact zmap j (by omega)
  maps := by
    intro i bh super inRange zmap
    unfold Super.maps
    have stored := (filterMap_set (zmap i (le_refl i)) inRange bh).append_left
      ((List.range mapSlots).filterMap super.imap)
    refine stored.trans ?_
    rw [← List.append_assoc, ← List.append_assoc]
    exact List.perm_append_comm.append_right _

variable {dev : Nat}

/-- Both loops over map blocks. -/
theorem readMap_fills {set : Nat → Option Nat → Super → Super}
    {free : Nat → Super → Prop} {kind : Super → Prop}
    (space : HasSpace base 16) (stores : Stores set free)
    (settles : ∀ i super, free i super → kind super)
    (fuel blockDev rest i block : Nat) :
    Hoare .any Interrupts (Filling base dev sb inodes (free i))
      (readMap (fun _ block => (bread fuel blockDev block).unmarked) sb set rest
        i block)
      fun _ => Filling base dev sb inodes kind := by
  induction rest generalizing i block with
  | zero =>
      refine hoare_pure ?_
      rintro kernel ⟨super, isDev, isup, imount, isFree, slotted⟩
      exact ⟨super, isDev, isup, imount, settles i super isFree, slotted⟩
  | succ rest induction =>
      constructor
      rintro kernel ⟨super, isDev, isup, imount, isFree, slotted⟩
      have reads := @bread_maps (base.setSuper sb super) super.maps inodes 16
        space.slot super.maps_length fuel blockDev block
      have stored (bh : Option Nat) : Hoare .any Interrupts
          (Slotted base sb super (bh.toList ++ super.maps) inodes)
          (storeSlot sb set i bh)
          fun _ => Filling base dev sb inodes (free (i + 1)) := by
        unfold storeSlot
        split <;> rename_i inRange
        · refine hoare_post (onSuper_slotted (set i bh)) ?_
          intro _ next slotted
          obtain ⟨sameDev, sameIsup, sameImount⟩ := stores.head i bh super
          exact ⟨set i bh super, sameDev.trans isDev, sameIsup.trans isup,
            sameImount.trans imount, stores.next i bh super isFree,
            slotted.permute (stores.maps i bh super inRange isFree).symm⟩
        · exact hoare_panic trivial
      have whole : Hoare .any Interrupts
          (Slotted base sb super super.maps inodes)
          (readMap (fun _ block => (bread fuel blockDev block).unmarked) sb set
            (rest + 1) i block)
          fun _ => Filling base dev sb inodes kind := by
        apply hoare_bind reads
        intro bh
        apply hoare_bind (stored bh)
        intro _
        cases bh with
        | none =>
            refine hoare_pure ?_
            rintro kernel ⟨super, isDev, isup, imount, isFree, slotted⟩
            exact ⟨super, isDev, isup, imount, settles _ super isFree, slotted⟩
        | some bh => exact induction (i + 1) (block + 1)
      exact whole.run kernel slotted

/-- The slot is given up again. -/
theorem giveUp_filled (isup : super.isup = none) (imount : super.imount = none) :
    Hoare .any Interrupts (Slotted base sb super [] inodes)
      (do
        onSuper sb Super.giveUp
        return none : Sys (Option Nat))
      (Filled base dev sb inodes) := by
  apply hoare_bind (onSuper_slotted Super.giveUp)
  intro _
  refine hoare_pure ?_
  intro kernel slotted
  exact ⟨super.giveUp, rfl, isup, imount, slotted⟩

theorem markFirst_walks (bh : Option Nat) :
    Hoare .any Interrupts (Walking base bufs inodes) (markFirst bh)
      fun _ => Walking base bufs inodes := by
  cases bh with
  | none => exact hoare_panic trivial
  | some bh =>
      have anchored : (markFirst (some bh)).Within Anchored := by
        apply aside_anchored
        exact within_modify fun _ => Aside.elsewhere rfl rfl
      exact walks (returns_modify fun _ => setBuffer_undisturbed) anchored

theorem settleMaps_fills (space : HasSpace base 16) (block expected : Nat) :
    Hoare .any Interrupts (Filling base dev sb inodes fun _ => True)
      (settleMaps sb block expected) (Filled base dev sb inodes) := by
  constructor
  rintro kernel ⟨super, isDev, isup, imount, _, slotted⟩
  have settles : Hoare .any Interrupts
      (Slotted base sb super super.maps inodes)
      (settleMaps sb block expected) (Filled base dev sb inodes) := by
    unfold settleMaps
    split
    · exact hoare_bind (releaseMaps_slotted space) fun _ =>
        giveUp_filled isup imount
    · apply hoare_read
      intro kernel
      apply hoare_bind (markFirst_walks _)
      intro _
      apply hoare_bind (markFirst_walks _)
      intro _
      apply hoare_bind (onSuper_slotted _)
      intro _
      refine hoare_pure ?_
      intro kernel slotted
      exact ⟨rfl, { super with lock := false }, isDev, isup, imount, trivial,
        slotted⟩
  exact settles.run kernel slotted

theorem fillMaps_fills (space : HasSpace base 16) (fuel : Nat)
    (isDev : super.dev = dev) (isup : super.isup = none)
    (imount : super.imount = none) :
    Hoare .any Interrupts (Slotted base sb super [] inodes)
      (fillMaps
        { super := (bread fuel dev 1).unmarked
          imap := fun _ block => (bread fuel dev block).unmarked
          zmap := fun _ block => (bread fuel dev block).unmarked } sb)
      (Filled base dev sb inodes) := by
  apply hoare_bind (onSuper_slotted _)
  intro _
  apply hoare_read
  intro kernel
  have noMaps : Super.maps
      { super with imap := fun _ => none, zmap := fun _ => none } = [] := by
    simp [Super.maps]
  have empties : ∀ state, Slotted base sb
      { super with imap := fun _ => none, zmap := fun _ => none } [] inodes
        state →
      Filling base dev sb inodes (fun super =>
        (∀ j, 0 ≤ j → super.imap j = none) ∧ ∀ j, super.zmap j = none)
        state := by
    intro state slotted
    rw [← noMaps] at slotted
    exact ⟨{ super with imap := fun _ => none, zmap := fun _ => none }, isDev,
      isup, imount, ⟨fun _ _ => rfl, fun _ => rfl⟩, slotted⟩
  refine hoare_bind (hoare_pre (readMap_fills space imap_stores
    (fun _ _ isFree => isFree.2) fuel dev _ 0 2) empties) fun block => ?_
  have more : ∀ state,
      Filling base dev sb inodes (fun super => ∀ j, super.zmap j = none) state →
      Filling base dev sb inodes (fun super => ∀ j, 0 ≤ j → super.zmap j = none)
        state := by
    rintro state ⟨super, isDev, isup, imount, zmap, slotted⟩
    exact ⟨super, isDev, isup, imount, fun j _ => zmap j, slotted⟩
  have anything (i : Nat) (super : Super)
      (_ : ∀ j, i ≤ j → super.zmap j = none) : True := trivial
  refine hoare_bind (hoare_pre (readMap_fills space zmap_stores anything fuel
    dev _ 0 block) more) fun block => ?_
  exact settleMaps_fills space block _

theorem fillSuper_fills (space : HasSpace base 16) (fuel : Nat)
    (isDev : super.dev = dev) (isup : super.isup = none)
    (imount : super.imount = none) :
    Hoare .any Interrupts (Slotted base sb super [] inodes)
      (fillSuper
        { super := (bread fuel dev 1).unmarked
          imap := fun _ block => (bread fuel dev block).unmarked
          zmap := fun _ block => (bread fuel dev block).unmarked } sb)
      (Filled base dev sb inodes) := by
  have empty : ([] : List Nat).length ≤ 16 := by decide
  apply hoare_bind (bread_maps space.slot empty fuel dev 1)
  rintro (_ | bh)
  · exact giveUp_filled isup imount
  · apply hoare_read
    intro kernel
    apply hoare_bind (onSuper_slotted _)
    intro _
    apply hoare_bind (brelse_maps space.slot empty (some bh))
    intro _
    apply hoare_read
    intro kernel
    split
    · exact giveUp_filled isup imount
    · exact fillMaps_fills space fuel isDev isup imount

/-- How `read_super` leaves the tables. -/
inductive SuperRead (base : Kernel) (dev : Nat) (inodes : List Nat) :
    Option Nat → Kernel → Prop where
  | failed {kernel : Kernel} (walking : Walking base [] inodes kernel) :
      SuperRead base dev inodes none kernel
  | present {sb : Nat} {kernel : Kernel} (notZero : dev ≠ 0)
      (found : findSuper base.supers dev 0 nrSuper = some sb)
      (walking : Walking base [] inodes kernel) :
      SuperRead base dev inodes (some sb) kernel
  | filled {sb : Nat} {found : Option Nat} {kernel : Kernel}
      (notZero : dev ≠ 0)
      (missing : findSuper base.supers dev 0 nrSuper = none)
      (isFree : findSuper base.supers 0 0 nrSuper = some sb)
      (filled : Filled base dev sb inodes found kernel) :
      SuperRead base dev inodes found kernel

/-- `get_super`, while the table does not change. -/
theorem getSuper_walks (dev fuel : Nat) :
    Hoare .any Interrupts (Walking base bufs inodes) (getSuper dev fuel)
      fun found kernel =>
        (found = if dev = 0 then none else findSuper base.supers dev 0 nrSuper) ∧
          Walking base bufs inodes kernel := by
  induction fuel with
  | zero => exact hoare_spent trivial
  | succ fuel induction =>
      unfold getSuper
      split
      · exact hoare_pure fun _ walking => ⟨rfl, walking⟩
      · apply hoare_get
        intro kernel walking
        rw [walking.tabled.supers]
        split <;> rename_i isFound
        · refine hoare_pure ?_
          rintro state rfl
          exact ⟨isFound.symm, walking⟩
        · apply hoare_at walking
          apply hoare_bind (hoare_post (hoare_waitUntil
            fun _ _ walking calm => Walking.lasts walking calm)
            fun _ _ holds => holds.1)
          intro _
          apply hoare_read
          intro kernel
          split
          · exact hoare_pure fun _ walking => ⟨isFound.symm, walking⟩
          · refine hoare_post induction ?_
            rintro found state ⟨isResult, walking⟩
            rw [if_neg (by assumption)] at isResult
            exact ⟨isResult, walking⟩

theorem readSuper_walks (space : HasSpace base 16) (fuel dev : Nat) :
    Hoare .any Interrupts (Walking base [] inodes) (readSuper fuel dev)
      (SuperRead base dev inodes) := by
  unfold readSuper readSuperWith
  split <;> rename_i isZero
  · exact hoare_pure fun _ walking => .failed walking
  · apply hoare_bind (getSuper_walks dev fuel)
    rw [if_neg isZero]
    rintro (_ | sb)
    · apply hoare_given
      intro missing
      apply hoare_get
      intro kernel walking
      rw [walking.tabled.supers]
      split <;> rename_i isFound
      · refine hoare_pure ?_
        rintro state rfl
        exact .failed walking
      · rename_i sb
        apply hoare_at walking
        have takes : Hoare .any Interrupts (Walking base [] inodes)
            (onSuper sb fun super =>
              { super with dev := dev, isup := none, imount := none })
            fun _ => Slotted base sb
              { base.supers sb with dev := dev, isup := none, imount := none }
              [] inodes := by
          apply hoare_modify
          intro kernel walking
          rw [walking.tabled.supers]
          exact walking.slot sb _
        apply hoare_bind takes
        intro _
        apply hoare_bind lockSuper_slotted
        intro _
        refine hoare_post (fillSuper_fills space fuel rfl rfl rfl) ?_
        exact fun found state filled =>
          .filled isZero missing.symm isFound filled
    · refine hoare_pure ?_
      rintro kernel ⟨isFound, walking⟩
      exact .present isZero isFound.symm walking

/-! ## Giving a superblock back -/

/-- `put_super` of a device that is mounted nowhere. -/
theorem putSuper_walks (space : HasSpace base 16) {fuel rootDev : Nat}
    (notRoot : dev ≠ rootDev) (notZero : dev ≠ 0)
    (found : findSuper (base.setSuper sb super).supers dev 0 nrSuper = some sb)
    (imount : super.imount = none) :
    Hoare .any Interrupts (Slotted base sb super super.maps inodes)
      (putSuper fuel rootDev dev)
      fun _ => Slotted base sb { super with dev := 0, lock := false } []
        inodes := by
  unfold putSuper
  rw [if_neg notRoot]
  apply hoare_bind (getSuper_walks dev fuel)
  rw [if_neg notZero, found]
  rintro (_ | other)
  · apply hoare_given
    intro isNone
    cases isNone
  · apply hoare_given
    intro same
    obtain rfl := Option.some.inj same
    apply hoare_get
    intro kernel slotted
    rw [Slotted.is slotted, if_neg (not_not.mpr imount)]
    apply hoare_at slotted
    apply hoare_bind lockSuper_slotted
    intro _
    apply hoare_bind (onSuper_slotted _)
    intro _
    apply hoare_bind (releaseMaps_slotted space)
    intro _
    exact onSuper_slotted _

end Walks

end Linux011.Fs
