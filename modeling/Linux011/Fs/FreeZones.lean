import Linux011.Fs.BlockMap
import Linux011.Fs.FreeBlock
import Linux011.Library.Likeness

/-!
# Zones that are given back

`free_block` of a zone that is in use, and of which nobody holds the buffer,
clears its bit.  It forgets what the buffer held, and changes no other zone.
-/

namespace Linux011.Fs

open Coop Prog

/-- Nobody holds a buffer of the block. -/
def Loose (dev block : Nat) (kernel : Kernel) : Prop :=
  ∀ bh, (kernel.buffers bh).dev = dev → (kernel.buffers bh).block = block →
    (kernel.buffers bh).count = 0

/-- Zones were given back, and no other zone was touched. -/
structure GivenBack (dev sb limit : Nat) (gain : Nat → Nat) (zones : Set Nat)
    (kernel next : Kernel) : Prop where
  volume : Volume dev sb limit next
  carried : Carried gain kernel next
  inode : ∀ index, ∃ dirt lock,
    next.inodes index = { kernel.inodes index with dirt, lock }
  data : ∀ zone offset, (kernel.supers sb).firstdatazone ≤ zone →
    zone ∉ zones → offset < 1024 →
      next.content dev zone offset = kernel.content dev zone offset
  wasUsed : ∀ zone ∈ zones, InUse (kernel.supers sb) kernel zone
  cleared : ∀ zone ∈ zones, mapBit next (kernel.supers sb).zmap
    (zone + 1 - (kernel.supers sb).firstdatazone) = some false
  others : ∀ zone, (kernel.supers sb).firstdatazone ≤ zone →
    zone < (kernel.supers sb).nzones → zone ∉ zones →
      mapBit next (kernel.supers sb).zmap
          (zone + 1 - (kernel.supers sb).firstdatazone) =
        mapBit kernel (kernel.supers sb).zmap
          (zone + 1 - (kernel.supers sb).firstdatazone)

section GivenBack

variable {dev sb limit more : Nat} {kernel middle next : Kernel}
  {left right : Nat → Nat} {zones others : Set Nat}

/-- A buffer that is not gained stays with nobody. -/
theorem Loose.carried {block : Nat} (loose : Loose dev block kernel)
    (carried : Carried left kernel next)
    (apart : ∀ bh, 0 < left bh → (next.buffers bh).dev = dev →
      (next.buffers bh).block ≠ block) : Loose dev block next := by
  intro bh isDev isBlock
  by_contra isHeld
  have count := carried.count bh
  have notGained : ¬0 < left bh := fun gained => apart bh gained isDev isBlock
  have wasHeld : 0 < (kernel.buffers bh).count := by omega
  obtain ⟨sameDev, sameBlock, _⟩ := carried.held bh wasHeld
  have wasLoose := loose bh (sameDev.symm.trans isDev) (sameBlock.symm.trans isBlock)
  omega

theorem GivenBack.refl (volume : Volume dev sb limit kernel) :
    GivenBack dev sb limit 0 ∅ kernel kernel where
  volume := volume
  carried := .refl kernel
  inode := fun _ => ⟨_, _, rfl⟩
  data := fun _ _ _ _ _ => rfl
  wasUsed := fun _ => False.elim
  cleared := fun _ => False.elim
  others := fun _ _ _ _ => rfl

/-- Zones that are given back after others. -/
theorem GivenBack.trans (before : GivenBack dev sb limit left zones kernel middle)
    (after : GivenBack dev sb more right others middle next) :
    GivenBack dev sb more (left + right) (zones ∪ others) kernel next := by
  obtain ⟨_, carried, inode, data, wasUsed, cleared, same⟩ := before
  obtain ⟨volume, nextCarried, nextInode, nextData, nextUsed, nextCleared,
    nextSame⟩ := after
  have supers := carried.supers
  rw [supers] at nextData nextUsed nextCleared nextSame
  have stillFree (zone : Nat) (isIn : zone ∈ zones) :
      mapBit next (kernel.supers sb).zmap
        (zone + 1 - (kernel.supers sb).firstdatazone) = some false := by
    by_cases again : zone ∈ others
    · exact nextCleared zone again
    · rw [nextSame zone (wasUsed zone isIn).lower (wasUsed zone isIn).upper again]
      exact cleared zone isIn
  refine ⟨volume, carried.trans nextCarried, ?_, ?_, ?_, ?_, ?_⟩
  · intro index
    obtain ⟨_, _, wasSame⟩ := inode index
    obtain ⟨dirt, lock, isSame⟩ := nextInode index
    exact ⟨dirt, lock, by rw [isSame, wasSame]⟩
  · intro zone offset inData untouched inBlock
    rw [nextData zone offset inData (fun isIn => untouched (.inr isIn)) inBlock,
      data zone offset inData (fun isIn => untouched (.inl isIn)) inBlock]
  · rintro zone (isIn | isIn)
    · exact wasUsed zone isIn
    · have isUsed := nextUsed zone isIn
      refine ⟨isUsed.lower, isUsed.upper, ?_⟩
      rw [← same zone isUsed.lower isUsed.upper]
      · exact isUsed.isUsed
      · intro isFree
        have free := cleared zone isFree
        rw [isUsed.isUsed] at free
        cases free
  · rintro zone (isIn | isIn)
    · exact stillFree zone isIn
    · exact nextCleared zone isIn
  · intro zone lower upper untouched
    rw [nextSame zone lower upper fun isIn => untouched (.inr isIn),
      same zone lower upper fun isIn => untouched (.inl isIn)]

/-- With the gains counted otherwise. -/
theorem GivenBack.gains (given : GivenBack dev sb limit left zones kernel next)
    (same : ∀ bh, left bh = right bh) :
    GivenBack dev sb limit right zones kernel next :=
  { given with carried := given.carried.gains same }

/-- Work that gives back no zone. -/
theorem Passed.givesNone (passed : Passed dev sb limit left ∅ kernel next)
    (bits : SameBits sb kernel next) :
    GivenBack dev sb limit left ∅ kernel next where
  volume := passed.volume
  carried := passed.carried
  inode := passed.inode
  data := passed.data
  wasUsed := fun _ => False.elim
  cleared := fun _ => False.elim
  others := fun _ _ _ _ => bits _

/-- Work that touches only zones that are given back afterwards. -/
theorem Passed.givesBack (passed : Passed dev sb limit left zones kernel middle)
    (bits : SameBits sb kernel middle)
    (given : GivenBack dev sb more right zones middle next) :
    GivenBack dev sb more (left + right) zones kernel next := by
  obtain ⟨volume, carried, inode, data, wasUsed, cleared, same⟩ := given
  have supers := passed.carried.supers
  rw [supers] at data wasUsed cleared same
  refine ⟨volume, passed.carried.trans carried, ?_, ?_, ?_, cleared, ?_⟩
  · intro index
    obtain ⟨_, _, wasSame⟩ := passed.inode index
    obtain ⟨dirt, lock, isSame⟩ := inode index
    exact ⟨dirt, lock, by rw [isSame, wasSame]⟩
  · intro zone offset inData untouched inBlock
    rw [data zone offset inData untouched inBlock,
      passed.data zone offset inData untouched inBlock]
  · intro zone isIn
    have isUsed := wasUsed zone isIn
    exact ⟨isUsed.lower, isUsed.upper, (bits _).symm.trans isUsed.isUsed⟩
  · intro zone lower upper untouched
    exact (same zone lower upper untouched).trans (bits _)

/-- Zones that are in use are so after others were given back. -/
theorem GivenBack.inUse (given : GivenBack dev sb limit left zones kernel next)
    {zone : Nat} (inUse : InUse (kernel.supers sb) kernel zone)
    (different : zone ∉ zones) : InUse (next.supers sb) next zone := by
  rw [given.carried.supers]
  refine ⟨inUse.lower, inUse.upper, ?_⟩
  rw [given.others zone inUse.lower inUse.upper different]
  exact inUse.isUsed

/-- A reference that was taken is given back. -/
theorem GivenBack.released (volume : Volume dev sb limit kernel) {bh : Nat}
    (given : GivenBack dev sb more (one bh) zones kernel middle)
    (released : Released bh middle next) :
    GivenBack dev sb limit 0 zones kernel next := by
  obtain ⟨grown, carried, inode, data, wasUsed, cleared, same⟩ := given
  have bits := released.mapBit grown
  rw [carried.supers] at bits
  refine ⟨volume.release grown carried released,
    (carried.gains fun _ => (Nat.zero_add _).symm).released released, ?_, ?_,
    wasUsed, ?_, ?_⟩
  · rw [released.inodes]
    exact inode
  · intro zone offset inData untouched inBlock
    rw [released.content dev zone offset volume.hasDev inBlock,
      data zone offset inData untouched inBlock]
  · intro zone isIn
    rw [bits]
    exact cleared zone isIn
  · intro zone lower upper untouched
    rw [bits]
    exact same zone lower upper untouched

end GivenBack

section Discard

variable {dev sb limit zone bh : Nat} {kernel got next : Kernel} {fate : Fate}

/-- The flags of a buffer that `free_block` forgets. -/
def Kernel.discard (kernel : Kernel) (bh : Nat) : Kernel :=
  kernel.setBuffer bh
    { kernel.buffers bh with
      dirt := false
      uptodate := false }

theorem discard_own : (kernel.discard bh).buffers bh =
    { kernel.buffers bh with
      dirt := false
      uptodate := false } :=
  Kernel.setBuffer_same _ _ _

theorem discard_other {other : Nat} (different : other ≠ bh) :
    (kernel.discard bh).buffers other = kernel.buffers other :=
  Kernel.setBuffer_other different

theorem discard_same : SameLists kernel (kernel.discard bh) :=
  sameLists_setBuffer rfl rfl rfl rfl rfl rfl

theorem discard_sound (sound : Sound kernel)
    (unlocked : (kernel.buffers bh).lock = false) :
    Sound (kernel.discard bh) := by
  apply sound.setBuffer discard_same
  · intro slot dev inRange isFor isOwn
    have locked := (sound.requested slot dev inRange isFor).locked
    rw [isOwn, unlocked] at locked
    cases locked
  · intro _ _ isFresh
    cases isFresh
  · intro _ isDirty
    cases isDirty

theorem discard_content (isFor : IsFor dev zone bh kernel) {other block : Nat}
    (different : ¬(other = dev ∧ block = zone)) :
    (kernel.discard bh).content other block = kernel.content other block := by
  unfold Kernel.content
  rw [Kernel.holder_sameLists discard_same]
  cases found : kernel.holder other block with
  | none => rfl
  | some holder =>
      obtain ⟨_, holderDev, holderBlock⟩ := Kernel.holder_some found
      have apart : holder ≠ bh := by
        rintro rfl
        exact different ⟨holderDev.symm.trans isFor.1,
          holderBlock.symm.trans isFor.2⟩
      have live : (kernel.discard bh).Live holder ↔ kernel.Live holder := by
        unfold Kernel.Live
        rw [discard_other apart]
        exact Iff.rfl
      dsimp only
      unfold Kernel.value
      simp only [live, discard_other apart]
      rfl

/-- The flags are cleared. -/
theorem Volume.discarded (volume : Volume dev sb limit kernel)
    (isGot : Got kernel dev zone bh got)
    (lower : (kernel.supers sb).firstdatazone ≤ zone)
    (loose : (kernel.buffers bh).count = 0) :
    Passed dev sb (limit + 1) (one bh) {zone} kernel (got.discard bh) ∧
      SameBits sb kernel (got.discard bh) := by
  have settled := isGot.settled
  have grown := volume.got isGot
  have sound := discard_sound isGot.sound isGot.unlocked
  have ordered := volume.ordered
  have others {other : Nat} (isHeld : 0 < (kernel.buffers other).count) :
      other ≠ bh := by
    rintro rfl
    omega
  have carried : Carried (one bh) kernel (got.discard bh) := by
    refine ⟨⟨settled.size, ?_⟩, settled.supers, settled.driver, settled.now, ?_⟩
    · intro other isHeld
      obtain ⟨isDev, isBlock, isFresh, _⟩ := settled.held other isHeld
      rw [discard_other (others isHeld)]
      exact ⟨isDev, isBlock, isFresh⟩
    · intro other
      rw [← settled.count]
      by_cases here : other = bh
      · rw [here, discard_own]
      · rw [discard_other here]
  have content (block offset : Nat)
      (apart : block < (kernel.supers sb).tableStart ∨
        (kernel.supers sb).firstdatazone ≤ block)
      (different : block ≠ zone) (inBlock : offset < 1024) :
      (got.discard bh).content dev block offset =
        kernel.content dev block offset := by
    rw [discard_content isGot.isFor fun same => different same.2]
    exact volume.outside settled apart inBlock
  have bits : SameBits sb kernel (got.discard bh) :=
    volume.mapBit_kept sound carried.toKeepsHeld fun block offset below inBlock =>
      content block offset (.inl below) (by omega) inBlock
  have later : Volume dev sb (limit + 1) (got.discard bh) := by
    apply volume.carried carried sound
    · rintro other block ⟨holder, isBuffer, isFor, isDirty, notFresh⟩
      by_cases here : holder = bh
      · rw [here, discard_own] at isDirty
        cases isDirty
      · rw [discard_other here] at isDirty notFresh
        have isHolder : IsFor other block holder got := by
          unfold IsFor at isFor
          rw [discard_other here] at isFor
          exact isFor
        exact grown.notBlind other block
          ⟨holder, isBuffer, isHolder, isDirty, notFresh⟩
    · intro other
      by_cases here : other = bh
      · rw [here, discard_own]
        exact grown.few bh
      · rw [discard_other here]
        exact grown.few other
    · rw [bits]
      exact fun isFree => isFree
    · intro index
      obtain ⟨dirt, lock, same, wasDirty⟩ := settled.inode index
      have sameInode : (got.discard bh).inodes index =
          { kernel.inodes index with dirt, lock } := same
      rw [sameInode]
      exact ⟨rfl, rfl, fun isDirty => .inl (wasDirty isDirty)⟩
  refine ⟨⟨⟨later, carried, ?_, ?_, ?_⟩, ?_⟩, bits⟩
  · intro other offset inData different inBlock
    exact content other offset (.inr inData) different inBlock
  · intro nr isUsed
    rw [bits]
    exact isUsed
  · intro nr isFree
    rw [← bits]
    exact isFree
  · intro index
    obtain ⟨dirt, lock, same, _⟩ := settled.inode index
    exact ⟨dirt, lock, same⟩

/-- The buffer is forgotten and given back. -/
theorem Volume.discard_wp (volume : Volume dev sb limit kernel)
    (isGot : Got kernel dev zone bh got)
    (lower : (kernel.supers sb).firstdatazone ≤ zone)
    (loose : (kernel.buffers bh).count = 0) :
    (brelse (some bh)).wp fate Io
      (fun _ next => Passed dev sb limit 0 {zone} kernel next ∧
        SameBits sb kernel next) (got.discard bh) := by
  obtain ⟨passed, bits⟩ := volume.discarded isGot lower loose
  have count := passed.carried.count bh
  rw [loose, one_same] at count
  apply wp_mono (brelse_released passed.volume.sound (by omega) (by omega))
  intro _ next released
  refine ⟨passed.released volume released, fun nr => ?_⟩
  have given := released.mapBit passed.volume nr
  rw [passed.carried.supers] at given
  rw [given]
  exact bits nr

end Discard

/-! ## The bit -/

section Bit

variable {dev sb limit zone index bh : Nat} {kernel middle next : Kernel}
  {fate : Fate}

theorem mapBit_unmark {map : Nat → Option Nat} (bit nr : Nat) :
    mapBit (kernel.edit bh (clearBit bit (kernel.buffers bh).data) true) map nr =
      if map (nr / 8192) = some bh ∧ nr % 8192 = bit then some false
      else mapBit kernel map nr := by
  unfold mapBit
  cases isLoaded : map (nr / 8192) with
  | none => simp
  | some other =>
      by_cases here : other = bh
      · subst here
        simp only [Option.map_some, edit_own, bitOf_clearBit]
        by_cases isBit : nr % 8192 = bit
        · simp [isBit]
        · simp [isBit]
      · simp [edit_other here, here]

/-- The bit of a zone is cleared in its block of the map. -/
theorem Volume.unmarked (volume : Volume dev sb limit kernel)
    (apart : (kernel.supers sb).MapsApart)
    (inUse : InUse (kernel.supers sb) kernel zone) {nr : Nat}
    (isNr : nr = zone + 1 - (kernel.supers sb).firstdatazone)
    (isMap : (kernel.supers sb).zmap (nr / 8192) = some bh) :
    GivenBack dev sb limit 0 {zone} kernel (kernel.edit bh
      (clearBit (nr % 8192) (kernel.buffers bh).data) true) := by
  have loaded := volume.loaded _ bh isMap
  have below := loaded.below
  have ordered := volume.ordered
  have inside := volume.inside
  have lower := inUse.lower
  have bit (other : Nat) : mapBit (kernel.edit bh
      (clearBit (nr % 8192) (kernel.buffers bh).data) true)
      (kernel.supers sb).zmap other =
        if other = nr then some false
        else mapBit kernel (kernel.supers sb).zmap other := by
    rw [mapBit_unmark]
    by_cases here : other = nr
    · rw [if_pos here, if_pos ⟨here ▸ isMap, by rw [here]⟩]
    · rw [if_neg here, if_neg]
      rintro ⟨isBlock, isBit⟩
      have sameIndex := apart _ _ bh isBlock isMap
      omega
  refine ⟨?_, .edit kernel bh _ fun _ => rfl, fun other => ⟨_, _, rfl⟩, ?_, ?_,
    ?_, ?_⟩
  · apply volume.carried (.edit kernel bh _ fun _ => rfl)
    · apply edit_sound volume.sound
        (volume.sound.notReading (.inl loaded.fresh))
      · rw [loaded.isDev]
        exact volume.hasDev
      · rw [loaded.isDev]
        exact volume.serves _ (by omega)
    · exact volume.edit_notBlind
    · intro other
      by_cases here : other = bh
      · rw [here, edit_own]
        exact volume.few bh
      · rw [edit_other here]
        exact volume.few other
    · rw [bit, if_neg (by omega)]
      exact fun isFree => isFree
    · exact fun other => ⟨rfl, rfl, .inl⟩
  · intro other offset inData _ _
    rw [edit_content volume.sound loaded.isBuffer ⟨loaded.isDev, rfl⟩
      volume.hasDev volume.hasDev, if_neg (by omega)]
  · rintro _ rfl
    exact inUse
  · rintro _ rfl
    rw [bit, if_pos isNr.symm]
  · intro other isLower _ different
    rw [bit, if_neg]
    intro same
    apply different
    show other = zone
    omega

theorem Volume.releaseBit_wp (volume : Volume dev sb limit kernel)
    (apart : (kernel.supers sb).MapsApart)
    (inUse : InUse (kernel.supers sb) kernel zone) (onClear : Sys Unit) :
    (do
      let kernel ← Prog.get
      let super := kernel.supers sb
      let nr := zone + 1 - super.firstdatazone
      releaseBit (super.zmap (nr / 8192)) (nr % 8192) onClear : Sys Unit).wp
      fate Io (fun _ next => GivenBack dev sb limit 0 {zone} kernel next)
      kernel := by
  obtain ⟨nr, isNr⟩ : ∃ nr, nr = zone + 1 - (kernel.supers sb).firstdatazone :=
    ⟨_, rfl⟩
  have isUsed := inUse.isUsed
  rw [wp_bind, wp_get]
  dsimp only
  rw [← isNr] at isUsed ⊢
  unfold releaseBit
  cases isMap : (kernel.supers sb).zmap (nr / 8192) with
  | none =>
      unfold mapBit at isUsed
      rw [isMap] at isUsed
      cases isUsed
  | some bh =>
      have isBit : bitOf (kernel.buffers bh).data (nr % 8192) = true := by
        unfold mapBit at isUsed
        rw [isMap] at isUsed
        exact Option.some.inj isUsed
      have loaded := volume.loaded _ bh isMap
      have stores : kernel.setBuffer bh
          { kernel.buffers bh with
            data := clearBit (nr % 8192) (kernel.buffers bh).data
            dirt := true } =
          kernel.edit bh (clearBit (nr % 8192) (kernel.buffers bh).data)
            true := by
        unfold Kernel.edit
        rw [← loaded.fresh]
      dsimp only
      rw [wp_bind, wp_get, wp_bind, isBit, if_neg Bool.noConfusion, wp_pure]
      unfold storeMap onBuffer
      rw [wp_modify, stores]
      exact volume.unmarked apart inUse isNr isMap

end Bit

/-! ## `free_block` -/

section FreeBlock

variable {dev sb limit zone : Nat} {kernel : Kernel} {fate : Fate}

/-- `get_hash_table` takes the only reference. -/
theorem Loose.got (loose : Loose dev zone kernel) {bh : Nat} {got : Kernel}
    (isGot : Got kernel dev zone bh got) : (kernel.buffers bh).count = 0 := by
  by_contra isHeld
  obtain ⟨isDev, isBlock, _⟩ :=
    isGot.settled.held bh (Nat.pos_of_ne_zero isHeld)
  exact isHeld (loose bh (isDev.symm.trans isGot.isFor.1)
    (isBlock.symm.trans isGot.isFor.2))

theorem Volume.getHashTable_wp (volume : Volume dev sb limit kernel)
    (spent : fate.spent) (room : limit < 255) (fuel : Nat) :
    (getHashTable fuel dev zone).unmarked.wp fate Io
      (fun found next =>
        match found with
        | none => next = kernel ∧ findBuffer kernel dev zone = none
        | some bh => Got kernel dev zone bh next) kernel :=
  Run.wp_unmarked (Fs.getHashTable_wp volume.sound dev zone (.inl spent)
    (volume.room room zone))

/-- A zone that is in use, and of which nobody holds the buffer, is given
back. -/
theorem Volume.freeBlock_wp (volume : Volume dev sb limit kernel)
    (spent : fate.spent) (room : limit < 255)
    (apart : (kernel.supers sb).MapsApart)
    (inUse : InUse (kernel.supers sb) kernel zone)
    (loose : Loose dev zone kernel) (fuel : Nat) :
    (freeBlock fuel dev zone).wp fate Io
      (fun _ next => GivenBack dev sb limit 0 {zone} kernel next) kernel := by
  unfold freeBlock
  rw [wp_bind]
  apply wp_mono (getSuper_wp volume.sound volume.hasDev (.inl spent)
    volume.found)
  rintro _ state ⟨rfl, sound, serviced⟩
  have settled := serviced.settled
  have stateVolume := volume.later settled sound
  have waited := volume.passed settled stateVolume
  have bits : SameBits sb kernel state := volume.mapBit_settled sound settled
  have given := waited.givesNone bits
  have stateUse := given.inUse inUse (Set.notMem_empty zone)
  have stateApart : (state.supers sb).MapsApart := settled.supers ▸ apart
  have stateLoose := loose.carried given.carried fun _ gained => absurd gained
    (Nat.lt_irrefl 0)
  have whole {next : Kernel} (released : GivenBack dev sb limit 0 {zone} state next) :
      GivenBack dev sb limit 0 {zone} kernel next :=
    ((waited.touching (Set.empty_subset _)).givesBack bits released).gains
      fun _ => rfl
  dsimp only
  rw [wp_bind, wp_get, if_neg (not_or.mpr
    ⟨Nat.not_lt.mpr stateUse.lower, Nat.not_le.mpr stateUse.upper⟩), wp_bind]
  apply wp_mono (stateVolume.getHashTable_wp spent room fuel)
  rintro (_ | bh) got outcome
  · obtain ⟨rfl, _⟩ := outcome
    apply wp_mono (stateVolume.releaseBit_wp stateApart stateUse _)
    exact fun _ _ released => whole released
  · have none := stateLoose.got outcome
    have count := outcome.settled.count bh
    rw [one_same, none] at count
    have only : (got.buffers bh).countByte = 1 := by
      unfold Buffer.countByte
      omega
    dsimp only
    rw [wp_bind, wp_get, if_neg (not_not.mpr only), wp_bind]
    unfold onBuffer
    rw [wp_modify, wp_bind]
    apply wp_mono (stateVolume.discard_wp outcome stateUse.lower none)
    rintro _ later ⟨passed, laterBits⟩
    have supers := passed.carried.supers
    have laterUse : InUse (later.supers sb) later zone := by
      rw [supers]
      exact ⟨stateUse.lower, stateUse.upper,
        (laterBits _).trans stateUse.isUsed⟩
    apply wp_mono (passed.volume.releaseBit_wp (supers ▸ stateApart) laterUse _)
    intro _ next released
    exact whole ((passed.givesBack laterBits released).gains fun _ => rfl)

end FreeBlock

end Linux011.Fs
