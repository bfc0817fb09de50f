import Linux011.Library.Hoare
import Linux011.Fs.MapBits

/-!
# When `new_block` fails

`new_block` claims the first clear bit of the zone map before it looks whether
there is a zone for it.  Where there is none, the bit stays set.
-/

namespace Linux011.Fs

open Coop Prog

/-- What `new_block` reads of a superblock: two of its fields, and the blocks
of its zone map that are loaded. -/
structure ZoneMap where
  nzones : Nat
  firstdatazone : Nat
  block : Nat → Option Block
  isShort : nzones < 2 ^ 16

namespace ZoneMap

def bit (map : ZoneMap) (nr : Nat) : Option Bool :=
  (map.block (nr / 8192)).map fun data => bitOf data (nr % 8192)

/-- The first clear bit of the blocks that are loaded. -/
structure IsFirst (map : ZoneMap) (nr : Nat) : Prop where
  inMap : nr < 8 * 8192
  clear : map.bit nr = some false
  before : ∀ other, other < nr → map.bit other ≠ some false

/-- The zone of the first clear bit lies behind `s_nzones`, or is zone 0,
which `new_block` cannot tell from a failure. -/
def Overshoots (map : ZoneMap) : Prop :=
  ∃ nr, map.IsFirst nr ∧
    (map.nzones < nr + map.firstdatazone ∨ nr + map.firstdatazone = 1)

end ZoneMap

/-- The device has a superblock with this zone map. -/
structure Kernel.HasZoneMap (kernel : Kernel) (dev sb : Nat) (map : ZoneMap) :
    Prop where
  hasDev : dev ≠ 0
  found : findSuper kernel.supers dev 0 nrSuper = some sb
  nzones : (kernel.supers sb).nzones = map.nzones
  firstdatazone : (kernel.supers sb).firstdatazone = map.firstdatazone
  block : ∀ index, index < 8 →
    ((kernel.supers sb).zmap index).map (fun bh => (kernel.buffers bh).data) =
      map.block index

/-- The superblocks are the same, and their zone maps have the same bits and
are not made dirty. -/
structure ZoneMapsKept (kernel next : Kernel) : Prop where
  supers : next.supers = kernel.supers
  data : ∀ sb index bh, (kernel.supers sb).zmap index = some bh →
    (next.buffers bh).data = (kernel.buffers bh).data
  dirt : ∀ sb index bh, (kernel.supers sb).zmap index = some bh →
    (next.buffers bh).dirt = true → (kernel.buffers bh).dirt = true

/-- A call of `new_block` that returns 0 has changed no zone map, where nobody
else does while it sleeps. -/
def ZoneMap.FailsClean (map : ZoneMap) : Prop :=
  ∀ (env : Kernel → Kernel → Prop) kernel dev sb fuel final,
    (∀ state next, env state next → ZoneMapsKept state next) →
      kernel.HasZoneMap dev sb map →
        (newBlock fuel dev kernel).MayReturn True env 0 final →
          ZoneMapsKept kernel final

namespace ZoneMapsKept

variable {first second third : Kernel}

theorem refl (kernel : Kernel) : ZoneMapsKept kernel kernel where
  supers := rfl
  data := fun _ _ _ _ => rfl
  dirt := fun _ _ _ _ isDirty => isDirty

theorem trans (before : ZoneMapsKept first second)
    (after : ZoneMapsKept second third) : ZoneMapsKept first third where
  supers := after.supers.trans before.supers
  data := by
    intro sb index bh isMap
    have isLater : (second.supers sb).zmap index = some bh := by
      rw [before.supers]
      exact isMap
    exact (after.data sb index bh isLater).trans (before.data sb index bh isMap)
  dirt := by
    intro sb index bh isMap isDirty
    have isLater : (second.supers sb).zmap index = some bh := by
      rw [before.supers]
      exact isMap
    exact before.dirt sb index bh isMap (after.dirt sb index bh isLater isDirty)

theorem hasZoneMap {dev sb : Nat} {map : ZoneMap}
    (kept : ZoneMapsKept first second) (has : first.HasZoneMap dev sb map) :
    second.HasZoneMap dev sb map where
  hasDev := has.hasDev
  found := by
    rw [kept.supers]
    exact has.found
  nzones := by
    rw [kept.supers]
    exact has.nzones
  firstdatazone := by
    rw [kept.supers]
    exact has.firstdatazone
  block := by
    intro index inMap
    rw [kept.supers, ← has.block index inMap]
    cases isMap : (first.supers sb).zmap index with
    | none => rfl
    | some bh =>
        rw [Option.map_some, Option.map_some, kept.data sb index bh isMap]

end ZoneMapsKept

namespace Kernel.HasZoneMap

variable {kernel : Kernel} {dev sb : Nat} {map : ZoneMap}

theorem bit (has : kernel.HasZoneMap dev sb map) {nr : Nat}
    (inMap : nr < 8 * 8192) :
    mapBit kernel (kernel.supers sb).zmap nr = map.bit nr := by
  unfold mapBit ZoneMap.bit
  rw [← has.block (nr / 8192) (by omega), Option.map_map]
  rfl

/-- The loop of `new_block` finds the first clear bit. -/
theorem isFirst (has : kernel.HasZoneMap dev sb map) {index bh bit : Nat}
    (found : findMap kernel (kernel.supers sb).zmap 8 0 =
      some (index, bh, bit)) :
    map.IsFirst (bit + index * 8192) := by
  obtain ⟨loaded, isBit, inMap, isClear, before⟩ := findMap_first found
  have small : bit + index * 8192 < 8 * 8192 := by omega
  refine ⟨small, ?_, ?_⟩
  · rw [← has.bit small, mapBit_block loaded isBit, isClear]
  · intro other below
    rw [← has.bit (by omega)]
    exact before other (by omega) below

end Kernel.HasZoneMap

/-! ## Where it changes nothing -/

section Fails

variable {env : Kernel → Kernel → Prop} {fate : Fate} {kernel : Kernel}
  {dev sb : Nat} {map : ZoneMap}

theorem getSuper_keepsZoneMaps (spent : fate.spent)
    (spares : ∀ state next, env state next → ZoneMapsKept state next)
    (has : kernel.HasZoneMap dev sb map) (fuel : Nat) :
    Hoare fate env (ZoneMapsKept kernel) (getSuper dev fuel)
      fun found next => found = some sb ∧ ZoneMapsKept kernel next := by
  induction fuel with
  | zero => exact hoare_spent spent
  | succ fuel induction =>
      unfold getSuper
      rw [if_neg has.hasDev]
      apply hoare_get
      intro state kept
      have found : findSuper state.supers dev 0 nrSuper = some sb :=
        (kept.hasZoneMap has).found
      rw [found]
      refine hoare_bind (hoare_at kept (hoare_waitUntil ?_)) ?_
      · exact fun _ _ kept moved => kept.trans (spares _ _ moved)
      · intro _
        apply hoare_get
        rintro later ⟨kept, _⟩
        split
        · exact hoare_pure fun _ isNow => ⟨rfl, isNow ▸ kept⟩
        · exact hoare_at kept induction

/-- What `new_block` does once it has the superblock, if it returns 0: it
finds no clear bit, or claims one that it has no zone for. -/
theorem newBlock_returnsZero (spares : ∀ state next, env state next →
      ZoneMapsKept state next)
    (has : kernel.HasZoneMap dev sb map) {fuel : Nat} {final : Kernel}
    (returns : (newBlock fuel dev kernel).MayReturn True env 0 final) :
    ZoneMapsKept kernel final ∨ map.Overshoots := by
  obtain ⟨found, state, first, second⟩ := Run.mayReturn_bind returns
  have gets := hoare_unmarked (@getSuper_keepsZoneMaps env
    { Fate.any with crossed := False } kernel dev sb map trivial spares has fuel)
  obtain ⟨rfl, kept⟩ := first.meets (gets.run kernel (.refl kernel))
  have later := kept.hasZoneMap has
  obtain ⟨read, now, isNow, goesOn⟩ := Run.mayReturn_bind second
  obtain ⟨rfl, rfl⟩ := isNow
  dsimp only at goesOn
  cases isFound : findMap state (state.supers sb).zmap 8 0 with
  | none =>
      rw [isFound] at goesOn
      obtain ⟨_, rfl⟩ := goesOn
      exact .inl kept
  | some place =>
      obtain ⟨index, bh, bit⟩ := place
      have isFirst := later.isFirst isFound
      rw [isFound] at goesOn
      dsimp only at goesOn
      refine .inr ⟨_, isFirst, ?_⟩
      rw [later.nzones, later.firstdatazone] at goesOn
      split at goesOn
      · exact goesOn.elim
      · obtain ⟨_, marked, _, ends⟩ := Run.mayReturn_bind goesOn
        split at ends <;> rename_i isOutside
        · left
          omega
        · right
          -- the zone that is returned is the one of the bit
          obtain ⟨buffer, gotten, _, ends⟩ := Run.mayReturn_bind ends
          obtain ⟨seen, then_, isSeen, ends⟩ := Run.mayReturn_bind ends
          obtain ⟨rfl, rfl⟩ := isSeen
          split at ends
          · exact ends.elim
          · obtain ⟨_, cleared, _, ends⟩ := Run.mayReturn_bind ends
            obtain ⟨_, released, _, ends⟩ := Run.mayReturn_bind ends
            have isZero := ends.1
            have isShort := map.isShort
            omega

end Fails

/-! ## Where it loses a bit -/

theorem ZoneMap.IsFirst.unique {map : ZoneMap} {first second : Nat}
    (left : map.IsFirst first) (right : map.IsFirst second) :
    first = second := by
  rcases Nat.lt_trichotomy first second with below | same | above
  · exact (right.before first below left.clear).elim
  · exact same
  · exact (left.before second above right.clear).elim

namespace ZoneMap

variable (map : ZoneMap)

/-- A machine with the zone map in its first eight buffers, and with one that
is not in use. -/
def machine : Kernel :=
  let kernel := bufferInit 9 idleKernel.buffers idleKernel
  { kernel with
    freeList := 8
    buffers := fun bh =>
      if bh < 8 then
        { kernel.buffers bh with
          data := (map.block bh).getD fun _ => 0
          count := 1 }
      else kernel.buffers bh
    supers := fun index =>
      if index = 0 then
        { kernel.supers 0 with
          dev := 769
          nzones := map.nzones
          firstdatazone := map.firstdatazone
          zmap := fun index =>
            if index < 8 then (map.block index).map fun _ => index else none }
      else kernel.supers index }

theorem machine_hasZoneMap : map.machine.HasZoneMap 769 0 map where
  hasDev := by decide
  found := rfl
  nzones := rfl
  firstdatazone := rfl
  block := by
    intro index inMap
    show (if index < 8 then (map.block index).map fun _ => index
      else none).map _ = _
    rw [if_pos inMap]
    cases isBlock : map.block index with
    | none => rfl
    | some data =>
        show some (if index < 8 then _ else _ : Buffer).data = _
        rw [if_pos inMap]
        exact congrArg some (by rw [isBlock]; rfl)

variable {map}

theorem machine_finds {nr : Nat} (isFirst : map.IsFirst nr) :
    findMap map.machine (map.machine.supers 0).zmap 8 0 =
      some (nr / 8192, nr / 8192, nr % 8192) := by
  have has := map.machine_hasZoneMap
  cases found : findMap map.machine (map.machine.supers 0).zmap 8 0 with
  | none =>
      have nowhere := findMap_none found nr (by omega) (by
        have inMap := isFirst.inMap
        omega)
      rw [has.bit isFirst.inMap] at nowhere
      exact (nowhere isFirst.clear).elim
  | some place =>
      obtain ⟨index, bh, bit⟩ := place
      obtain ⟨loaded, isBit, inMap, _⟩ := findMap_first found
      have same := (has.isFirst found).unique isFirst
      have isIndex : index = nr / 8192 := by omega
      have isPlace : bit = nr % 8192 := by omega
      change (if index < 8 then (map.block index).map fun _ => index
        else none) = some bh at loaded
      rw [if_pos (by omega), Option.map_eq_some_iff] at loaded
      obtain ⟨_, _, rfl⟩ := loaded
      rw [isIndex, isPlace]

/-- The machine after `set_bit`. -/
def claimed (map : ZoneMap) (nr : Nat) : Kernel :=
  map.machine.setBuffer (nr / 8192)
    { map.machine.buffers (nr / 8192) with
      data := setBit (nr % 8192) (map.machine.buffers (nr / 8192)).data
      dirt := true }

/-- Zone 0 is taken out of the cache, cleared and returned. -/
theorem machine_clearsZero {nr : Nat} (small : nr < 8192) :
    ∃ next, getblk 3 769 0 (map.claimed nr) = .done 8 next ∧
      (next.buffers 8).countByte = 1 ∧ (next.buffers 8).lock = false ∧
      (next.buffers 0).data = ((map.claimed nr).buffers 0).data := by
  unfold claimed
  rw [Nat.div_eq_of_lt small]
  exact ⟨_, rfl, rfl, rfl, rfl⟩

/-- `brelse` of a buffer that is not locked. -/
theorem brelse_mayReturn {kernel : Kernel} {bh : Nat}
    (unlocked : (kernel.buffers bh).lock = false)
    (isHeld : (kernel.buffers bh).countByte ≠ 0) :
    (brelse (some bh) kernel).MayReturn True Eq ()
      (kernel.setBuffer bh (kernel.buffers bh).dropCount) := by
  have waits : (waitOnBuffer bh kernel).MayReturn True Eq () kernel := by
    unfold waitOnBuffer Prog.waitUntil
    rw [if_pos (show (!(kernel.buffers bh).lock) = true by rw [unlocked]; rfl)]
    exact ⟨rfl, rfl⟩
  refine waits.bind ?_
  show Run.MayReturn _ _ _ _ ((if (kernel.buffers bh).countByte = 0 then
    Prog.panic _ else onBuffer bh Buffer.dropCount : Sys Unit) kernel)
  rw [if_neg isHeld]
  exact ⟨rfl, rfl⟩

/-- With what `clear_block` leaves in buffer 8. -/
def cleared (kernel : Kernel) : Kernel :=
  kernel.setBuffer 8
    { kernel.buffers 8 with
      data := fun offset =>
        if offset < blockSize then 0 else (kernel.buffers 8).data offset
      uptodate := true
      dirt := true }

theorem machine_loses {nr : Nat} (isFirst : map.IsFirst nr)
    (overshoots : map.nzones < nr + map.firstdatazone ∨
      nr + map.firstdatazone = 1) :
    ∃ final, (newBlock 3 769 map.machine).MayReturn True Eq 0 final ∧
      (final.buffers (nr / 8192)).data =
        ((map.claimed nr).buffers (nr / 8192)).data := by
  have inMap := isFirst.inMap
  have found := machine_finds isFirst
  have isClear : bitOf (map.machine.buffers (nr / 8192)).data (nr % 8192) =
      false := by
    obtain ⟨_, _, _, clear, _⟩ := findMap_first found
    exact clear
  have starts : (getSuper 769 3 map.machine).MayReturn True Eq (some 0)
      map.machine := ⟨rfl, rfl⟩
  have reads (kernel : Kernel) : (Prog.get kernel).MayReturn True Eq kernel
      kernel := ⟨rfl, rfl⟩
  have claims : (storeMap (nr / 8192) (setBit (nr % 8192))
      map.machine).MayReturn True Eq () (map.claimed nr) := ⟨rfl, rfl⟩
  have sameNzones : (map.machine.supers 0).nzones = map.nzones := rfl
  have sameFirst : (map.machine.supers 0).firstdatazone =
      map.firstdatazone := rfl
  have place : nr % 8192 + nr / 8192 * 8192 = nr := by omega
  unfold newBlock
  by_cases isOutside : map.nzones < nr + map.firstdatazone
  · refine ⟨map.claimed nr, ?_, rfl⟩
    refine starts.bind ((reads _).bind ?_)
    dsimp only
    rw [found]
    dsimp only
    rw [isClear, if_neg Bool.false_ne_true]
    refine claims.bind ?_
    rw [sameNzones, sameFirst, if_pos (by omega)]
    exact ⟨rfl, rfl⟩
  · have small : nr < 8192 := by omega
    obtain ⟨next, gets, count, unlocked, data⟩ := machine_clearsZero small
    have isZero : ((((nr % 8192 : Nat) : Int) + (nr / 8192 : Nat) * 8192 +
        (map.firstdatazone : Int) - 1) % 2 ^ 32).toNat = 0 := by omega
    have hands : ((getblk 3 769 0).unmarked (map.claimed nr)).MayReturn True Eq
        8 next := by
      unfold Prog.unmarked
      rw [gets]
      exact ⟨rfl, rfl⟩
    have clears : (onBuffer 8 (fun buffer =>
          { buffer with
            data := fun offset =>
              if offset < blockSize then 0 else buffer.data offset
            uptodate := true
            dirt := true }) next).MayReturn True Eq () (cleared next) :=
      ⟨rfl, rfl⟩
    have sameCount : ((cleared next).buffers 8).countByte = 1 := count
    have releases := @brelse_mayReturn (cleared next) 8 unlocked
      (by rw [sameCount]; decide)
    refine ⟨(cleared next).setBuffer 8 ((cleared next).buffers 8).dropCount,
      ?_, ?_⟩
    · refine starts.bind ((reads _).bind ?_)
      dsimp only
      rw [found]
      dsimp only
      rw [isClear, if_neg Bool.false_ne_true]
      refine claims.bind ?_
      rw [sameNzones, sameFirst, if_neg (by omega), isZero]
      refine hands.bind ((reads _).bind ?_)
      rw [if_neg (not_not.mpr count)]
      exact clears.bind (releases.bind ⟨rfl, rfl⟩)
    · rw [Nat.div_eq_of_lt small]
      exact data

end ZoneMap

/-! ## The condition -/

/-- A call of `new_block` that fails leaves the zone map as it was if and only
if the first clear bit of the map, where there is one, is that of a zone other
than 0 that the device has. -/
theorem newBlock_failsClean_iff (map : ZoneMap) :
    map.FailsClean ↔ ¬map.Overshoots := by
  constructor
  · rintro clean ⟨nr, isFirst, overshoots⟩
    have has := map.machine_hasZoneMap
    obtain ⟨final, returns, data⟩ := ZoneMap.machine_loses isFirst overshoots
    have kept := clean Eq _ _ _ _ _ (fun _ _ same => same ▸ .refl _) has returns
    obtain ⟨loaded, _, _, isClear, _⟩ :=
      findMap_first (ZoneMap.machine_finds isFirst)
    have same := kept.data 0 _ _ loaded
    have claimed : ((map.claimed nr).buffers (nr / 8192)).data =
        setBit (nr % 8192) (map.machine.buffers (nr / 8192)).data := by
      unfold ZoneMap.claimed
      rw [Kernel.setBuffer_same]
    have isSet := @bitOf_setBit (map.machine.buffers (nr / 8192)).data
      (nr % 8192) (nr % 8192)
    rw [← claimed, ← data, same, isClear] at isSet
    simp at isSet
  · intro inside env kernel dev sb fuel final spares has returns
    rcases newBlock_returnsZero spares has returns with kept | outside
    · exact kept
    · exact (inside outside).elim

/-- A device of 10 zones, the first of them zone 5, with a map that has no bit
set behind the last zone. -/
def unpaddedMap : ZoneMap where
  nzones := 10
  firstdatazone := 5
  block := fun index =>
    if index = 0 then some fun offset => if offset = 0 then 63 else 0 else none
  isShort := by decide

theorem unpaddedMap_first : unpaddedMap.IsFirst 6 where
  inMap := by decide
  clear := by decide
  before := by decide

/-- The device is full, but `new_block` takes the bit of zone 10. -/
theorem newBlock_losesBit :
    ∃ final, (newBlock 3 769 unpaddedMap.machine).MayReturn True Eq 0 final ∧
      bitOf (unpaddedMap.machine.buffers 0).data 6 = false ∧
      bitOf (final.buffers 0).data 6 = true := by
  obtain ⟨final, returns, data⟩ :=
    ZoneMap.machine_loses unpaddedMap_first (.inl (by decide))
  refine ⟨final, returns, by decide, ?_⟩
  rw [show 0 = 6 / 8192 from rfl, data]
  decide

end Linux011.Fs
