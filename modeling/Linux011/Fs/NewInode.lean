import Linux011.Fs.MapBits
import Linux011.Fs.MapsHeld

/-!
# Taking and freeing an inode

`new_inode` takes the lowest number whose bit is clear, and `free_inode` gives
the bit back.  Between them the cache may write out other inodes and wait for
the devices, but the map stays as it is.
-/

namespace Linux011.Fs

open Coop Prog

/-! ## An unused slot of `inode_table` -/

section Search

variable {inodes : Nat → Inode} {rest last : Nat} {found : Option Nat}

/-- `++last_inode`, which goes around the table. -/
def afterLast (last : Nat) : Nat := if nrInode ≤ last + 1 then 0 else last + 1

theorem searchEmpty_succ :
    searchEmpty inodes (rest + 1) last found =
      if (inodes (afterLast last)).count ≠ 0 then
        searchEmpty inodes rest (afterLast last) found
      else if (inodes (afterLast last)).dirt = false ∧
          (inodes (afterLast last)).lock = false then
        (afterLast last, some (afterLast last))
      else searchEmpty inodes rest (afterLast last) (some (afterLast last)) :=
  rfl

theorem afterLast_eq (inTable : last < nrInode) :
    afterLast last = (last + 1) % nrInode := by
  unfold afterLast
  split <;> rename_i isLast
  · rw [show last + 1 = nrInode from Nat.le_antisymm inTable isLast,
      Nat.mod_self]
  · rw [Nat.mod_eq_of_lt (Nat.lt_of_not_le isLast)]

theorem searchEmpty_some {index : Nat}
    (isFound : (searchEmpty inodes rest last found).2 = some index)
    (before : ∀ other, found = some other → (inodes other).count = 0) :
    (inodes index).count = 0 := by
  induction rest generalizing last found with
  | zero => exact before index isFound
  | succ rest induction =>
      rw [searchEmpty_succ] at isFound
      split at isFound <;> rename_i used
      · exact induction isFound before
      · have unused := not_not.mp used
        split at isFound
        · cases isFound
          exact unused
        · refine induction isFound ?_
          rintro _ ⟨⟩
          exact unused

/-- Once something is found, something is returned. -/
theorem searchEmpty_isSome (isFound : found.isSome) :
    (searchEmpty inodes rest last found).2.isSome := by
  induction rest generalizing last found with
  | zero => exact isFound
  | succ rest induction =>
      rw [searchEmpty_succ]
      split
      · exact induction isFound
      · split
        · rfl
        · exact induction rfl

/-- The pointer goes around the table. -/
theorem searchEmpty_none (inTable : last < nrInode)
    (missing : (searchEmpty inodes rest last none).2 = none) (step : Nat)
    (below : step < rest) :
    (inodes ((last + 1 + step) % nrInode)).count ≠ 0 := by
  induction rest generalizing last step with
  | zero => cases below
  | succ rest induction =>
      rw [searchEmpty_succ, afterLast_eq inTable] at missing
      split at missing <;> rename_i used
      · cases step with
        | zero => exact used
        | succ step =>
            have later := induction (Nat.mod_lt _ (by decide)) missing step
              (Nat.lt_of_succ_lt_succ below)
            rw [Nat.add_assoc, Nat.mod_add_mod] at later
            rwa [show last + 1 + (step + 1) = last + 1 + (1 + step) by omega]
      · split at missing
        · cases missing
        · have isSome := @searchEmpty_isSome inodes rest
            ((last + 1) % nrInode) _ (rfl : (some ((last + 1) % nrInode)).isSome)
          rw [missing] at isSome
          cases isSome

/-- Beyond the table the pointer is reset as at its end. -/
theorem searchEmpty_reset (beyond : nrInode ≤ last) :
    searchEmpty inodes (rest + 1) last found =
      searchEmpty inodes (rest + 1) (nrInode - 1) found := by
  have same : afterLast last = afterLast (nrInode - 1) := by
    unfold afterLast
    rw [if_pos (by omega), if_pos (by decide)]
  rw [searchEmpty_succ, searchEmpty_succ, same]

theorem searchEmpty_finds {slot : Nat} (inTable : slot < nrInode)
    (unused : (inodes slot).count = 0) :
    ∃ index, (searchEmpty inodes nrInode last none).2 = some index ∧
      (inodes index).count = 0 := by
  cases found : (searchEmpty inodes nrInode last none).2 with
  | some index => exact ⟨index, rfl, searchEmpty_some found nofun⟩
  | none =>
      have reaches (last : Nat) (pointer : last < nrInode)
          (missing : (searchEmpty inodes nrInode last none).2 = none) :
          False := by
        have used := searchEmpty_none pointer missing
          ((slot + nrInode - (last + 1)) % nrInode) (Nat.mod_lt _ (by decide))
        rw [Nat.add_mod_mod, show last + 1 + (slot + nrInode - (last + 1)) =
          slot + nrInode by omega, Nat.add_mod_right,
          Nat.mod_eq_of_lt inTable] at used
        exact used unused
      by_cases pointer : last < nrInode
      · exact (reaches last pointer found).elim
      · rw [show nrInode = 31 + 1 from rfl,
          searchEmpty_reset (Nat.le_of_not_lt pointer)] at found
        exact (reaches (nrInode - 1) (by decide) found).elim

end Search

/-! ## What the calls do to the maps -/

/-- The maps hold these data, and all else is as `read_super` left it. -/
structure MapsAfter (base : Kernel) (data : Nat → Block) (next : Kernel) :
    Prop where
  loaded : MapsLoaded next
  supers : next.supers = base.supers
  data : ∀ bh, base.IsMap bh → (next.buffers bh).data = data bh

/-- The data of the buffers. -/
def Kernel.blocks (kernel : Kernel) (bh : Nat) : Block :=
  (kernel.buffers bh).data

section Calls

variable {fate : Fate} {base kernel : Kernel}

theorem MapsLoaded.setInodes {inodes : Nat → Inode} {lastInode : Nat}
    (loaded : MapsLoaded kernel) :
    MapsLoaded { kernel with inodes, lastInode } :=
  loaded.later (loaded.lists.congr (SameLists.elsewhere rfl rfl rfl rfl)) rfl
    (fun _ _ => ⟨rfl, rfl, rfl⟩) loaded.pending

theorem MapsAfter.guarded (loaded : MapsLoaded base)
    (guarded : Guarded base base.IsMap kernel) :
    MapsAfter base base.blocks kernel where
  loaded := loaded.guards guarded
  supers := guarded.aside.supers
  data := fun bh isMap => (guarded.kept bh isMap).data

theorem MapsAfter.setInode {data : Nat → Block} (after : MapsAfter base data kernel)
    (index : Nat) (inode : Inode) :
    MapsAfter base data (kernel.setInode index inode) where
  loaded := after.loaded.setInodes
  supers := after.supers
  data := after.data

/-- A bit of the map of inodes. -/
def Kernel.inodeBit (kernel : Kernel) (sb nr : Nat) : Option Bool :=
  mapBit kernel (kernel.supers sb).imap nr

theorem MapsAfter.inodeBit {data : Nat → Block} {next : Kernel} {sb : Nat}
    (after : MapsAfter base data next) (isUsed : (base.supers sb).dev ≠ 0)
    (nr : Nat) :
    next.inodeBit sb nr = ((base.supers sb).imap (nr / 8192)).map fun bh =>
      bitOf (data bh) (nr % 8192) := by
  unfold Kernel.inodeBit mapBit
  rw [after.supers]
  cases isMap : (base.supers sb).imap (nr / 8192) with
  | none => rfl
  | some bh =>
      rw [Option.map_some, after.data bh ⟨sb, isUsed, _, .inl isMap⟩]
      rfl

theorem MapsAfter.storeMap {next : Kernel} {bh : Nat} (change : Block → Block)
    (after : MapsAfter base base.blocks next) (isMap : base.IsMap bh) :
    MapsAfter base (Function.update base.blocks bh (change (base.blocks bh)))
      (next.setBuffer bh { next.buffers bh with
        data := change (next.buffers bh).data, dirt := true }) where
  loaded := by
    apply after.loaded.later
      (after.loaded.lists.congr Quiet.setBuffer.same) rfl _ after.loaded.pending
    intro other _
    rw [Kernel.setBuffer_buffers]
    split <;> rename_i here
    · subst here
      exact ⟨rfl, rfl, rfl⟩
    · exact ⟨rfl, rfl, rfl⟩
  supers := after.supers
  data := by
    intro other isOther
    rw [Kernel.setBuffer_buffers]
    split <;> rename_i here
    · subst here
      rw [Function.update_self, ← after.data other isOther]
    · rw [Function.update_of_ne here, after.data other isOther]

/-- What `new_inode` does: it takes the first number that is free, or there is
none. -/
inductive NewInode (base : Kernel) (dev : Nat) : Option Nat → Kernel → Prop where
  | full {sb : Nat} {next : Kernel}
      (superDev : (base.supers sb).dev = dev) (isUsed : dev ≠ 0)
      (full : NoneClear base (base.supers sb).imap 0
        ((base.supers sb).ninodes + 1))
      (maps : MapsAfter base base.blocks next)
      (counts : ∀ slot, (next.inodes slot).count = (base.inodes slot).count) :
      NewInode base dev none next
  | takes {sb bh nr index : Nat} {next : Kernel}
      (superDev : (base.supers sb).dev = dev) (isUsed : dev ≠ 0)
      (isNumber : nr ≤ (base.supers sb).ninodes)
      (isMap : (base.supers sb).imap (nr / 8192) = some bh)
      (isFree : bitOf (base.blocks bh) (nr % 8192) = false)
      (maps : MapsAfter base (Function.update base.blocks bh
        (setBit (nr % 8192) (base.blocks bh))) next)
      (inode : (next.inodes index).dev = dev ∧
        (next.inodes index).num = nr % 65536 ∧
        (next.inodes index).count = 1) :
      NewInode base dev (some index) next

variable (spent : fate.spent) (panic : ∀ message ∈ cachePanics, fate.panic message)

include spent panic

theorem cleanInode_guarded (loaded : MapsLoaded base)
    (fuel index rounds : Nat) :
    Stays fate Devices (Guarded base base.IsMap)
      (cleanInode fuel index rounds) := by
  have keeps := Guarded.keeps loaded.held spent panic
  induction rounds with
  | zero => exact stays_spent spent
  | succ rounds induction =>
      apply stays_read
      intro kernel
      split
      · exact stays_pure
      · have writes : Stays fate Devices (Guarded base base.IsMap)
            (writeInode fuel index).unmarked := by
          have writes := keeps.writeInode fuel index
          rwa [Stays, ← Prog.unmarked_unmarked] at writes
        exact stays_bind writes fun _ =>
          stays_bind (keeps.waitUntil _) fun _ => induction

/-- The table slot is the caller's, and had no references. -/
structure TookSlot (base : Kernel) (index : Nat) (next : Kernel) : Prop where
  unused : (base.inodes index).count = 0
  maps : MapsAfter base base.blocks next
  own : next.inodes index = { Inode.zero with count := 1 }
  others : ∀ other, other ≠ index →
    (next.inodes other).count = (base.inodes other).count

theorem getEmptyInode_takes (loaded : MapsLoaded base)
    (unused : ∃ slot < nrInode, (base.inodes slot).count = 0)
    (fuel rounds : Nat) :
    Hoare fate Devices (fun kernel => kernel = base)
      (getEmptyInode fuel rounds).unmarked (TookSlot base) := by
  cases rounds with
  | zero => exact hoare_spent spent
  | succ rounds =>
      have keeps := Guarded.keeps loaded.held spent panic
      obtain ⟨slot, inTable, isUnused⟩ := unused
      obtain ⟨index, isFound, noCount⟩ :=
        @searchEmpty_finds base.inodes base.lastInode slot inTable isUnused
      apply hoare_unmarked_get
      rintro state rfl
      dsimp only
      have moved : Guarded state state.IsMap { state with
          lastInode := (searchEmpty state.inodes nrInode state.lastInode none).1 } :=
        loaded.guarded.change rfl
          (loaded.lists.congr (SameLists.elsewhere rfl rfl rfl rfl))
          (Aside.elsewhere rfl rfl) (fun _ _ => .refl _) loaded.pending
      have moves : Hoare fate Devices (fun current => current = state)
          (Prog.modify fun kernel => { kernel with
            lastInode := (searchEmpty state.inodes nrInode
              state.lastInode none).1 }).unmarked
          fun _ => Guarded state state.IsMap := by
        apply hoare_modify
        rintro _ rfl
        exact moved
      refine hoare_unmarked_bind moves fun _ => ?_
      rw [isFound]
      refine hoare_unmarked_bind (keeps.waitUntil _) fun _ => ?_
      refine hoare_unmarked_bind
        (cleanInode_guarded spent panic loaded fuel index fuel) fun _ => ?_
      apply hoare_unmarked_get
      intro kernel guarded
      have sameCount (other : Nat) :
          (kernel.inodes other).count = (state.inodes other).count := by
        obtain ⟨_, _, same⟩ := guarded.aside.inodes other
        rw [same]
      rw [if_neg (by rw [sameCount, noCount]; exact fun used => used rfl)]
      have clears : Hoare fate Devices (fun current => current = kernel)
          (onInode index fun _ => { Inode.zero with count := 1 }).unmarked
          fun _ => TookSlot state index := by
        apply hoare_modify
        rintro _ rfl
        refine ⟨noCount, (MapsAfter.guarded loaded guarded).setInode _ _, ?_, ?_⟩
        · simp [Kernel.setInode]
        · intro other different
          rw [← sameCount]
          simp [Kernel.setInode, different]
      exact hoare_unmarked_bind clears fun _ => hoare_pure fun _ holds => holds

omit spent panic in
theorem TookSlot.devices {index : Nat} (first second : Kernel)
    (took : TookSlot base index first) (acts : Devices first second) :
    TookSlot base index second := by
  obtain ⟨unused, maps, own, others⟩ := took
  have calm := acts.interrupts
  have guarded := maps.loaded.guarded.devices acts
  refine ⟨unused, ⟨maps.loaded.guards guarded, ?_, ?_⟩, ?_, ?_⟩
  · exact calm.supers.trans maps.supers
  · intro bh isMap
    have isMap' : first.IsMap bh := by
      unfold Kernel.IsMap
      rw [maps.supers]
      exact isMap
    rw [(guarded.kept bh isMap').data]
    exact maps.data bh isMap
  · rw [calm.inodes]
    exact own
  · rw [calm.inodes]
    exact others

omit spent panic in
/-- An inode that was not needed is given back. -/
theorem iput_took {index : Nat} (fuel : Nat) :
    Hoare fate Devices (TookSlot base index) (iput fuel (some index)).unmarked
      fun _ next => MapsAfter base base.blocks next ∧
        ∀ slot, (next.inodes slot).count = (base.inodes slot).count := by
  refine hoare_unmarked_bind (stays_waitUntil TookSlot.devices) fun _ => ?_
  apply hoare_unmarked_get
  intro kernel took
  have own := took.own
  simp only [own, Inode.zero]
  apply hoare_modify
  rintro _ rfl
  refine ⟨took.maps.setInode _ _, fun slot => ?_⟩
  by_cases here : slot = index
  · subst here
    rw [took.unused]
    simp [Kernel.setInode, Inode.dropCount, own, Inode.setCount]
  · rw [← took.others slot here]
    simp [Kernel.setInode, here]

/-- `new_inode` of a device that is mounted stops only where the cache does. -/
theorem newInode_takes (loaded : MapsLoaded base)
    (unused : ∃ slot < nrInode, (base.inodes slot).count = 0) {dev : Nat}
    (unknown : dev = 0 ∨ findSuper base.supers dev 0 nrSuper = none →
      fate.panic "new_inode with unknown device")
    (fuel euid egid : Nat) :
    Hoare fate Devices (fun kernel => kernel = base)
      (newInode fuel dev euid egid).unmarked (NewInode base dev) := by
  refine hoare_unmarked_bind
    (getEmptyInode_takes spent panic loaded unused fuel fuel) fun index => ?_
  refine hoare_unmarked_bind
    (getSuper_finds spent TookSlot.devices dev fuel) ?_
  rintro (_ | sb)
  · constructor
    rintro kernel ⟨took, missing⟩
    apply unknown
    rw [← took.maps.supers]
    exact missing
  · apply hoare_unmarked_get
    rintro kernel ⟨took, isUsed, isFound⟩
    have maps := took.maps
    have superDev : (base.supers sb).dev = dev := maps.supers ▸ isFound
    have used : (base.supers sb).dev ≠ 0 := superDev ▸ isUsed
    have sameBit (nr : Nat) : mapBit kernel (kernel.supers sb).imap nr =
        mapBit base (base.supers sb).imap nr :=
      maps.inodeBit used nr
    have gives (full : NoneClear base (base.supers sb).imap 0
        ((base.supers sb).ninodes + 1)) :
        Hoare fate Devices (fun current => current = kernel)
          (do
            (iput fuel (some index)).unmarked
            return none : Sys (Option Nat)).unmarked (NewInode base dev) := by
      have puts := @iput_took fate base index fuel
      rw [← Prog.unmarked_unmarked] at puts
      refine hoare_unmarked_bind (hoare_at took puts) fun _ => ?_
      exact hoare_pure fun _ given =>
        .full superDev isUsed full given.1 given.2
    cases search : findMap kernel (kernel.supers sb).imap 8 0 with
    | none =>
        refine gives fun nr above below => ?_
        have isSet := findMap_none search nr (by omega)
        rw [sameBit] at isSet
        have isShort := loaded.ninodes sb
        exact isSet (by omega)
    | some place =>
        obtain ⟨block, bh, bit⟩ := place
        obtain ⟨isMap, isBit, inMaps, isFree, before⟩ := findMap_first search
        rw [maps.supers] at isMap
        have isNumber : (bit + block * 8192) / 8192 = block := by omega
        have isPlace : (bit + block * 8192) % 8192 = bit := by omega
        have isHeld : base.IsMap bh := ⟨sb, used, block, .inl isMap⟩
        dsimp only
        rw [maps.supers]
        split <;> rename_i beyond
        · refine gives fun nr above below => ?_
          have isSet := before nr (by omega) (by omega)
          rwa [sameBit] at isSet
        rw [if_neg (by rw [isFree]; decide)]
        have takes : Hoare fate Devices (fun current => current = kernel)
            (do
              storeMap bh (setBit bit)
              onInode index fun inode =>
                { inode with
                  count := 1
                  nlinks := 1
                  dev := dev
                  uid := euid
                  gid := egid % 256
                  dirt := true
                  num := (bit + block * 8192) % 65536
                  mtime := kernel.now
                  atime := kernel.now
                  ctime := kernel.now }
              return some index : Sys (Option Nat)).unmarked
            (NewInode base dev) := by
          constructor
          rintro _ rfl
          have stored := maps.storeMap (setBit bit) isHeld
          rw [maps.data bh isHeld] at isFree
          refine .takes superDev isUsed (Nat.le_of_not_lt beyond)
            (isNumber.symm ▸ isMap) (isPlace.symm ▸ isFree) ?_ ?_
          · rw [isPlace]
            exact stored.setInode _ _
          · simp [Kernel.setInode]
        split
        · exact hoare_unmarked_cross takes
        · exact takes

/-- What `free_inode` asks of an inode: one reference at most, no links, and a
number in a map of a mounted device. -/
structure Freeable (kernel : Kernel) (index : Nat) : Prop where
  count : (kernel.inodes index).count ≤ 1
  nlinks : (kernel.inodes index).nlinks = 0
  mounted : ∃ sb, findSuper kernel.supers (kernel.inodes index).dev 0 nrSuper =
    some sb
  number : ∀ sb, (kernel.supers sb).dev = (kernel.inodes index).dev →
    1 ≤ (kernel.inodes index).num ∧
      (kernel.inodes index).num ≤ (kernel.supers sb).ninodes ∧
      kernel.inodeBit sb (kernel.inodes index).num ≠ none

/-- What `free_inode` does: it clears the bit, if the inode has a device. -/
inductive FreeInode (base : Kernel) (index : Nat) : Kernel → Prop where
  | noDevice {next : Kernel} (noDev : (base.inodes index).dev = 0)
      (maps : MapsAfter base base.blocks next) : FreeInode base index next
  | frees {sb bh : Nat} {next : Kernel}
      (superDev : (base.supers sb).dev = (base.inodes index).dev)
      (isUsed : (base.inodes index).dev ≠ 0)
      (isNumber : 1 ≤ (base.inodes index).num ∧
        (base.inodes index).num ≤ (base.supers sb).ninodes)
      (isMap : (base.supers sb).imap ((base.inodes index).num / 8192) = some bh)
      (maps : MapsAfter base (Function.update base.blocks bh
        (clearBit ((base.inodes index).num % 8192) (base.blocks bh))) next) :
      FreeInode base index next

omit spent panic in
theorem releaseBit_runs (bh bit : Nat) :
    releaseBit (some bh) bit (pure ()) kernel =
      .done () (kernel.setBuffer bh { kernel.buffers bh with
        data := clearBit bit (kernel.buffers bh).data, dirt := true }) := by
  show ((if _ then pure () else pure () : Sys Unit) kernel).bind _ = _
  rw [ite_self]
  rfl

omit panic in
theorem freeInode_frees (loaded : MapsLoaded base) {index : Nat}
    (panics : ¬Freeable base index → ∀ message, fate.panic message)
    (fuel : Nat) :
    Hoare fate Devices (fun kernel => kernel = base)
      (freeInode fuel index).unmarked fun _ => FreeInode base index := by
  have guarded : MapsAfter base base.blocks base :=
    .guarded loaded loaded.guarded
  apply hoare_unmarked_get
  rintro state rfl
  dsimp only
  split <;> rename_i hasDev
  · apply hoare_modify
    rintro _ rfl
    exact .noDevice hasDev (guarded.setInode _ _)
  split <;> rename_i many
  · exact hoare_panic (panics (fun may => absurd may.count (by omega)) _)
  split <;> rename_i links
  · exact hoare_panic (panics (fun may => links may.nlinks) _)
  have lasts (first second : Kernel)
      (holds : Guarded state state.IsMap first ∧ first.inodes = state.inodes)
      (acts : Devices first second) :
      Guarded state state.IsMap second ∧ second.inodes = state.inodes :=
    ⟨holds.1.devices acts, acts.interrupts.inodes.trans holds.2⟩
  refine hoare_unmarked_bind (hoare_at ⟨loaded.guarded, rfl⟩
    (getSuper_finds spent lasts (state.inodes index).dev fuel)) ?_
  rintro (_ | sb)
  · constructor
    rintro kernel ⟨⟨later, _⟩, missing⟩
    refine panics (fun may => ?_) _
    obtain ⟨sb, isMounted⟩ := may.mounted
    rcases missing with noDev | missing
    · exact hasDev noDev
    · rw [later.aside.supers, isMounted] at missing
      cases missing
  · apply hoare_unmarked_get
    rintro kernel ⟨⟨later, sameInodes⟩, _, isFound⟩
    have maps := MapsAfter.guarded loaded later
    rw [sameInodes, maps.supers]
    have superDev : (state.supers sb).dev = (state.inodes index).dev :=
      maps.supers ▸ isFound
    have used : (state.supers sb).dev ≠ 0 := superDev ▸ hasDev
    split <;> rename_i outside
    · refine hoare_panic (panics (fun may => ?_) _)
      have range := may.number sb superDev
      omega
    cases isMap : (state.supers sb).imap ((state.inodes index).num / 8192) with
    | none =>
        refine hoare_panic (panics (fun may => ?_) _)
        exact (may.number sb superDev).2.2 (by
          unfold Kernel.inodeBit mapBit
          rw [isMap]
          rfl)
    | some bh =>
        have isHeld : state.IsMap bh := ⟨sb, used, _, .inl isMap⟩
        have stored :=
          maps.storeMap (clearBit ((state.inodes index).num % 8192)) isHeld
        have frees := FreeInode.frees superDev hasDev (by omega) isMap
          (stored.setInode index Inode.zero)
        constructor
        rintro current rfl
        show ((releaseBit (some bh) _ (pure ()) current).bind _).unmarked.wp _ _ _
        rw [releaseBit_runs]
        exact frees

end Calls

end Linux011.Fs
