import Mathlib.Tactic.Common

/-!
# The tree of the zones of a file

The numbers of the zones of a file stand in slots: nine in the inode, and 512
in each indirect block.  An indirect block is named by the slot its own number
stands in.  Blocks are only ever added, by filling an empty slot with a zone
that is blank and not yet in the tree; that changes this slot and no other.
-/

namespace Linux011.Fs

/-- An indirect block of a file: the single one, the double one, or one of
those whose numbers the double one holds. -/
inductive Indirect where
  | single
  | double
  | middle (entry : Nat)
  deriving DecidableEq

/-- A place for the number of a zone. -/
inductive ZoneSlot where
  | root (entry : Nat)
  | cell (block : Indirect) (entry : Nat)
  deriving DecidableEq

/-- Where the number of an indirect block stands. -/
def Indirect.slot : Indirect → ZoneSlot
  | .single => .root 7
  | .double => .root 8
  | .middle entry => .cell .double entry

def Indirect.Valid : Indirect → Prop
  | .middle entry => entry < 512
  | _ => True

def ZoneSlot.Valid : ZoneSlot → Prop
  | .root entry => entry < 9
  | .cell block entry => block.Valid ∧ entry < 512

/-- The numbers in the inode, and the words of the zones. -/
structure ZoneTree where
  root : Nat → Nat
  word : Nat → Nat → Nat

namespace ZoneTree

variable (tree : ZoneTree)

/-- A word of a zone.  Zone 0 stands for none. -/
def cell (zone entry : Nat) : Nat :=
  if zone = 0 then 0 else tree.word zone entry

def block : Indirect → Nat
  | .single => tree.root 7
  | .double => tree.root 8
  | .middle entry => tree.cell (tree.root 8) entry

def value : ZoneSlot → Nat
  | .root entry => tree.root entry
  | .cell block entry => tree.cell (tree.block block) entry

/-- The slot of a block of the file. -/
def leaf (block : Nat) : ZoneSlot :=
  if block < 7 then .root block
  else if block - 7 < 512 then .cell .single (block - 7)
  else .cell (.middle ((block - 7 - 512) / 512)) ((block - 7 - 512) % 512)

/-- The zone of a block of the file. -/
def map (block : Nat) : Nat := tree.value (leaf block)

/-- No indirect block is in the tree twice. -/
def Apart : Prop :=
  ∀ first second : Indirect, first.Valid → second.Valid →
    tree.block first = tree.block second → tree.block first ≠ 0 →
      first = second

variable {tree}

theorem value_slot (block : Indirect) :
    tree.value block.slot = tree.block block := by
  cases block with
  | single => rfl
  | double => rfl
  | middle entry => rfl

theorem cell_zero (entry : Nat) : tree.cell 0 entry = 0 := if_pos rfl

theorem cell_zone {zone : Nat} (isZone : zone ≠ 0) (entry : Nat) :
    tree.cell zone entry = tree.word zone entry := if_neg isZone

theorem leaf_valid {block : Nat} (inRange : block < 7 + 512 + 512 * 512) :
    (leaf block).Valid := by
  unfold leaf
  split
  · show block < 9
    omega
  · split <;> rename_i inSingle
    · exact ⟨trivial, inSingle⟩
    · refine ⟨?_, Nat.mod_lt _ (by decide)⟩
      show (block - 7 - 512) / 512 < 512
      omega

/-- Different blocks have different slots. -/
theorem leaf_injective {first second : Nat} (same : leaf first = leaf second) :
    first = second := by
  unfold leaf at same
  split at same
  · split at same
    · exact ZoneSlot.root.inj same
    · split at same <;> cases same
  · split at same
    · split at same
      · cases same
      · split at same
        · have entry := (ZoneSlot.cell.inj same).2
          omega
        · cases (ZoneSlot.cell.inj same).1
    · split at same
      · cases same
      · split at same
        · cases (ZoneSlot.cell.inj same).1
        · obtain ⟨middle, entry⟩ := ZoneSlot.cell.inj same
          have quotient := Indirect.middle.inj middle
          omega

/-- The slot of an indirect block is none of a block of the file. -/
theorem leaf_ne_slot (number : Nat) (block : Indirect) :
    leaf number ≠ block.slot := by
  intro same
  unfold leaf at same
  split at same <;> rename_i direct
  · cases block with
    | single =>
        have entry := ZoneSlot.root.inj same
        omega
    | double =>
        have entry := ZoneSlot.root.inj same
        omega
    | middle entry => cases same
  · split at same <;> cases block <;> cases same

/-- The numbers in the inode and the words of the indirect blocks are the
same. -/
structure Same (tree next : ZoneTree) : Prop where
  root : ∀ entry, next.root entry = tree.root entry
  word : ∀ block entry, block.Valid → entry < 512 → tree.block block ≠ 0 →
    next.word (tree.block block) entry = tree.word (tree.block block) entry

section Same

variable {next : ZoneTree}

theorem Same.cell (same : Same tree next) {block : Indirect} {entry : Nat}
    (valid : block.Valid) (inBlock : entry < 512)
    (number : next.block block = tree.block block) :
    next.value (.cell block entry) = tree.value (.cell block entry) := by
  show next.cell (next.block block) entry = tree.cell (tree.block block) entry
  rw [number]
  by_cases absent : tree.block block = 0
  · rw [absent, cell_zero, cell_zero]
  · rw [cell_zone absent, cell_zone absent, same.word block entry valid inBlock
      absent]

theorem Same.block (same : Same tree next) {block : Indirect}
    (valid : block.Valid) : next.block block = tree.block block := by
  cases block with
  | single => exact same.root 7
  | double => exact same.root 8
  | middle entry =>
      have isDouble : Indirect.double.Valid := trivial
      exact same.cell isDouble valid (same.root 8)

theorem Same.value (same : Same tree next) {slot : ZoneSlot}
    (valid : slot.Valid) : next.value slot = tree.value slot := by
  cases slot with
  | root entry => exact same.root entry
  | cell block entry => exact same.cell valid.1 valid.2 (same.block valid.1)

end Same

/-! ## Filling a slot -/

/-- The slot is empty, and the zone is not in the tree. -/
structure Fillable (tree : ZoneTree) (slot : ZoneSlot) (zone : Nat) : Prop where
  isZone : zone ≠ 0
  empty : tree.value slot = 0
  fresh : ∀ block : Indirect, block.Valid → tree.block block ≠ zone
  inBlock : ∀ block entry, slot = .cell block entry → tree.block block ≠ 0

/-- The zone is put into the slot, and it is blank. -/
structure Fills (tree next : ZoneTree) (slot : ZoneSlot) (zone : Nat) :
    Prop where
  root : ∀ entry, next.root entry =
    if slot = .root entry then zone else tree.root entry
  word : ∀ block entry, block.Valid → entry < 512 → tree.block block ≠ 0 →
    next.word (tree.block block) entry =
      if slot = .cell block entry then zone
      else tree.word (tree.block block) entry
  blank : ∀ entry, entry < 512 → next.word zone entry = 0

section Fill

variable {next : ZoneTree} {slot : ZoneSlot} {zone : Nat}

/-- The cells of an indirect block, where its number is known. -/
theorem Fills.cell (fills : Fills tree next slot zone)
    (fillable : Fillable tree slot zone) {block : Indirect} {entry : Nat}
    (valid : block.Valid) (inBlock : entry < 512)
    (number : next.block block =
      if slot = block.slot then zone else tree.block block) :
    next.value (.cell block entry) =
      if slot = .cell block entry then zone
      else tree.value (.cell block entry) := by
  show next.cell (next.block block) entry = _
  rw [number]
  split <;> rename_i isOwn
  · -- the block is the new one, and was not there before
    have absent : tree.block block = 0 := by
      rw [← value_slot, ← isOwn]
      exact fillable.empty
    have others : slot ≠ .cell block entry := fun isCell =>
      fillable.inBlock block entry isCell absent
    rw [if_neg others, cell_zone fillable.isZone, fills.blank entry inBlock]
    show 0 = tree.cell (tree.block block) entry
    rw [absent, cell_zero]
  · by_cases absent : tree.block block = 0
    · have others : slot ≠ .cell block entry := fun isCell =>
        fillable.inBlock block entry isCell absent
      rw [if_neg others, absent, cell_zero]
      show 0 = tree.cell (tree.block block) entry
      rw [absent, cell_zero]
    · rw [cell_zone absent, fills.word block entry valid inBlock absent]
      show _ = if _ then zone else tree.cell (tree.block block) entry
      rw [cell_zone absent]

theorem Fills.block (fills : Fills tree next slot zone)
    (fillable : Fillable tree slot zone) {block : Indirect}
    (valid : block.Valid) :
    next.block block = if slot = block.slot then zone else tree.block block := by
  cases block with
  | single => exact fills.root 7
  | double => exact fills.root 8
  | middle entry =>
      have isDouble : Indirect.double.Valid := trivial
      exact fills.cell fillable isDouble valid (fills.root 8)

/-- No other slot changes. -/
theorem Fills.value (fills : Fills tree next slot zone)
    (fillable : Fillable tree slot zone) {other : ZoneSlot}
    (valid : other.Valid) :
    next.value other = if slot = other then zone else tree.value other := by
  cases other with
  | root entry => exact fills.root entry
  | cell block entry =>
      exact fills.cell fillable valid.1 valid.2 (fills.block fillable valid.1)

theorem Fills.apart (fills : Fills tree next slot zone)
    (fillable : Fillable tree slot zone) (apart : tree.Apart) : next.Apart := by
  intro first second firstValid secondValid same isZone
  rw [fills.block fillable firstValid] at same isZone
  rw [fills.block fillable secondValid] at same
  have slot_injective (left right : Indirect) (sameSlot : left.slot = right.slot) :
      left = right := by
    cases left <;> cases right <;> cases sameSlot <;> rfl
  by_cases isFirst : slot = first.slot
  · by_cases isSecond : slot = second.slot
    · exact slot_injective first second (isFirst.symm.trans isSecond)
    · rw [if_pos isFirst, if_neg isSecond] at same
      exact absurd same.symm (fillable.fresh second secondValid)
  · by_cases isSecond : slot = second.slot
    · rw [if_neg isFirst, if_pos isSecond] at same
      exact absurd same (fillable.fresh first firstValid)
    · rw [if_neg isFirst, if_neg isSecond] at same
      rw [if_neg isFirst] at isZone
      exact apart first second firstValid secondValid same isZone

end Fill

end ZoneTree

end Linux011.Fs
