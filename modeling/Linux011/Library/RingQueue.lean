import Linux011.Library.RingBuffer

/-!
# Queues in ring buffers

A ring with a head and a tail index.  One cell is never used, so that a full
ring is not an empty one; a store into a full ring empties it.
-/

namespace RingQueues

open RingBuffers

structure RingQueue (α : Type) where
  head : Nat
  tail : Nat
  buf : Nat → α

namespace RingQueue

variable {α : Type}

def put (capacity : Nat) (value : α) (ring : RingQueue α) : RingQueue α where
  head := (ring.head + 1) % capacity
  tail := ring.tail
  buf := fun cell => if cell = ring.head then value else ring.buf cell

def get (capacity : Nat) (ring : RingQueue α) : RingQueue α :=
  { ring with tail := (ring.tail + 1) % capacity }

/-- The head one cell back. -/
def back (capacity : Nat) (ring : RingQueue α) : RingQueue α :=
  { ring with head := (ring.head + capacity - 1) % capacity }

/-- The value that was put last. -/
def last (capacity : Nat) (ring : RingQueue α) : α :=
  ring.buf ((ring.head + capacity - 1) % capacity)

def count (capacity : Nat) (ring : RingQueue α) : Nat :=
  (ring.head + capacity - ring.tail) % capacity

def left (capacity : Nat) (ring : RingQueue α) : Nat :=
  (ring.tail + capacity - ring.head - 1) % capacity

/-- The values in the order of the puts. -/
def contents (capacity : Nat) (ring : RingQueue α) : List α :=
  slice capacity ring.buf ring.tail (ring.count capacity)

/-- The indices are cells of the ring. -/
def Valid (capacity : Nat) (ring : RingQueue α) : Prop :=
  ring.head < capacity ∧ ring.tail < capacity

section Queue

variable {capacity : Nat} {ring : RingQueue α} {value : α}

theorem contents_length :
    (ring.contents capacity).length = ring.count capacity := slice_length

theorem Valid.left (valid : ring.Valid capacity) :
    ring.count capacity + ring.left capacity + 1 = capacity := by
  obtain ⟨inHead, inTail⟩ := valid
  have first := @mod_split capacity (ring.head + capacity - ring.tail)
    (by omega)
  have second := @mod_split capacity (ring.tail + capacity - ring.head - 1)
    (by omega)
  unfold count RingQueue.left
  omega

theorem Valid.put (valid : ring.Valid capacity) :
    (ring.put capacity value).Valid capacity :=
  ⟨Nat.mod_lt _ (Nat.zero_lt_of_lt valid.1), valid.2⟩

theorem Valid.get (valid : ring.Valid capacity) :
    (ring.get capacity).Valid capacity :=
  ⟨valid.1, Nat.mod_lt _ (Nat.zero_lt_of_lt valid.1)⟩

theorem Valid.back (valid : ring.Valid capacity) :
    (ring.back capacity).Valid capacity :=
  ⟨Nat.mod_lt _ (Nat.zero_lt_of_lt valid.1), valid.2⟩

theorem contents_eq_nil (valid : ring.Valid capacity) :
    ring.contents capacity = [] ↔ ring.head = ring.tail := by
  obtain ⟨inHead, inTail⟩ := valid
  have split := @mod_split capacity (ring.head + capacity - ring.tail)
    (by omega)
  rw [← List.length_eq_zero_iff, contents_length]
  unfold count
  omega

theorem contents_put (valid : ring.Valid capacity)
    (room : ring.left capacity ≠ 0) :
    (ring.put capacity value).contents capacity =
      ring.contents capacity ++ [value] := by
  have sum := valid.left
  obtain ⟨inHead, inTail⟩ := valid
  have isCount : (ring.put capacity value).count capacity =
      ring.count capacity + 1 := by
    have first := @mod_split capacity (ring.head + capacity - ring.tail)
      (by omega)
    have next := @mod_split capacity (ring.head + 1) (by omega)
    have second := @mod_split capacity
      ((ring.head + 1) % capacity + capacity - ring.tail) (by omega)
    unfold count put at *
    dsimp only
    omega
  have isHead : (ring.tail + ring.count capacity) % capacity = ring.head := by
    have first := @mod_split capacity (ring.head + capacity - ring.tail)
      (by omega)
    have second := @mod_split capacity (ring.tail + ring.count capacity)
      (by omega)
    unfold count at *
    omega
  have behind : slice capacity (ring.put capacity value).buf
      (ring.tail + ring.count capacity) 1 = [value] := by
    simp [slice, put, isHead]
  have before : slice capacity (ring.put capacity value).buf ring.tail
      (ring.count capacity) = ring.contents capacity := by
    apply slice_congr
    intro index inside
    apply if_neg
    intro same
    have first := @mod_split capacity (ring.tail + index) (by omega)
    have second := @mod_split capacity (ring.tail + ring.count capacity)
      (by omega)
    omega
  unfold contents
  rw [isCount]
  change slice capacity (ring.put capacity value).buf ring.tail
    (ring.count capacity + 1) = _
  rw [slice_add, behind, before]
  rfl

theorem contents_get (valid : ring.Valid capacity)
    (some : ring.head ≠ ring.tail) :
    ring.contents capacity =
      ring.buf ring.tail :: (ring.get capacity).contents capacity := by
  obtain ⟨inHead, inTail⟩ := valid
  have isCount : ring.count capacity =
      1 + (ring.get capacity).count capacity := by
    have first := @mod_split capacity (ring.head + capacity - ring.tail)
      (by omega)
    have next := @mod_split capacity (ring.tail + 1) (by omega)
    have second := @mod_split capacity
      (ring.head + capacity - (ring.tail + 1) % capacity) (by omega)
    unfold count get at *
    dsimp only
    omega
  have first : slice capacity ring.buf ring.tail 1 =
      [ring.buf ring.tail] := by
    simp [slice, Nat.mod_eq_of_lt inTail]
  have rest : slice capacity ring.buf (ring.tail + 1)
      ((ring.get capacity).count capacity) =
        (ring.get capacity).contents capacity := slice_mod.symm
  unfold contents
  rw [isCount, slice_add, first, rest]
  rfl

theorem contents_back (valid : ring.Valid capacity)
    (some : ring.head ≠ ring.tail) :
    ring.contents capacity =
      (ring.back capacity).contents capacity ++ [ring.last capacity] := by
  obtain ⟨inHead, inTail⟩ := valid
  have first := @mod_split capacity (ring.head + capacity - ring.tail)
    (by omega)
  have before := @mod_split capacity (ring.head + capacity - 1) (by omega)
  have isCount : ring.count capacity =
      (ring.back capacity).count capacity + 1 := by
    have second := @mod_split capacity
      ((ring.head + capacity - 1) % capacity + capacity - ring.tail) (by omega)
    unfold count back at *
    dsimp only
    omega
  have isLast : (ring.tail + (ring.back capacity).count capacity) %
      capacity = (ring.head + capacity - 1) % capacity := by
    have isSum : ring.count capacity =
        (ring.head + capacity - ring.tail) % capacity := rfl
    have second := @mod_split capacity
      (ring.tail + (ring.back capacity).count capacity) (by omega)
    omega
  have behind : slice capacity ring.buf
      (ring.tail + (ring.back capacity).count capacity) 1 =
        [ring.last capacity] := by
    simp [slice, last, isLast]
  unfold contents
  rw [isCount, slice_add, behind]
  rfl

section Cursor

variable {place : Nat}

/-- With the head further on, there are more values behind the old ones. -/
theorem contents_prefix
    (further : ring.count capacity ≤
      ({ ring with head := place } : RingQueue α).count capacity) :
    ring.contents capacity <+:
      ({ ring with head := place } : RingQueue α).contents capacity := by
  obtain ⟨more, isMore⟩ := Nat.le.dest further
  have split := @slice_add α capacity ring.buf ring.tail
    (ring.count capacity) more
  rw [isMore] at split
  exact ⟨slice capacity ring.buf (ring.tail + ring.count capacity) more,
    split.symm⟩

/-- A value in a cell behind the last one does not change what is there. -/
theorem contents_store (valid : ring.Valid capacity)
    (inside : place < capacity)
    (further : ring.count capacity ≤
      ({ ring with head := place } : RingQueue α).count capacity) :
    ({ ring with
        buf := fun cell => if cell = place then value else ring.buf cell } :
      RingQueue α).contents capacity = ring.contents capacity := by
  obtain ⟨inHead, inTail⟩ := valid
  apply slice_congr
  intro index before
  apply if_neg
  intro same
  have isBelow : index < (ring.head + capacity - ring.tail) % capacity :=
    before
  have isFurther : (ring.head + capacity - ring.tail) % capacity ≤
      (place + capacity - ring.tail) % capacity := further
  have atIndex : (ring.tail + index) % capacity = place := same
  have first := @mod_split capacity (ring.head + capacity - ring.tail)
    (by omega)
  have second := @mod_split capacity (ring.tail + index) (by omega)
  have third := @mod_split capacity (place + capacity - ring.tail) (by omega)
  omega

theorem count_next (inside : place < capacity) (inTail : ring.tail < capacity)
    (room : (place + 1) % capacity ≠ ring.tail) :
    ({ ring with head := (place + 1) % capacity } : RingQueue α).count capacity =
      ({ ring with head := place } : RingQueue α).count capacity + 1 := by
  have next := @mod_split capacity (place + 1) (by omega)
  have first := @mod_split capacity (place + capacity - ring.tail) (by omega)
  have second := @mod_split capacity
    ((place + 1) % capacity + capacity - ring.tail) (by omega)
  unfold count
  dsimp only
  omega

end Cursor

end Queue

end RingQueue

end RingQueues
