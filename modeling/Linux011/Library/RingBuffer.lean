/-!
# Ring buffers

The elements of a buffer of fixed capacity from a position onwards, where
positions wrap at the capacity.
-/

namespace RingBuffers

variable {α : Type}

/-- The `count` elements from `start`. -/
def slice (capacity : Nat) (cells : Nat → α) (start count : Nat) : List α :=
  (List.range count).map fun index => cells ((start + index) % capacity)

/-- Overwrite the cells from `start` with the first `count` of `values`. -/
def store (cells : Nat → α) (start count : Nat) (values : Nat → α) : Nat → α :=
  fun cell =>
    if start ≤ cell ∧ cell < start + count then values (cell - start)
    else cells cell

variable {capacity : Nat} {cells other : Nat → α} {start count : Nat}

theorem slice_length : (slice capacity cells start count).length = count := by
  rw [slice, List.length_map, List.length_range]

theorem slice_add (first second : Nat) :
    slice capacity cells start (first + second) =
      slice capacity cells start first ++
        slice capacity cells (start + first) second := by
  unfold slice
  rw [List.range_add, List.map_append, List.map_map]
  congr 1
  apply List.map_congr_left
  intro index _
  rw [Function.comp_apply, Nat.add_assoc]

theorem slice_mod :
    slice capacity cells (start % capacity) count =
      slice capacity cells start count := by
  unfold slice
  apply List.map_congr_left
  intro index _
  rw [Nat.mod_add_mod]

theorem slice_congr
    (same : ∀ index, index < count →
      other ((start + index) % capacity) = cells ((start + index) % capacity)) :
    slice capacity other start count = slice capacity cells start count := by
  unfold slice
  apply List.map_congr_left
  intro index isMember
  exact same index (List.mem_range.mp isMember)

/-- A position that wraps once at most. -/
theorem mod_split {position : Nat} (belowTwice : position < 2 * capacity) :
    position % capacity = position ∧ position < capacity ∨
      position % capacity = position - capacity ∧ capacity ≤ position := by
  by_cases below : position < capacity
  · exact .inl ⟨Nat.mod_eq_of_lt below, below⟩
  · have atLeast : capacity ≤ position := by omega
    refine .inr ⟨?_, atLeast⟩
    rw [Nat.mod_eq_sub_mod atLeast, Nat.mod_eq_of_lt (by omega)]

/-- What has been stored is found again, if it did not wrap. -/
theorem slice_store {values : Nat → α} (fits : start + count ≤ capacity) :
    slice capacity (store cells start count values) start count =
      (List.range count).map values := by
  unfold slice
  apply List.map_congr_left
  intro index isMember
  rw [List.mem_range] at isMember
  rw [Nat.mod_eq_of_lt (by omega), store, if_pos (by omega),
    Nat.add_sub_cancel_left]

/-- Storing behind a slice that leaves room for it keeps the slice. -/
theorem slice_store_behind {values : Nat → α} {size : Nat}
    (room : size + count ≤ capacity) (inside : start < capacity) :
    slice capacity
        (store cells ((start + size) % capacity) count values) start size =
      slice capacity cells start size := by
  apply slice_congr
  intro index isBefore
  rw [store, if_neg]
  -- the slice takes up at most one turn of the ring
  have atIndex := @mod_split capacity (start + index) (by omega)
  have atEnd := @mod_split capacity (start + size) (by omega)
  omega

end RingBuffers
