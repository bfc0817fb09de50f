import Mathlib.Logic.Function.Iterate

/-!
# String moves in a memory of words

A memory that remembers where it was stored to, and the two repeated string
instructions.  `next` is what an instruction does to its pointers.
-/

namespace StringMoves

/-- The word at each address, and the addresses stored to, the last first. -/
structure Memory where
  word : Nat → Nat
  stores : List Nat

namespace Memory

def store (address value : Nat) (memory : Memory) : Memory where
  word := fun other => if other = address then value else memory.word other
  stores := address :: memory.stores

@[simp] theorem word_store {address value : Nat} {memory : Memory}
    (other : Nat) : (memory.store address value).word other =
      if other = address then value else memory.word other := rfl

/-- Store a value again and again. -/
def fill (next : Nat → Nat) (value : Nat) : Nat → Nat → Memory → Memory
  | 0, _, memory => memory
  | count + 1, address, memory =>
      fill next value count (next address) (memory.store address value)

/-- Copy two words at once. -/
def movePair (after : Nat → Nat) (target source : Nat) (memory : Memory) :
    Memory :=
  (memory.store target (memory.word source)).store (after target)
    (memory.word (after source))

/-- Copy pairs of words again and again. -/
def move (next after : Nat → Nat) : Nat → Nat → Nat → Memory → Memory
  | 0, _, _, memory => memory
  | count + 1, target, source, memory =>
      move next after count (next target) (next source)
        (memory.movePair after target source)

variable {memory other : Memory} {next after : Nat → Nat}

/-! ## What every store keeps -/

section Related

variable {Related : Memory → Memory → Prop}

/-- What relates two memories and is kept by each store of two fills. -/
theorem fill_related {value count address place : Nat}
    (related : Related memory other)
    (kept : ∀ index, index < count → ∀ memory other, Related memory other →
      Related (memory.store (next^[index] address) value)
        (other.store (next^[index] place) value)) :
    Related (memory.fill next value count address)
      (other.fill next value count place) := by
  induction count generalizing address place memory other with
  | zero => exact related
  | succ count induction =>
      apply induction (kept 0 (Nat.succ_pos count) memory other related)
      intro index below
      exact kept (index + 1) (by omega)

theorem move_related {count target source place origin : Nat}
    (related : Related memory other)
    (kept : ∀ index, index < count → ∀ memory other, Related memory other →
      Related
        (memory.movePair after (next^[index] target) (next^[index] source))
        (other.movePair after (next^[index] place) (next^[index] origin))) :
    Related (memory.move next after count target source)
      (other.move next after count place origin) := by
  induction count generalizing target source place origin memory other with
  | zero => exact related
  | succ count induction =>
      apply induction (kept 0 (Nat.succ_pos count) memory other related)
      intro index below
      exact kept (index + 1) (by omega)

end Related

section Stores

variable {Good : Nat → Prop}

theorem fill_stores {value count address : Nat}
    (old : ∀ place ∈ memory.stores, Good place)
    (new : ∀ index, index < count → Good (next^[index] address)) :
    ∀ place ∈ (memory.fill next value count address).stores, Good place := by
  apply @fill_related memory memory next
    (fun memory _ => ∀ place ∈ memory.stores, Good place) value count address
    address old
  intro index below memory _ kept
  exact List.forall_mem_cons.mpr ⟨new index below, kept⟩

theorem move_stores {count target source : Nat}
    (old : ∀ place ∈ memory.stores, Good place)
    (new : ∀ index, index < count → Good (next^[index] target) ∧
      Good (after (next^[index] target))) :
    ∀ place ∈ (memory.move next after count target source).stores,
      Good place := by
  apply @move_related memory memory next after
    (fun memory _ => ∀ place ∈ memory.stores, Good place) count target source
    target source old
  intro index below memory _ kept
  obtain ⟨first, second⟩ := new index below
  exact List.forall_mem_cons.mpr ⟨second, List.forall_mem_cons.mpr
    ⟨first, kept⟩⟩

end Stores

/-! ## What a fill and a move upwards leave -/

theorem fill_outside {value count address place : Nat}
    (outside : ∀ index, index < count → place ≠ next^[index] address) :
    (memory.fill next value count address).word place =
      memory.word place := by
  induction count generalizing address memory with
  | zero => rfl
  | succ count induction =>
      have first := outside 0 (Nat.succ_pos count)
      rw [fill, induction fun index below => outside (index + 1) (by omega)]
      exact if_neg first

theorem fill_inside {value count address index : Nat} (below : index < count) :
    (memory.fill next value count address).word (next^[index] address) =
      value := by
  induction count generalizing address index memory with
  | zero => exact (Nat.not_lt_zero index below).elim
  | succ count induction =>
      by_cases again : ∃ later, later < count ∧
          next^[later] (next address) = next^[index] address
      · obtain ⟨later, inCount, same⟩ := again
        rw [← same]
        exact induction inCount
      · cases index with
        | zero =>
            rw [fill, fill_outside]
            · exact if_pos rfl
            · intro later inCount same
              exact again ⟨later, inCount, same.symm⟩
        | succ index => exact induction (by omega)

theorem move_outside {count target source place : Nat}
    (outside : ∀ index, index < count →
      place ≠ next^[index] target ∧ place ≠ after (next^[index] target)) :
    (memory.move next after count target source).word place =
      memory.word place := by
  induction count generalizing target source memory with
  | zero => rfl
  | succ count induction =>
      obtain ⟨notFirst, notSecond⟩ := outside 0 (Nat.succ_pos count)
      rw [move, induction fun index below => outside (index + 1) (by omega)]
      exact (if_neg notSecond).trans (if_neg notFirst)

/-- A move to lower addresses reads every word before it stores there. -/
theorem move_inside {count target source index : Nat} (below : index < count)
    (apart : ∀ first second, first < second → second < count →
      next^[first] target ≠ next^[second] source ∧
        next^[first] target ≠ after (next^[second] source) ∧
        after (next^[first] target) ≠ next^[second] source ∧
        after (next^[first] target) ≠ after (next^[second] source))
    (different : ∀ first second, first < second → second < count →
      next^[first] target ≠ next^[second] target ∧
        next^[first] target ≠ after (next^[second] target) ∧
        after (next^[first] target) ≠ next^[second] target ∧
        after (next^[first] target) ≠ after (next^[second] target))
    (proper : ∀ place, after place ≠ place) :
    (memory.move next after count target source).word
        (next^[index] target) = memory.word (next^[index] source) ∧
      (memory.move next after count target source).word
        (after (next^[index] target)) =
          memory.word (after (next^[index] source)) := by
  induction count generalizing target source index memory with
  | zero => exact (Nat.not_lt_zero index below).elim
  | succ count induction =>
      cases index with
      | zero =>
          have later (second : Nat) (inCount : second < count) :=
            different 0 (second + 1) (Nat.succ_pos second) (by omega)
          constructor
          · rw [move, move_outside]
            · exact (if_neg (proper target).symm).trans (if_pos rfl)
            · intro second inCount
              obtain ⟨first, cross, _, _⟩ := later second inCount
              exact ⟨first, cross⟩
          · rw [move, move_outside]
            · exact if_pos rfl
            · intro second inCount
              obtain ⟨_, _, cross, last⟩ := later second inCount
              exact ⟨cross, last⟩
      | succ index =>
          obtain ⟨isFirst, isSecond⟩ := @induction
            (memory.movePair after target source) (next target) (next source)
            index (by omega)
            (fun first second before inCount =>
              apart (first + 1) (second + 1) (by omega) (by omega))
            (fun first second before inCount =>
              different (first + 1) (second + 1) (by omega) (by omega))
          obtain ⟨first, cross, back, last⟩ :=
            apart 0 (index + 1) (Nat.succ_pos index) (by omega)
          constructor
          · refine isFirst.trans ?_
            exact (if_neg back.symm).trans (if_neg first.symm)
          · refine isSecond.trans ?_
            exact (if_neg last.symm).trans (if_neg cross.symm)

end Memory

end StringMoves
