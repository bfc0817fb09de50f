import Mathlib.Order.Lattice
import Mathlib.Data.List.Basic

/-!
# Queues that are served upwards

An elevator serves its queue in ascending order and then begins again at the
bottom, so that its queue has at most one descent.  New entries are put
between ascending neighbours, or where the descent is, behind the entry that
is being served.
-/

namespace Elevator

variable {κ : Type} [LinearOrder κ]

/-- The number of neighbours that do not ascend. -/
def descents : List κ → Nat
  | [] => 0
  | [_] => 0
  | first :: second :: rest =>
      (if first < second then 0 else 1) + descents (second :: rest)

/-- The queue behind `current`, with `new` put in. -/
def insert (new : κ) : κ → List κ → List κ
  | _, [] => [new]
  | current, next :: rest =>
      if (current < new ∨ ¬current < next) ∧ new < next then
        new :: next :: rest
      else next :: insert new next rest

@[simp] theorem descents_pair (first second : κ) (rest : List κ) :
    descents (first :: second :: rest) =
      (if first < second then 0 else 1) + descents (second :: rest) := rfl

@[simp] theorem descents_single (key : κ) : descents [key] = 0 := rfl

theorem descents_tail (first : κ) (rest : List κ) :
    descents rest ≤ descents (first :: rest) := by
  cases rest with
  | nil => exact Nat.le_refl 0
  | cons second rest => simp

/-- A larger first key, but not past the second one. -/
theorem descents_raise {first raised : κ} {rest : List κ}
    (below : ∀ second ∈ rest, first < second → raised < second) :
    descents (raised :: rest) ≤ descents (first :: rest) := by
  cases rest with
  | nil => exact Nat.le_refl 0
  | cons second rest =>
      have kept := below second List.mem_cons_self
      simp only [descents_pair]
      split <;> split <;> simp_all

/-- In an ascending queue a larger key finds its place. -/
theorem descents_insert_above {new current : κ} {rest : List κ}
    (above : current < new) (ascending : descents (current :: rest) = 0)
    (isNew : new ∉ rest) :
    descents (current :: insert new current rest) = 0 := by
  induction rest generalizing current with
  | nil => simp [insert, above]
  | cons next rest induction =>
      have different : new ≠ next := by
        rintro rfl
        exact isNew List.mem_cons_self
      simp only [descents_pair, Nat.add_eq_zero_iff] at ascending
      have isNext : current < next := by
        by_contra isNot
        simp [isNot] at ascending
      by_cases here : new < next
      · simp [insert, above, here, ascending.2]
      · have later : next < new :=
          lt_of_le_of_ne (not_lt.mp here) (Ne.symm different)
        have tail := induction later ascending.2
          (fun member => isNew (List.mem_cons_of_mem _ member))
        simp [insert, here, isNext, tail]

/-- A queue with at most one descent keeps it so. -/
theorem descents_insert {new current : κ} {rest : List κ}
    (few : descents (current :: rest) ≤ 1) (notCurrent : new ≠ current)
    (isNew : new ∉ rest) :
    descents (current :: insert new current rest) ≤ 1 := by
  induction rest generalizing current with
  | nil =>
      simp only [insert, descents_pair, descents_single]
      split <;> simp
  | cons next rest induction =>
      have different : new ≠ next := by
        rintro rfl
        exact isNew List.mem_cons_self
      have notRest : new ∉ rest :=
        fun member => isNew (List.mem_cons_of_mem _ member)
      by_cases isNext : current < next
      · have few : descents (next :: rest) ≤ 1 := by simpa [isNext] using few
        have tail := induction few different notRest
        by_cases between : current < new ∧ new < next
        · simpa [insert, between.1, between.2] using few
        · have skips : ¬((current < new ∨ ¬current < next) ∧ new < next) := by
            simpa [isNext] using between
          unfold insert
          rw [if_neg skips]
          simpa [isNext] using tail
      · -- the descent is here, so the queue behind it ascends
        have ascending : descents (next :: rest) = 0 := by
          simp only [descents_pair, isNext, if_false] at few
          omega
        by_cases here : new < next
        · have notAbove : ¬current < new := fun above =>
            isNext (lt_trans above here)
          simp [insert, isNext, here, notAbove, ascending]
        · have later : next < new :=
            lt_of_le_of_ne (not_lt.mp here) (Ne.symm different)
          have tail := descents_insert_above later ascending notRest
          simp [insert, here, isNext, tail]

/-- The neighbours at a place do not ascend. -/
def FailsAt (keys : List κ) (place : Nat) : Prop :=
  ∃ first second, keys[place]? = some first ∧ keys[place + 1]? = some second ∧
    ¬first < second

theorem FailsAt.counted {keys : List κ} {place : Nat}
    (fails : FailsAt keys place) : 0 < descents keys := by
  obtain ⟨first, second, isFirst, isSecond, notAscending⟩ := fails
  induction keys generalizing place with
  | nil => simp at isFirst
  | cons head rest induction =>
      cases place with
      | zero =>
          cases rest with
          | nil => simp at isSecond
          | cons next rest =>
              simp only [List.getElem?_cons_zero, List.getElem?_cons_succ,
                Option.some.injEq] at isFirst isSecond
              subst isFirst isSecond
              simp only [descents_pair, notAscending, if_false]
              omega
      | succ place =>
          rw [List.getElem?_cons_succ] at isFirst isSecond
          exact Nat.lt_of_lt_of_le (induction isFirst isSecond)
            (descents_tail head rest)

/-- With at most one descent there is at most one such place. -/
theorem FailsAt.unique {keys : List κ} {left right : Nat}
    (few : descents keys ≤ 1) (atLeft : FailsAt keys left)
    (atRight : FailsAt keys right) : left = right := by
  induction keys generalizing left right with
  | nil =>
      obtain ⟨_, _, isFirst, _⟩ := atLeft
      simp at isFirst
  | cons head rest induction =>
      -- a failure at the head leaves none for the rest
      have alone {place : Nat} (first : FailsAt (head :: rest) 0)
          (second : FailsAt rest place) : False := by
        have counted := second.counted
        obtain ⟨_, _, isFirst, isSecond, notAscending⟩ := first
        cases rest with
        | nil => simp at isSecond
        | cons next rest =>
            simp only [List.getElem?_cons_zero, List.getElem?_cons_succ,
              Option.some.injEq] at isFirst isSecond
            subst isFirst isSecond
            simp only [descents_pair, notAscending, if_false] at few
            omega
      cases left with
      | zero =>
          cases right with
          | zero => rfl
          | succ right => exact (alone atLeft atRight).elim
      | succ left =>
          cases right with
          | zero => exact (alone atRight atLeft).elim
          | succ right =>
              have fewRest := Nat.le_trans (descents_tail head rest) few
              exact congrArg Nat.succ (induction fewRest atLeft atRight)

end Elevator
