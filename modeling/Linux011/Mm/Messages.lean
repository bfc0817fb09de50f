import Linux011.Mm.Memory

/-!
# The panics of the memory functions

The messages with which `mm/memory.c` stops the machine where pages are freed
and loaded.
-/

namespace Linux011.Mm

def memoryMessages : List String :=
  ["trying to free nonexistent page", "trying to free free page",
    "free_page_tables called with wrong alignment",
    "Trying to free up swapper memory space",
    "try_to_share: to_page already exists"]

/-- A panic has one of these messages. -/
def Known {α : Type} (result : Except Fault α) : Prop :=
  ∀ message, result = .error (.panic message) → message ∈ memoryMessages

namespace Known

variable {α β : Type}

theorem ok {value : α} : Known (.ok value) :=
  fun _ impossible => nomatch impossible

theorem oom {state : State} : Known (.error (.oom state) : Except Fault α) :=
  fun _ impossible => nomatch impossible

theorem panic {message : String} (member : message ∈ memoryMessages) :
    Known (.error (.panic message) : Except Fault α) := by
  intro other same
  cases same
  exact member

theorem bind {first : Except Fault α} {next : α → Except Fault β}
    (known : Known first) (continues : ∀ value, Known (next value)) :
    Known (first >>= next) := by
  cases first with
  | error fault =>
      intro message same
      cases same
      exact known message rfl
  | ok value => exact continues value

theorem ite {condition : Prop} [Decidable condition]
    {first second : Except Fault α} (known : Known first)
    (alsoKnown : Known second) :
    Known (if condition then first else second) := by
  split
  · exact known
  · exact alsoKnown

end Known

variable {state : State}

theorem freePage_known {frame : Nat} : Known (freePage frame state) := by
  unfold freePage
  refine .ite .ok (.ite (.panic (by decide)) ?_)
  exact .ite .ok (.panic (by decide))

theorem freeEntries_known {table nr : Nat} :
    Known (freeEntries table nr state) := by
  induction nr with
  | zero => exact .ok
  | succ nr induction =>
      refine .bind induction fun middle => ?_
      unfold freeEntry
      exact .ite (.bind freePage_known fun _ => .ok) (.bind .ok fun _ => .ok)

theorem freeTables_known {dir size : Nat} :
    Known (freeTables dir size state) := by
  induction size generalizing dir state with
  | zero => exact .ok
  | succ size induction =>
      unfold freeTables
      refine .bind ?_ fun _ => induction
      unfold freeTable
      refine .ite .ok (.bind freeEntries_known fun _ => ?_)
      exact .bind freePage_known fun _ => .ok

theorem freePageTables_known {start size : Nat} :
    Known (freePageTables start size state) := by
  unfold freePageTables
  exact .ite (.panic (by decide)) (.ite (.panic (by decide)) freeTables_known)

theorem getEmptyPage_known {address : Nat} :
    Known (getEmptyPage address state) := by
  unfold getEmptyPage
  split
  · exact .oom
  · split
    · exact .ok
    · exact .bind freePage_known fun _ => .oom

theorem tryToShare_known {address startCode currentStart : Nat} :
    Known (tryToShare address startCode currentStart state) := by
  have shares {place : Nat × State} {next : State} :
      Known (if (place.2.phys place.1 (tableIndex address)).present then
          .error (.panic "try_to_share: to_page already exists")
        else .ok (true, next)) :=
    .ite (.panic (by decide)) .ok
  unfold tryToShare
  refine .ite .ok (.ite .ok (.ite .ok ?_))
  dsimp only
  split
  · exact .bind .ok fun _ => shares
  · split
    · exact .bind .oom fun _ => shares
    · exact .bind .ok fun _ => shares

theorem shareWith_known {tasks : Nat → Option Task} {current address nr : Nat}
    {mine : Task} : Known (shareWith tasks current mine address nr state) := by
  induction nr generalizing state with
  | zero => exact .ok
  | succ nr induction =>
      unfold shareWith
      split
      · exact induction
      · rename_i p _
        split
        · exact induction
        · have shared : Known (tryToShare address p.startCode mine.startCode
              state) := tryToShare_known
          split
          · rename_i fault isFault
            intro message same
            cases same
            exact shared message isFault
          · exact .ok
          · exact induction

theorem sharePage_known {tasks : Nat → Option Task}
    {current iCount address : Nat} {mine : Task} :
    Known (sharePage tasks current mine iCount address state) := by
  unfold sharePage
  exact .ite .ok shareWith_known

theorem doNoPage_known {tasks : Nat → Option Task}
    {current iCount address : Nat} {mine : Task} {load : Nat → Word} :
    Known (doNoPage tasks current mine iCount address load state) := by
  unfold doNoPage
  dsimp only
  split
  · exact getEmptyPage_known
  · have shared : Known (sharePage tasks current mine iCount
        (address / 4096 * 4096 - mine.startCode) state) := sharePage_known
    split
    · rename_i fault isFault
      intro message same
      cases same
      exact shared message isFault
    · exact .ok
    · split
      · exact .oom
      · split
        · exact .ok
        · exact .bind freePage_known fun _ => .oom

end Linux011.Mm
