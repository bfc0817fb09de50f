import Linux011.Library.Hoare
import Linux011.Mm.Messages
import Linux011.Proc.Exec

/-!
# What the helpers of do_execve leave alone

The helpers of `do_execve` work on memory and on the argument pages.  What
holds of task structures they keep, and the only one that can access
something beyond the argument pages is `copy_strings`.
-/

namespace Linux011.Proc

open Linux011.Mm Bytes Coop Prog

variable {nr : Nat} {around : Surroundings}

/-- The panic of an access beyond the argument pages. -/
def pastArea : String := "past the argument pages"

/-! ## Programs that access the segment -/

/-- A property of the programs that are put together from accesses to single
bytes of the segment. -/
structure Accesses (around : Surroundings) (nr : Nat)
    (good : (α : Type) → ExecProg α → Prop) : Prop where
  pure : ∀ {α : Type} (value : α), good α (Pure.pure value)
  bind : ∀ {α β : Type} {program : ExecProg β} {next : β → ExecProg α},
    good β program → (∀ value, good α (next value)) →
      good α (program >>= next)
  panic : ∀ {α : Type} (message : String), message ≠ pastArea →
    good α (Prog.panic message)
  gets : ∀ offset, good Byte (getFsByte around nr offset)
  puts : ∀ value offset, good Unit (putFsByte around nr value offset)

section Accesses

variable {good : (α : Type) → ExecProg α → Prop}

theorem putFsBytes_accesses (accesses : Accesses around nr good)
    {bytes : List Byte} {offset : Nat} :
    good Unit (putFsBytes around nr bytes offset) := by
  induction bytes generalizing offset with
  | nil => exact accesses.pure ()
  | cons byte rest induction =>
      exact accesses.bind (accesses.puts byte offset) fun _ => induction

theorem putFsLong_accesses (accesses : Accesses around nr good)
    {value offset : Nat} : good Unit (putFsLong around nr value offset) :=
  putFsBytes_accesses accesses

theorem skipString_accesses (accesses : Accesses around nr good)
    {rounds p : Nat} : good Nat (skipString around nr rounds p) := by
  induction rounds generalizing p with
  | zero => exact accesses.panic _ (by decide)
  | succ rounds induction =>
      unfold skipString
      apply accesses.bind (accesses.gets p)
      intro byte
      split
      · exact accesses.pure _
      · exact induction

theorem fillTable_accesses (accesses : Accesses around nr good)
    {count p table : Nat} :
    good Nat (fillTable around nr count p table) := by
  induction count generalizing p table with
  | zero =>
      exact accesses.bind (putFsLong_accesses accesses) fun _ =>
        accesses.pure p
  | succ count induction =>
      unfold fillTable
      apply accesses.bind (putFsLong_accesses accesses)
      intro _
      exact accesses.bind (skipString_accesses accesses) fun _ => induction

theorem createTables_accesses (accesses : Accesses around nr good) {p : Nat}
    {argc envc : Int} :
    good Nat (createTables around nr p argc envc) := by
  unfold createTables
  apply accesses.bind (putFsLong_accesses accesses)
  intro _
  apply accesses.bind (putFsLong_accesses accesses)
  intro _
  apply accesses.bind (putFsLong_accesses accesses)
  intro _
  apply accesses.bind (fillTable_accesses accesses)
  intro _
  exact accesses.bind (fillTable_accesses accesses) fun _ => accesses.pure _

theorem clearTail_accesses (accesses : Accesses around nr good)
    {rounds i : Nat} : good Unit (clearTail around nr rounds i) := by
  induction rounds generalizing i with
  | zero => exact accesses.pure ()
  | succ rounds induction =>
      unfold clearTail
      split
      · exact accesses.pure ()
      · exact accesses.bind (accesses.puts 0 i) fun _ => induction

end Accesses

/-! ## Assertions on task structures -/

/-- An assertion that only depends on task structures other tasks leave
alone, under a fate that allows every other panic. -/
structure Structural (fate : Fate) (env : Exec → Exec → Prop)
    (holds : Exec → Prop) : Prop where
  panics : ∀ message, message ≠ pastArea → fate.panic message
  sleeps : ∀ exec next, holds exec → env exec next → holds next
  memory : ∀ exec memory, holds exec → holds (exec.setMemory memory)
  page : ∀ exec i pag, holds exec → holds (exec.setPage i pag)

section Helpers

variable {fate : Fate} {env : Exec → Exec → Prop} {holds : Exec → Prop}

theorem settle_stays (structural : Structural fate env holds)
    {result : Except Fault Mm.State} (known : Known result) :
    Stays fate env holds (settle result) := by
  cases result with
  | ok memory => exact stays_modify fun exec => structural.memory exec memory
  | error fault =>
      cases fault with
      | panic message =>
          refine stays_panic (structural.panics message ?_)
          rintro rfl
          exact absurd (known _ rfl) (by decide)
      | oom memory =>
          exact stays_bind stays_cross fun _ =>
            stays_panic (structural.panics _ (by decide))

theorem myself_stays (structural : Structural fate env holds) :
    Stays fate env holds (myself nr) := by
  unfold myself
  apply stays_read
  intro exec
  split
  · exact stays_pure
  · exact stays_panic (structural.panics _ (by decide))

theorem loadPage_stays (structural : Structural fate env holds) {address : Nat} :
    Stays fate env holds (loadPage around nr address) := by
  unfold loadPage
  apply stays_read
  intro exec
  split
  · exact stays_pure
  · apply stays_bind (stays_sleep structural.sleeps)
    intro _
    apply stays_read
    intro awake
    split
    · exact stays_pure
    · exact stays_bind (myself_stays structural) fun _ =>
        settle_stays structural doNoPage_known

theorem getFsByte_stays (structural : Structural fate env holds) {offset : Nat} :
    Stays fate env holds (getFsByte around nr offset) := by
  unfold getFsByte
  apply stays_bind (myself_stays structural)
  intro p
  dsimp only
  split
  · apply stays_bind (loadPage_stays structural)
    intro _
    exact stays_read fun _ => stays_pure
  · exact stays_panic (structural.panics _ (by decide))

theorem putFsByte_stays (structural : Structural fate env holds) {value : Byte}
    {offset : Nat} :
    Stays fate env holds (putFsByte around nr value offset) := by
  unfold putFsByte
  apply stays_bind (myself_stays structural)
  intro p
  dsimp only
  split
  · apply stays_bind (loadPage_stays structural)
    intro _
    exact stays_modify fun exec => structural.memory exec _
  · exact stays_panic (structural.panics _ (by decide))

theorem Structural.accesses (structural : Structural fate env holds) :
    Accesses around nr fun _ program => Stays fate env holds program where
  pure := fun _ => stays_pure
  bind := stays_bind
  panic := fun message other => stays_panic (structural.panics message other)
  gets := fun _ => getFsByte_stays structural
  puts := fun _ _ => putFsByte_stays structural

theorem createTables_stays (structural : Structural fate env holds) {p : Nat}
    {argc envc : Int} :
    Stays fate env holds (createTables around nr p argc envc) :=
  createTables_accesses structural.accesses

theorem clearTail_stays (structural : Structural fate env holds)
    {rounds i : Nat} :
    Stays fate env holds (clearTail around nr rounds i) :=
  clearTail_accesses structural.accesses

theorem putArgPages_stays (structural : Structural fate env holds)
    {top i : Nat} :
    Stays fate env holds (putArgPages top i) := by
  induction i with
  | zero => exact stays_pure
  | succ i induction =>
      unfold putArgPages
      apply stays_read
      intro exec
      dsimp only
      split
      · exact induction
      · refine stays_bind (stays_modify fun state isHeld =>
          structural.page _ i none (structural.memory state _ isHeld)) ?_
        intro _
        split
        · exact stays_bind stays_cross fun _ => induction
        · exact induction

theorem freeArgPages_stays (structural : Structural fate env holds)
    {count : Nat} : Stays fate env holds (freeArgPages count) := by
  induction count with
  | zero => exact stays_pure
  | succ count induction =>
      unfold freeArgPages
      apply stays_bind induction
      intro _
      apply stays_read
      intro exec
      split
      · exact stays_pure
      · exact settle_stays structural freePage_known

end Helpers

/-! ## What examine finds -/

theorem examine_refused {p : TaskStruct} {inode : Program} {errno : Int}
    (isRefused : examine p inode = .refused errno) : errno ≠ 0 := by
  unfold examine at isRefused
  split at isRefused
  · cases isRefused
    decide
  · split at isRefused
    · cases isRefused
      decide
    · split at isRefused
      · cases isRefused
        decide
      · cases isRefused

theorem examine_readable {p : TaskStruct} {inode : Program}
    {euid egid : UInt16} {block : Nat → Byte}
    (isReadable : examine p inode = .readable euid egid block) :
    inode.block = some block := by
  unfold examine at isReadable
  split at isReadable
  · cases isReadable
  · split at isReadable
    · cases isReadable
    · split at isReadable <;> cases isReadable
      assumption

/-! ## The interpreter of a script -/

/-- The end of `interpret`, when all strings are copied. -/
def restart (around : Surroundings) (nr : Nat) (registers : Registers)
    (argc envc : Int) (p : Nat) (line : ScriptLine) :
    ExecProg (Int × Registers) :=
  if p = 0 then giveUp (-12) registers
  else do
    Prog.sleep
    match around.namei line.interpreter with
    | none => giveUp (-2) registers
    | some inode => do
        let task ← myself nr
        match examine task inode with
        | .refused errno => giveUpInode errno registers
        | .readable euid egid block => do
            Prog.sleep
            let ex := readHeader block
            if ex.refused inode.size then giveUpInode (-8) registers
            else
              launch around nr registers inode ex euid egid argc envc p

theorem interpret_eq {registers : Registers} {filename argv envp p : Nat}
    {argc envc : Int} {line : ScriptLine} :
    interpret around nr registers filename argv envp argc envc p line = (do
      let p ← copyStrings (argument around envp) envc p
      let p ← copyStrings (argument around (argv + 4)) (argc - 1) p
      let p ← copyStrings (fun _ => pointedString around filename) 1 p
      let p ← match line.argument with
        | none => pure p
        | some rest => copyStrings (fun _ => pure rest) 1 p
      let p ← copyStrings (fun _ => pure line.name) 1 p
      restart around nr registers
        (argc - 1 + 1 + (if line.argument.isSome then 1 else 0) + 1) envc p
        line) := rfl

end Linux011.Proc
