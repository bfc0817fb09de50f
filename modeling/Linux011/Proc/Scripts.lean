import Linux011.Proc.ArgumentLimit
import Mathlib.Data.List.TakeWhile

/-!
# What a script hands to its interpreter

`do_execve` counts the arguments of a script by one decrement and two or three
increments.  The count is that of the strings `copy_strings` has copied if the
caller gave at least one argument; if not, it is one less.
-/

namespace Linux011.Proc

open Linux011.Mm Bytes Coop

variable {layout : Layout} {nr : Nat} {exec next : Exec} {p : Nat}
  {around : Surroundings} {registers : Registers}
  {filename argv envp : Nat} {name : List Byte} {args env : List (List Byte)}
  {line : ScriptLine} {block : Nat → Byte} {inode : Program}

/-! ## The first line -/

/-- The arguments of the interpreter: the name of the interpreter, what
follows it in the line, the name of the script, and all but the first of the
caller's. -/
def scriptArguments (name : List Byte) (line : ScriptLine)
    (args : List (List Byte)) : List (List Byte) :=
  line.name :: (line.argument.toList ++ name :: args.tail)

section Copying

variable {content : List Byte}

end Copying

/-- The interpreter of the line is a program with sizes that add up. -/
def Interpreted (around : Surroundings) (line : ScriptLine) : Prop :=
  ∀ inode block, around.namei line.interpreter = some inode →
    inode.block = some block → (readHeader block).Fits

/-- A script the caller may execute, with strings that fit. -/
structure Script (around : Surroundings) (registers : Registers)
    (filename argv envp : Nat) (inode : Program) (name : List Byte)
    (line : ScriptLine) (args env : List (List Byte)) : Prop where
  fromUser : registers.cs &&& 0xffff = 0xf
  isName : StringAt around filename name
  notNull : filename ≠ 0
  isInode : around.namei name = some inode
  regular : inode.mode &&& 0o170000 = 0o100000
  isScript : ∃ block, inode.block = some block ∧
    (block 0 = 35 ∧ block 1 = 33) ∧ scriptLine block = some line
  isArgv : VectorAt around argv args
  isEnvp : VectorAt around envp env
  fits : (packed (scriptArguments name line args)).length +
    (packed env).length ≤ 131068
  interpreted : Interpreted around line

section Example

end Example

end Linux011.Proc
