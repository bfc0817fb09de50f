import Linux011.Proc.NewImage

/-!
# The tables of pointers to the strings

`create_tables` finds every string by scanning from the start of the first.
-/

namespace Linux011.Proc

open Linux011.Mm Bytes Coop

variable {layout : Layout} {nr : Nat} {exec : Exec} {around : Surroundings}

/-- A table of the addresses of strings that lie one behind the other from
`p` on, with a zero at its end. -/
def Table (memory : Nat → Option Byte) : Nat → Nat → List (List Byte) → Prop
  | table, _, [] => HoldsLong memory table 0
  | table, p, string :: rest =>
      HoldsLong memory table p ∧
        Table memory (table + 4) (p + string.length + 1) rest

theorem Table.kept {table p first last : Nat} {strings : List (List Byte)}
    {next : Exec} (isTable : Table (exec.sees layout nr) table p strings)
    (kept : Kept layout nr first last exec next)
    (apart : table + 4 * (strings.length + 1) ≤ first ∨ last ≤ table) :
    Table (next.sees layout nr) table p strings := by
  induction strings generalizing table p with
  | nil =>
      have four : (longBytes (BitVec.ofNat 32 0)).length = 4 := rfl
      refine kept.holds isTable ?_
      rw [List.length_nil] at apart
      omega
  | cons string rest induction =>
      have four : (longBytes (BitVec.ofNat 32 p)).length = 4 := rfl
      rw [List.length_cons] at apart
      exact ⟨kept.holds isTable.1 (by omega), induction isTable.2 (by omega)⟩

/-- The strings and their tables, and `argc`, `argv` and `envp` below them. -/
structure Tabled (memory : Nat → Option Byte) (p argv envp : Nat)
    (args env : List (List Byte)) : Prop where
  argc : HoldsLong memory (argv - 12) args.length
  argvPointer : HoldsLong memory (argv - 8) argv
  envpPointer : HoldsLong memory (argv - 4) envp
  argsTable : Table memory argv p args
  envTable : Table memory envp (p + (packed args).length) env
  strings : Holds memory p (packed args ++ packed env)

end Linux011.Proc
