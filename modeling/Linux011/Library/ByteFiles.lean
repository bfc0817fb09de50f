import Mathlib.Tactic.Common

/-!
# Files as bytes

A file is its size and a byte at every place.  A write may begin anywhere; what
it leaves out between the old end and its first byte reads as it did before,
and so do all other places.
-/

namespace ByteFiles

@[ext] structure ByteFile where
  size : Nat
  byte : Nat → UInt8

namespace ByteFile

/-- A file of no bytes. -/
def empty : ByteFile where
  size := 0
  byte _ := 0

variable (file : ByteFile)

/-- The first `count` bytes of `buf` are stored from `place` on. -/
def write (place count : Nat) (buf : Nat → UInt8) : ByteFile where
  size := if count = 0 then file.size else max file.size (place + count)
  byte other :=
    if place ≤ other ∧ other < place + count then buf (other - place)
    else file.byte other

/-- `count` bytes from `place` on. -/
def bytes (place count : Nat) : List UInt8 :=
  (List.range count).map fun offset => file.byte (place + offset)

/-- What can be read there: at most `count` bytes, and none behind the end. -/
def read (place count : Nat) : List UInt8 :=
  file.bytes place (min count (file.size - place))

variable {file} {place : Nat} {buf : Nat → UInt8}

@[simp] theorem length_bytes (count : Nat) :
    (file.bytes place count).length = count := by
  simp [bytes]

@[simp] theorem write_none : file.write place 0 buf = file := by
  refine ByteFile.ext rfl (funext fun other => ?_)
  exact if_neg (by omega)

/-- Two writes one behind the other. -/
theorem write_write (first second : Nat) :
    (file.write place first buf).write (place + first) second
        (fun offset => buf (first + offset)) =
      file.write place (first + second) buf := by
  refine ByteFile.ext ?_ (funext fun other => ?_)
  · show (if second = 0 then (if first = 0 then _ else _) else
      max (if first = 0 then _ else _) _) = if first + second = 0 then _ else _
    split <;> split <;> split <;> omega
  · show (if place + first ≤ other ∧ other < place + first + second then
        buf (first + (other - (place + first)))
      else if place ≤ other ∧ other < place + first then buf (other - place)
      else file.byte other) =
      if place ≤ other ∧ other < place + (first + second) then
        buf (other - place)
      else file.byte other
    by_cases inSecond : place + first ≤ other ∧ other < place + first + second
    · rw [if_pos inSecond, if_pos (by omega)]
      congr 1
      omega
    · rw [if_neg inSecond]
      by_cases inFirst : place ≤ other ∧ other < place + first
      · rw [if_pos inFirst, if_pos (by omega)]
      · rw [if_neg inFirst, if_neg (by omega)]

/-- Two pieces one behind the other. -/
theorem bytes_append (first second : Nat) :
    file.bytes place first ++ file.bytes (place + first) second =
      file.bytes place (first + second) := by
  unfold bytes
  rw [List.range_add, List.map_append, List.map_map]
  refine congrArg (_ ++ ·) (List.map_congr_left fun offset _ => ?_)
  exact congrArg file.byte (Nat.add_assoc place first offset)

end ByteFile

/-- One of many files is changed. -/
def onFile (index : Nat) (change : ByteFile → ByteFile) (other : Nat)
    (file : ByteFile) : ByteFile :=
  if other = index then change file else file

section OnFile

variable {index other : Nat} {file : ByteFile} {first second : ByteFile → ByteFile}

@[simp] theorem onFile_own : onFile index first index file = first file :=
  if_pos rfl

theorem onFile_other (different : other ≠ index) :
    onFile index first other file = file := if_neg different

theorem onFile_onFile : onFile index second other (onFile index first other file) =
    onFile index (fun file => second (first file)) other file := by
  unfold onFile
  split <;> rfl

theorem onFile_same (same : ∀ file, first file = file) :
    onFile index first other file = file := by
  unfold onFile
  split
  · exact same file
  · rfl

end OnFile

end ByteFiles
