import Linux011.Print.Number

/-!
# Formatted printing

`skip_atoi` and `vsprintf`.  The format is a memory of bytes that ends with its
NUL; a read behind it fails.  What `va_arg` takes are words, and an address
stands for the string there.
-/

namespace Linux011.Print

open Bytes Linux011.Sched

/-- Ways for `vsprintf` not to return. -/
inductive Failure where
  | beyondFormat
  | beyondTmp
  | nullPointer
  | spent
  deriving DecidableEq

structure Arguments where
  word : Nat → BitVec 32
  string : BitVec 32 → List Byte

/-- `str`, `args` and what the conversion `n` has stored. -/
structure Output where
  str : List Byte
  taken : Nat
  counts : List (BitVec 32 × Int)

def Output.put (output : Output) (text : List Byte) : Output :=
  { output with str := output.str ++ text }

/-- `va_arg`. -/
def Output.take (output : Output) : Output :=
  { output with taken := output.taken + 1 }

def Arguments.next (arguments : Arguments) (output : Output) : BitVec 32 :=
  arguments.word output.taken

/-! ## Reading the format -/

/-- `*fmt`. -/
def peek (format : List Byte) (fmt : Nat) : Except Failure Byte :=
  match format[fmt]? with
  | none => .error .beyondFormat
  | some c => .ok c

/-- `is_digit`. -/
def isDigit (c : Byte) : Bool := ch '0' ≤ c ∧ c ≤ ch '9'

/-- `skip_atoi` from the value `i` on, with the pointer after it. -/
def skipAtoi (format : List Byte) :
    Nat → Nat → Int → Except Failure (Nat × Int)
  | 0, _, _ => .error .spent
  | fuel + 1, s, i => do
      let c ← peek format s
      if isDigit c then
        skipAtoi format fuel (s + 1) (long (i * 10 + c.toNat - 48))
      else .ok (s, i)

/-- The flag of a character of the first switch. -/
def flagBit (c : Byte) : Option (BitVec 32) :=
  if c = ch '-' then some left
  else if c = ch '+' then some plus
  else if c = ch ' ' then some space
  else if c = ch '#' then some special
  else if c = ch '0' then some zeropad
  else none

/-- `repeat:`, which also skips the first `%`. -/
def scanFlags (format : List Byte) :
    Nat → Nat → BitVec 32 → Except Failure (Nat × BitVec 32)
  | 0, _, _ => .error .spent
  | fuel + 1, fmt, flags => do
      let c ← peek format (fmt + 1)
      match flagBit c with
      | some bit => scanFlags format fuel (fmt + 1) (flags ||| bit)
      | none => .ok (fmt + 1, flags)

/-- `fmt`, `flags`, `field_width` and `precision` within a directive. -/
structure Scan where
  fmt : Nat
  flags : BitVec 32
  fieldWidth : Int
  precision : Int

/-- The field width.  An asterisk takes an argument and stays where it is. -/
def scanWidth (format : List Byte) (arguments : Arguments) (scan : Scan)
    (output : Output) : Except Failure (Scan × Output) := do
  let c ← peek format scan.fmt
  if isDigit c then
    let (fmt, value) ← skipAtoi format format.length scan.fmt 0
    .ok ({ scan with fmt, fieldWidth := value }, output)
  else if c = ch '*' then
    let value := (arguments.next output).toInt
    if value < 0 then
      .ok ({ scan with
          fieldWidth := long (-value)
          flags := scan.flags ||| left }, output.take)
    else .ok ({ scan with fieldWidth := value }, output.take)
  else .ok ({ scan with fieldWidth := -1 }, output)

def nonnegative (precision : Int) : Int :=
  if precision < 0 then 0 else precision

def scanPrecision (format : List Byte) (arguments : Arguments) (scan : Scan)
    (output : Output) : Except Failure (Scan × Output) := do
  let c ← peek format scan.fmt
  if c = ch '.' then
    let c ← peek format (scan.fmt + 1)
    if isDigit c then
      let (fmt, value) ← skipAtoi format format.length (scan.fmt + 1) 0
      .ok ({ scan with fmt, precision := nonnegative value }, output)
    else if c = ch '*' then
      let value := (arguments.next output).toInt
      .ok ({ scan with
          fmt := scan.fmt + 1
          precision := nonnegative value }, output.take)
    else
      .ok ({ scan with
          fmt := scan.fmt + 1
          precision := nonnegative (-1) }, output)
  else .ok ({ scan with precision := -1 }, output)

def isQualifier (c : Byte) : Bool := c = ch 'h' ∨ c = ch 'l' ∨ c = ch 'L'

/-- The qualifier, which is skipped and not used. -/
def scanQualifier (format : List Byte) (scan : Scan) : Except Failure Scan := do
  let c ← peek format scan.fmt
  if isQualifier c then .ok { scan with fmt := scan.fmt + 1 } else .ok scan

/-! ## Conversions -/

/-- `str = number(str, va_arg(args, unsigned long), ...)`. -/
def putNumber (arguments : Arguments) (scan : Scan) (base : Int)
    (flags : BitVec 32) (output : Output) : Except Failure Output :=
  match number (arguments.next output).toInt base scan.fieldWidth
      scan.precision flags with
  | .null => .error .nullPointer
  | .beyondTmp => .error .beyondTmp
  | .stored text => .ok (output.take.put text)

/-- At most `passes` passes of `while (--counter > 0) *str++ = ' ';`. -/
def countLoop : Nat → Int → List Byte × Int
  | 0, counter => ([], long (counter - 1))
  | passes + 1, counter =>
      if long (counter - 1) > 0 then
        let rest := countLoop passes (long (counter - 1))
        (ch ' ' :: rest.1, rest.2)
      else ([], long (counter - 1))

/-- `while (--counter > 0) *str++ = ' ';`, with the value of `counter` after
it. -/
def countDown (counter : Int) : List Byte × Int :=
  countLoop (long (counter - 1)).toNat counter

/-- `case 'c':`. -/
def putChar (arguments : Arguments) (scan : Scan) (output : Output) :
    Output :=
  let before :=
    if !has scan.flags left then countDown scan.fieldWidth
    else ([], scan.fieldWidth)
  output.take.put
    (before.1 ++ [(arguments.next output).setWidth 8] ++
      (countDown before.2).1)

/-- `case 's':`. -/
def putString (arguments : Arguments) (scan : Scan) (output : Output) :
    Output :=
  let s := arguments.string (arguments.next output)
  let length := long s.length
  let len :=
    if scan.precision < 0 then length
    else if length > scan.precision then scan.precision
    else length
  let before :=
    if !has scan.flags left then fillWhile (ch ' ') len scan.fieldWidth
    else ([], scan.fieldWidth)
  output.take.put
    (before.1 ++ s.take len.toNat ++ (fillWhile (ch ' ') len before.2).1)

/-- `case 'p':`. -/
def putPointer (arguments : Arguments) (scan : Scan) (output : Output) :
    Except Failure Output :=
  if scan.fieldWidth = -1 then
    putNumber arguments { scan with fieldWidth := 8 } 16
      (scan.flags ||| zeropad) output
  else putNumber arguments scan 16 scan.flags output

/-- `case 'n':`. -/
def putCount (arguments : Arguments) (output : Output) : Output :=
  { output.take with
    counts := output.counts ++
      [(arguments.next output, long output.str.length)] }

/-- The conversions that read an argument; `none` for the default case. -/
def convertArgument (arguments : Arguments) (c : Byte) (scan : Scan)
    (output : Output) : Option (Except Failure Output) :=
  if c = ch 'c' then some (.ok (putChar arguments scan output))
  else if c = ch 's' then some (.ok (putString arguments scan output))
  else if c = ch 'o' then
    some (putNumber arguments scan 8 scan.flags output)
  else if c = ch 'p' then some (putPointer arguments scan output)
  else if c = ch 'x' then
    some (putNumber arguments scan 16 (scan.flags ||| small) output)
  else if c = ch 'X' then
    some (putNumber arguments scan 16 scan.flags output)
  else if c = ch 'd' ∨ c = ch 'i' then
    some (putNumber arguments scan 10 (scan.flags ||| sign) output)
  else if c = ch 'u' then
    some (putNumber arguments scan 10 scan.flags output)
  else if c = ch 'n' then some (.ok (putCount arguments output))
  else none

/-- The second switch.  At the NUL the default case steps back, for the loop to
come to the NUL again. -/
def convert (format : List Byte) (arguments : Arguments) (scan : Scan)
    (output : Output) : Except Failure (Nat × Output) := do
  let c ← peek format scan.fmt
  match convertArgument arguments c scan output with
  | some result => do
      let output ← result
      .ok (scan.fmt, output)
  | none =>
      let output := if c ≠ ch '%' then output.put [ch '%'] else output
      if c ≠ 0 then .ok (scan.fmt, output.put [c])
      else .ok (scan.fmt - 1, output)

/-- What the loop does from a `%` on. -/
def directive (format : List Byte) (arguments : Arguments) (fmt : Nat)
    (output : Output) : Except Failure (Nat × Output) := do
  let (fmt, flags) ← scanFlags format format.length fmt 0
  let (scan, output) ← scanWidth format arguments
    { fmt, flags, fieldWidth := -1, precision := -1 } output
  let (scan, output) ← scanPrecision format arguments scan output
  let scan ← scanQualifier format scan
  convert format arguments scan output

/-- `for (str = buf; *fmt; ++fmt)`, at most `fuel` times. -/
def vsprintfLoop (format : List Byte) (arguments : Arguments) :
    Nat → Nat → Output → Except Failure Output
  | 0, _, _ => .error .spent
  | fuel + 1, fmt, output => do
      let c ← peek format fmt
      if c = 0 then .ok output
      else if c ≠ ch '%' then
        vsprintfLoop format arguments fuel (fmt + 1) (output.put [c])
      else
        let (fmt, output) ← directive format arguments fmt output
        vsprintfLoop format arguments fuel (fmt + 1) output

/-- The bytes of `buf` that are stored, and the returned int. -/
structure Printed where
  buf : List Byte
  returned : Int
  counts : List (BitVec 32 × Int)

def vsprintf (format : List Byte) (arguments : Arguments) :
    Except Failure Printed := do
  let output ← vsprintfLoop format arguments format.length 0 ⟨[], 0, []⟩
  .ok
    { buf := output.str ++ [0]
      returned := long output.str.length
      counts := output.counts }

/-! ## Scanning stays inside the format -/

/-- From the pointer on the format holds the characters and then its NUL. -/
def Rest (format : List Byte) (fmt : Nat) (text : List Byte) : Prop :=
  format.drop fmt = text ++ [0]

namespace Rest

variable {format : List Byte} {fmt : Nat} {c : Byte} {text : List Byte}

theorem peek (rest : Rest format fmt text) :
    peek format fmt = .ok (text.headD 0) := by
  have read : format[fmt]? = some (text.headD 0) := by
    rw [← List.head?_drop, rest]
    cases text <;> rfl
  unfold Print.peek
  rw [read]

theorem succ (rest : Rest format fmt (c :: text)) :
    Rest format (fmt + 1) text := by
  unfold Rest
  rw [← List.tail_drop, rest]
  rfl

theorem length_lt (rest : Rest format fmt text) :
    text.length < format.length := by
  have lengths := congrArg List.length rest
  rw [List.length_drop, List.length_append] at lengths
  simp at lengths
  omega

end Rest

theorem skipAtoi_succ {format : List Byte} {fuel s : Nat} {i : Int}
    {text : List Byte} (rest : Rest format s text) :
    skipAtoi format (fuel + 1) s i =
      if isDigit (text.headD 0) then
        skipAtoi format fuel (s + 1)
          (long (i * 10 + (text.headD 0).toNat - 48))
      else .ok (s, i) := by
  rw [skipAtoi, rest.peek]
  rfl

/-- The digits are skipped, and the NUL is no digit. -/
theorem skipAtoi_rest {format : List Byte} {fuel s : Nat} {i : Int}
    {text : List Byte} (rest : Rest format s text)
    (enough : text.length < fuel) :
    ∃ after value, skipAtoi format fuel s i = .ok (after, value) ∧
      Rest format after (text.dropWhile isDigit) := by
  induction text generalizing fuel s i with
  | nil =>
      obtain ⟨fuel, rfl⟩ := Nat.exists_eq_add_of_lt enough
      refine ⟨s, i, ?_, rest⟩
      rw [skipAtoi_succ rest, if_neg (by decide)]
  | cons c text induction =>
      obtain ⟨spare, rfl⟩ := Nat.exists_eq_add_of_lt enough
      rw [skipAtoi_succ rest, List.headD_cons]
      cases digit : isDigit c with
      | true =>
          rw [if_pos rfl, List.dropWhile_cons_of_pos digit]
          exact induction rest.succ (by rw [List.length_cons]; omega)
      | false =>
          rw [if_neg (by decide),
            List.dropWhile_cons_of_neg (by rw [digit]; decide)]
          exact ⟨s, i, rfl, rest⟩

/-- The characters of the first switch. -/
def isFlag (c : Byte) : Bool := (flagBit c).isSome

theorem scanFlags_succ {format : List Byte} {fuel fmt : Nat}
    {flags : BitVec 32} {text : List Byte}
    (rest : Rest format (fmt + 1) text) :
    scanFlags format (fuel + 1) fmt flags =
      match flagBit (text.headD 0) with
      | some bit => scanFlags format fuel (fmt + 1) (flags ||| bit)
      | none => .ok (fmt + 1, flags) := by
  rw [scanFlags, rest.peek]
  rfl

theorem scanFlags_rest {format : List Byte} {fuel fmt : Nat}
    {flags : BitVec 32} {text : List Byte}
    (rest : Rest format (fmt + 1) text) (enough : text.length < fuel) :
    ∃ after value, scanFlags format fuel fmt flags = .ok (after, value) ∧
      Rest format after (text.dropWhile isFlag) := by
  induction text generalizing fuel fmt flags with
  | nil =>
      obtain ⟨fuel, rfl⟩ := Nat.exists_eq_add_of_lt enough
      refine ⟨fmt + 1, flags, ?_, rest⟩
      rw [scanFlags_succ rest, show flagBit (List.headD [] 0) = none by decide]
  | cons c text induction =>
      obtain ⟨spare, rfl⟩ := Nat.exists_eq_add_of_lt enough
      rw [scanFlags_succ rest, List.headD_cons]
      cases bit : flagBit c with
      | some bit' =>
          have flag : isFlag c = true := by
            unfold isFlag
            rw [bit]
            rfl
          rw [List.dropWhile_cons_of_pos flag]
          exact induction rest.succ (by rw [List.length_cons]; omega)
      | none =>
          have noFlag : ¬ isFlag c = true := by
            unfold isFlag
            rw [bit]
            decide
          rw [List.dropWhile_cons_of_neg noFlag]
          exact ⟨fmt + 1, flags, rfl, rest⟩

/-! ## The extent of a directive -/

/-- What follows the precision. -/
def afterPrecision (text : List Byte) : List Byte :=
  if text.headD 0 = ch '.' then text.tail.dropWhile isDigit else text

def afterQualifier (text : List Byte) : List Byte :=
  if isQualifier (text.headD 0) then text.tail else text

/-- What follows the directive, from what follows its `%`: flags, width,
precision, qualifier and one more character are skipped as far as they are
there. -/
def afterDirective (text : List Byte) : List Byte :=
  (afterQualifier (afterPrecision
    ((text.dropWhile isFlag).dropWhile isDigit))).tail

/-- The output for the text: each directive is replaced by some characters and
every other character stands for itself. -/
inductive Formats : List Byte → List Byte → Prop where
  | done : Formats [] []
  | literal {c : Byte} {text output : List Byte} (plain : c ≠ ch '%')
      (rest : Formats text output) : Formats (c :: text) (c :: output)
  | conversion {text output : List Byte} (converted : List Byte)
      (rest : Formats (afterDirective text) output) :
      Formats (ch '%' :: text) (converted ++ output)

/-! ## The parts of a directive -/

theorem dropWhile_isDigit {text : List Byte}
    (noDigit : isDigit (text.headD 0) = false) :
    text.dropWhile isDigit = text := by
  cases text with
  | nil => rfl
  | cons c text =>
      rw [List.headD_cons] at noDigit
      exact List.dropWhile_cons_of_neg (by rw [noDigit]; decide)

theorem scanWidth_rest {format text : List Byte} {scan : Scan}
    (arguments : Arguments) (output : Output)
    (rest : Rest format scan.fmt text) :
    ∃ after output', scanWidth format arguments scan output =
        .ok (after, output') ∧
      Rest format after.fmt (text.dropWhile isDigit) ∧
      output'.str = output.str := by
  unfold scanWidth
  rw [rest.peek]
  show ∃ after output', (if isDigit (text.headD 0) then _ else _) = _ ∧ _
  cases digit : isDigit (text.headD 0) with
  | true =>
      obtain ⟨fmt, value, skipped, after⟩ :=
        skipAtoi_rest rest rest.length_lt
      rw [if_pos rfl, skipped]
      exact ⟨_, _, rfl, after, rfl⟩
  | false =>
      rw [if_neg (by decide), dropWhile_isDigit digit]
      split
      · dsimp only
        split
        · exact ⟨_, _, rfl, rest, rfl⟩
        · exact ⟨_, _, rfl, rest, rfl⟩
      · exact ⟨_, _, rfl, rest, rfl⟩

theorem scanPrecision_rest {format text : List Byte} {scan : Scan}
    (arguments : Arguments) (output : Output)
    (rest : Rest format scan.fmt text) :
    ∃ after output', scanPrecision format arguments scan output =
        .ok (after, output') ∧
      Rest format after.fmt (afterPrecision text) ∧
      output'.str = output.str := by
  unfold scanPrecision afterPrecision
  rw [rest.peek]
  show ∃ after output', (if text.headD 0 = ch '.' then _ else _) = _ ∧ _
  by_cases dot : text.headD 0 = ch '.'
  · rw [if_pos dot, if_pos dot]
    cases text with
    | nil => exact absurd dot (by decide)
    | cons c text =>
        have next := rest.succ
        rw [next.peek, List.tail_cons]
        show ∃ after output', (if isDigit (text.headD 0) then _ else _) = _ ∧ _
        cases digit : isDigit (text.headD 0) with
        | true =>
            obtain ⟨fmt, value, skipped, after⟩ :=
              skipAtoi_rest next next.length_lt
            rw [if_pos rfl, skipped]
            exact ⟨_, _, rfl, after, rfl⟩
        | false =>
            rw [if_neg (by decide), dropWhile_isDigit digit]
            split
            · exact ⟨_, _, rfl, next, rfl⟩
            · exact ⟨_, _, rfl, next, rfl⟩
  · rw [if_neg dot, if_neg dot]
    exact ⟨_, _, rfl, rest, rfl⟩

theorem scanQualifier_rest {format text : List Byte} {scan : Scan}
    (rest : Rest format scan.fmt text) :
    ∃ after, scanQualifier format scan = .ok after ∧
      Rest format after.fmt (afterQualifier text) := by
  unfold scanQualifier afterQualifier
  rw [rest.peek]
  show ∃ after, (if isQualifier (text.headD 0) then _ else _) = _ ∧ _
  by_cases qualifier : isQualifier (text.headD 0)
  · rw [if_pos qualifier, if_pos qualifier]
    cases text with
    | nil => exact absurd qualifier (by decide)
    | cons c text => exact ⟨_, rfl, rest.succ⟩
  · rw [if_neg qualifier, if_neg qualifier]
    exact ⟨_, rfl, rest⟩

/-! ## The conversion character -/

/-- The result is an output that adds characters to those stored so far. -/
def Extends (output : Output) (result : Except Failure Output) : Prop :=
  ∃ after text, result = .ok after ∧ after.str = output.str ++ text

theorem putNumber_extends {base : Int} (arguments : Arguments) (scan : Scan)
    (flags : BitVec 32) (output : Output) (least : 2 ≤ base)
    (greatest : base ≤ 36) :
    Extends output (putNumber arguments scan base flags output) := by
  have numLeast := (arguments.next output).le_toInt
  have numGreatest := (arguments.next output).toInt_lt
  obtain ⟨text, stored⟩ :=
    @number_stored (arguments.next output).toInt base (by omega) (by omega)
      least greatest scan.fieldWidth scan.precision flags
  unfold putNumber
  rw [stored]
  exact ⟨_, text, rfl, rfl⟩

theorem convertArgument_extends {arguments : Arguments} {c : Byte}
    {scan : Scan} {output : Output} {result : Except Failure Output}
    (converts : convertArgument arguments c scan output = some result) :
    Extends output result := by
  unfold convertArgument at converts
  repeat' split at converts
  all_goals cases converts
  · exact ⟨_, _, rfl, rfl⟩
  · exact ⟨_, _, rfl, rfl⟩
  · exact putNumber_extends arguments scan _ output (by decide) (by decide)
  · unfold putPointer
    split
    · exact putNumber_extends arguments _ _ output (by decide) (by decide)
    · exact putNumber_extends arguments scan _ output (by decide) (by decide)
  · exact putNumber_extends arguments scan _ output (by decide) (by decide)
  · exact putNumber_extends arguments scan _ output (by decide) (by decide)
  · exact putNumber_extends arguments scan _ output (by decide) (by decide)
  · exact putNumber_extends arguments scan _ output (by decide) (by decide)
  · exact ⟨_, [], rfl, (List.append_nil _).symm⟩

/-- The second switch, once the character is read. -/
theorem convert_eq {format text : List Byte} {scan : Scan}
    (arguments : Arguments) (output : Output)
    (rest : Rest format scan.fmt text) :
    convert format arguments scan output =
      match convertArgument arguments (text.headD 0) scan output with
      | some result => result.map fun output => (scan.fmt, output)
      | none =>
          let output :=
            if text.headD 0 ≠ ch '%' then output.put [ch '%'] else output
          if text.headD 0 ≠ 0 then
            .ok (scan.fmt, output.put [text.headD 0])
          else .ok (scan.fmt - 1, output) := by
  unfold convert
  rw [rest.peek]
  show (match convertArgument arguments (text.headD 0) scan output with
    | some result => _
    | none => _) = _
  cases convertArgument arguments (text.headD 0) scan output with
  | some result => cases result <;> rfl
  | none => rfl

theorem convert_rest {format text : List Byte} {scan : Scan}
    {arguments : Arguments} {output : Output}
    (rest : Rest format scan.fmt text) (later : 0 < scan.fmt)
    (noNul : ∀ c ∈ text, c ≠ 0) :
    ∃ fmt after more, convert format arguments scan output =
        .ok (fmt, after) ∧
      Rest format (fmt + 1) text.tail ∧ after.str = output.str ++ more := by
  rw [convert_eq arguments output rest]
  cases text with
  | nil =>
      have back : scan.fmt - 1 + 1 = scan.fmt := by omega
      refine ⟨scan.fmt - 1, output.put [ch '%'], [ch '%'], rfl, ?_, rfl⟩
      rw [back]
      exact rest
  | cons c text =>
      have nonzero : c ≠ 0 := noNul c List.mem_cons_self
      rw [List.headD_cons]
      cases converts : convertArgument arguments c scan output with
      | some result =>
          obtain ⟨after, more, same, str⟩ := convertArgument_extends converts
          subst same
          exact ⟨scan.fmt, after, more, rfl, rest.succ, str⟩
      | none =>
          dsimp only
          rw [if_pos nonzero]
          split
          · exact ⟨_, _, [ch '%', c], rfl, rest.succ, List.append_assoc _ _ _⟩
          · exact ⟨_, _, [c], rfl, rest.succ, rfl⟩

/-! ## The directive and the whole format -/

theorem Rest.pos_of_lt {format text more : List Byte} {fmt after : Nat}
    (rest : Rest format fmt text) (later : Rest format after more)
    (shorter : more.length < text.length) : 0 < after := by
  have first := congrArg List.length rest
  have second := congrArg List.length later
  rw [List.length_drop, List.length_append] at first second
  omega

theorem afterPrecision_suffix (text : List Byte) :
    afterPrecision text <:+ text := by
  unfold afterPrecision
  split
  · exact (List.dropWhile_suffix isDigit).trans (List.tail_suffix text)
  · exact List.suffix_refl text

theorem afterQualifier_suffix (text : List Byte) :
    afterQualifier text <:+ text := by
  unfold afterQualifier
  split
  · exact List.tail_suffix text
  · exact List.suffix_refl text

/-- What precedes the conversion character is skipped. -/
theorem beforeConversion_suffix (text : List Byte) :
    afterQualifier (afterPrecision
      ((text.dropWhile isFlag).dropWhile isDigit)) <:+ text :=
  (afterQualifier_suffix _).trans ((afterPrecision_suffix _).trans
    ((List.dropWhile_suffix isDigit).trans (List.dropWhile_suffix isFlag)))

theorem afterDirective_suffix (text : List Byte) :
    afterDirective text <:+ text :=
  (List.tail_suffix _).trans (beforeConversion_suffix text)

/-- From a `%` on the code scans to the end of the directive, also where the
format ends within it. -/
theorem directive_rest {format text : List Byte} {fmt : Nat}
    (arguments : Arguments) (output : Output)
    (rest : Rest format fmt (ch '%' :: text)) (noNul : ∀ c ∈ text, c ≠ 0) :
    ∃ last after more, directive format arguments fmt output =
        .ok (last, after) ∧
      Rest format (last + 1) (afterDirective text) ∧
      after.str = output.str ++ more := by
  obtain ⟨afterFlags, flags, scanned, flagsRest⟩ :=
    @scanFlags_rest format format.length fmt 0 text rest.succ
      rest.succ.length_lt
  obtain ⟨widthScan, widthOutput, widthScanned, widthRest, widthStr⟩ :=
    @scanWidth_rest format _ ⟨afterFlags, flags, -1, -1⟩ arguments output
      flagsRest
  obtain ⟨precisionScan, precisionOutput, precisionScanned, precisionRest,
    precisionStr⟩ := scanPrecision_rest arguments widthOutput widthRest
  obtain ⟨scan, qualifierScanned, qualifierRest⟩ :=
    scanQualifier_rest precisionRest
  have suffix := beforeConversion_suffix text
  have later : 0 < scan.fmt :=
    rest.pos_of_lt qualifierRest (Nat.lt_succ_of_le suffix.length_le)
  obtain ⟨last, after, more, converted, lastRest, str⟩ :=
    @convert_rest format _ scan arguments precisionOutput qualifierRest later
      fun c member => noNul c (suffix.mem member)
  refine ⟨last, after, more, ?_, lastRest, ?_⟩
  · unfold directive
    rw [scanned]
    show (scanWidth format arguments ⟨afterFlags, flags, -1, -1⟩ output).bind
      _ = _
    rw [widthScanned]
    show (scanPrecision format arguments widthScan widthOutput).bind _ = _
    rw [precisionScanned]
    show (scanQualifier format precisionScan).bind _ = _
    rw [qualifierScanned]
    exact converted
  · rw [str, precisionStr, widthStr]

theorem vsprintfLoop_eq {format text : List Byte} {fmt fuel : Nat}
    (arguments : Arguments) (output : Output) (rest : Rest format fmt text) :
    vsprintfLoop format arguments (fuel + 1) fmt output =
      if text.headD 0 = 0 then .ok output
      else if text.headD 0 ≠ ch '%' then
        vsprintfLoop format arguments fuel (fmt + 1)
          (output.put [text.headD 0])
      else
        (directive format arguments fmt output).bind fun result =>
          vsprintfLoop format arguments fuel (result.1 + 1) result.2 := by
  rw [vsprintfLoop, rest.peek]
  rfl

/-- By induction on the passes: each one takes at least one character of what
remains, and the output continues as `Formats` says. -/
theorem vsprintfLoop_formats {format text : List Byte} {fmt fuel : Nat}
    (arguments : Arguments) (output : Output) (rest : Rest format fmt text)
    (noNul : ∀ c ∈ text, c ≠ 0) (enough : text.length < fuel) :
    ∃ after more, vsprintfLoop format arguments fuel fmt output = .ok after ∧
      after.str = output.str ++ more ∧ Formats text more := by
  induction fuel generalizing fmt text output with
  | zero => omega
  | succ fuel induction =>
      rw [vsprintfLoop_eq arguments output rest]
      cases text with
      | nil => exact ⟨output, [], rfl, (List.append_nil _).symm, .done⟩
      | cons c text =>
          have nonzero : c ≠ 0 := noNul c List.mem_cons_self
          have laterNoNul : ∀ c ∈ text, c ≠ 0 := fun c member =>
            noNul c (List.mem_cons_of_mem _ member)
          have shorter : text.length < fuel := by
            rw [List.length_cons] at enough
            omega
          rw [List.headD_cons, if_neg nonzero]
          by_cases plain : c = ch '%'
          · subst plain
            obtain ⟨last, next, converted, scanned, lastRest, nextStr⟩ :=
              directive_rest arguments output rest laterNoNul
            have suffix := afterDirective_suffix text
            obtain ⟨after, more, loop, str, formats⟩ :=
              induction next lastRest
                (fun c member => laterNoNul c (suffix.mem member))
                (lt_of_le_of_lt suffix.length_le shorter)
            rw [if_neg (not_not_intro rfl), scanned]
            refine ⟨after, converted ++ more, loop, ?_,
              .conversion converted formats⟩
            rw [str, nextStr, List.append_assoc]
          · obtain ⟨after, more, loop, str, formats⟩ :=
              induction (output.put [c]) rest.succ laterNoNul shorter
            rw [if_pos plain]
            refine ⟨after, c :: more, loop, ?_, .literal plain formats⟩
            rw [str]
            exact List.append_assoc _ _ _

/-- The format is never read behind its NUL, the call returns, a NUL follows
the characters it has stored and the returned int is their number, which the
int can hold if there are less than `2^31`. -/
theorem vsprintf_formats (text : List Byte) (arguments : Arguments)
    (noNul : ∀ c ∈ text, c ≠ 0) :
    ∃ printed characters,
      vsprintf (text ++ [0]) arguments = .ok printed ∧
      printed.buf = characters ++ [0] ∧
      Formats text characters ∧
      printed.returned = long characters.length ∧
      (characters.length < 2147483648 →
        printed.returned = characters.length) := by
  have start : Rest (text ++ [0]) 0 text := rfl
  obtain ⟨after, characters, loop, str, formats⟩ :=
    vsprintfLoop_formats arguments ⟨[], 0, []⟩ start noNul start.length_lt
  have stored : after.str = characters := str
  have fits : characters.length < 2147483648 →
      long characters.length = characters.length := fun short =>
    long_of_fits (by omega) (by omega)
  refine ⟨⟨characters ++ [0], long characters.length, after.counts⟩,
    characters, ?_, by dsimp only, formats, by dsimp only, ?_⟩
  · unfold vsprintf
    rw [loop, ← stored]
    rfl
  · dsimp only
    exact fits

/-- No strings, and every number is 7. -/
def sevens : Arguments where
  word := fun _ => 7
  string := fun _ => []

/-- A format that ends within a field width. -/
theorem vsprintf_unfinished :
    ∃ printed characters,
      vsprintf ([ch 'a', ch '%', ch '-', ch '5'] ++ [0]) sevens =
        .ok printed ∧
      printed.buf = characters ++ [0] ∧
      Formats [ch 'a', ch '%', ch '-', ch '5'] characters := by
  obtain ⟨printed, characters, returns, buf, formats, -⟩ :=
    vsprintf_formats [ch 'a', ch '%', ch '-', ch '5'] sevens (by decide)
  exact ⟨printed, characters, returns, buf, formats⟩

/-! ## More characters than an int counts -/

theorem putString_whole {arguments : Arguments} {fmt : Nat} {output : Output}
    {s : List Byte} (string : arguments.string (arguments.next output) = s)
    (short : s.length < 2147483648) :
    putString arguments ⟨fmt, 0, -1, -1⟩ output = output.take.put s := by
  have length : long s.length = s.length := long_of_fits (by omega) (by omega)
  have first : fillWhile (ch ' ') s.length (-1) = ([], -2) := by
    rw [fillWhile_eq (ch ' ') (by omega) (by decide), if_neg (by omega)]
    rfl
  have second : fillWhile (ch ' ') s.length (-2) = ([], -3) := by
    rw [fillWhile_eq (ch ' ') (by omega) (by decide), if_neg (by omega)]
    rfl
  have noLeft : (!has 0 left) = true := by decide
  unfold putString
  simp only [string, length, noLeft, if_true]
  rw [if_pos (by decide), Int.toNat_natCast, List.take_length, first]
  dsimp only
  rw [second, List.nil_append, List.append_nil]

theorem vsprintf_two_strings {arguments : Arguments} {s : List Byte}
    (first : arguments.string (arguments.word 0) = s)
    (second : arguments.string (arguments.word 1) = s)
    (short : s.length < 2147483648) :
    vsprintf [ch '%', ch 's', ch '%', ch 's', 0] arguments =
      .ok ⟨s ++ s ++ [0], long (s ++ s).length, []⟩ := by
  let format := [ch '%', ch 's', ch '%', ch 's', 0]
  have directives (output : Output) :
      directive format arguments 0 output =
          .ok (1, putString arguments ⟨1, 0, -1, -1⟩ output) ∧
        directive format arguments 2 output =
          .ok (3, putString arguments ⟨3, 0, -1, -1⟩ output) :=
    ⟨rfl, rfl⟩
  have atFirst : Rest format 0 [ch '%', ch 's', ch '%', ch 's'] := rfl
  have atSecond : Rest format 2 [ch '%', ch 's'] := rfl
  have atEnd : Rest format 4 [] := rfl
  have loop : vsprintfLoop format arguments 5 0 ⟨[], 0, []⟩ =
      .ok ⟨[] ++ s ++ s, 2, []⟩ := by
    rw [vsprintfLoop_eq arguments _ atFirst, if_neg (by decide),
      if_neg (by decide), (directives _).1, putString_whole first short]
    show vsprintfLoop format arguments 4 2 ⟨[] ++ s, 1, []⟩ = _
    rw [vsprintfLoop_eq arguments _ atSecond, if_neg (by decide),
      if_neg (by decide), (directives _).2, putString_whole second short]
    show vsprintfLoop format arguments 3 4 ⟨[] ++ s ++ s, 2, []⟩ = _
    rw [vsprintfLoop_eq arguments _ atEnd, if_pos (by decide)]
  unfold vsprintf
  show (vsprintfLoop format arguments 5 0 ⟨[], 0, []⟩).bind _ = _
  rw [loop]
  rfl

theorem vsprintf_long_strings {arguments : Arguments} {s : List Byte}
    (strings : ∀ address, arguments.string address = s)
    (length : s.length = 1073741824) :
    ∃ printed, vsprintf [ch '%', ch 's', ch '%', ch 's', 0] arguments =
        .ok printed ∧
      printed.buf.length = 2147483648 + 1 ∧
      printed.returned = -2147483648 := by
  have short : s.length < 2147483648 := by omega
  refine ⟨_, vsprintf_two_strings (strings _) (strings _) short, ?_, ?_⟩
  · dsimp only
    rw [List.length_append, List.length_append, length]
    rfl
  · dsimp only
    rw [List.length_append, length]
    decide

/-- Every argument is a string of a gigabyte. -/
def gigabytes : Arguments where
  word := fun _ => 0
  string := fun _ => List.replicate 1073741824 (ch 'a')

/-- Two such strings are more characters than the returned int can count. -/
theorem vsprintf_wraps :
    ∃ printed, vsprintf [ch '%', ch 's', ch '%', ch 's', 0] gigabytes =
        .ok printed ∧
      printed.buf.length = 2147483648 + 1 ∧
      printed.returned = -2147483648 :=
  @vsprintf_long_strings gigabytes (List.replicate 1073741824 (ch 'a'))
    (fun _ => rfl) List.length_replicate

end Linux011.Print
