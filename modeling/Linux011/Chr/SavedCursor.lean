import Linux011.Chr.ConsoleBounds

/-!
# The saved cursor

`ESC 7` and `ESC 8`.  The last two branches of the dispatcher look at the
column instead of the byte; where both say the same, what one saves the other
brings back.
-/

namespace Linux011.Chr

namespace Console

/-! ## What leaves the saved cursor alone -/

def saved (console : Console) : Nat × Nat := (console.savedX, console.savedY)

section Saved

variable {console : Console}

@[simp] theorem gotoxy_saved (newX newY : Nat) :
    (console.gotoxy newX newY).saved = console.saved := by
  unfold gotoxy
  split <;> rfl

@[simp] theorem scrup_saved : console.scrup.saved = console.saved := by
  unfold scrup
  split
  · split
    · dsimp only
      split <;> rfl
    · rfl
  · rfl

@[simp] theorem lf_saved : console.lf.saved = console.saved := by
  unfold lf
  split
  · rfl
  · exact scrup_saved

@[simp] theorem ri_saved : console.ri.saved = console.saved := by
  unfold ri
  split <;> rfl

@[simp] theorem bs_saved : console.bs.saved = console.saved := by
  unfold bs
  split <;> rfl

@[simp] theorem del_saved : console.del.saved = console.saved := by
  unfold del
  split <;> rfl

@[simp] theorem wrap_saved : console.wrap.saved = console.saved := lf_saved

@[simp] theorem print_saved (c : Nat) :
    (console.print c).saved = console.saved := by
  have start : (if console.x ≥ console.columns then console.wrap
      else console).saved = console.saved := by
    split
    · exact wrap_saved
    · rfl
  exact start

@[simp] theorem tab_saved : console.tab.saved = console.saved := by
  unfold tab
  dsimp only
  split
  · exact wrap_saved
  · rfl

@[simp] theorem csiJ_saved (par : Nat) :
    (console.csiJ par).saved = console.saved := by
  unfold csiJ
  dsimp only
  split
  · rfl
  split
  · rfl
  split <;> rfl

@[simp] theorem csiK_saved (par : Nat) :
    (console.csiK par).saved = console.saved := by
  unfold csiK
  dsimp only
  split
  · split <;> rfl
  split
  · rfl
  split <;> rfl

@[simp] theorem deleteChar_saved :
    console.deleteChar.saved = console.saved := by
  unfold deleteChar
  split <;> rfl

@[simp] theorem deleteLine_saved : console.deleteLine.saved = console.saved :=
  @scrup_saved { console with top := console.y, bottom := console.lines }

/-- What one turn of a loop leaves alone, the loop does. -/
theorem iterate_saved (operation : Console → Console)
    (keeps : ∀ console, (operation console).saved = console.saved)
    (count : Nat) : (operation^[count] console).saved = console.saved := by
  induction count generalizing console with
  | zero => rfl
  | succ count induction => exact induction.trans (keeps console)

@[simp] theorem csiAt_saved (nr : Nat) :
    (console.csiAt nr).saved = console.saved :=
  iterate_saved insertChar (fun _ => rfl) _

@[simp] theorem csiL_saved (nr : Nat) :
    (console.csiL nr).saved = console.saved :=
  iterate_saved insertLine (fun _ => rfl) _

@[simp] theorem csiP_saved (nr : Nat) :
    (console.csiP nr).saved = console.saved :=
  iterate_saved deleteChar (fun _ => deleteChar_saved) _

@[simp] theorem csiM_saved (nr : Nat) :
    (console.csiM nr).saved = console.saved :=
  iterate_saved deleteLine (fun _ => deleteLine_saved) _

@[simp] theorem csiSmallM_saved : console.csiSmallM.saved = console.saved :=
  rfl

@[simp] theorem atLeastOne_saved :
    console.atLeastOne.saved = console.saved := by
  unfold atLeastOne
  split <;> rfl

@[simp] theorem oneLess_saved (index : Nat) :
    (console.oneLess index).saved = console.saved := by
  unfold oneLess
  split <;> rfl

@[simp] theorem margins_saved : console.margins.saved = console.saved := by
  unfold margins
  dsimp only
  split
  · split <;> exact oneLess_saved 0
  · split <;> exact oneLess_saved 0

theorem plain_saved (eraseChar : Nat) (c : Int) :
    (console.plain eraseChar c).saved = console.saved := by
  unfold plain
  split
  · exact print_saved _
  split
  · rfl
  split
  · exact lf_saved
  split
  · rfl
  split
  · exact del_saved
  split
  · exact bs_saved
  split
  · exact tab_saved
  · rfl

end Saved

/-! ## Which byte saves the cursor -/

/-- `ESC 7` or `CSI s` is complete with this byte. -/
def Saves (console : Console) (byte : Nat) : Prop :=
  console.state = 1 ∧ signed byte = code '7' ∨
    2 ≤ console.state ∧ console.state ≤ 4 ∧ signed byte = code 's'

instance (console : Console) (byte : Nat) : Decidable (console.Saves byte) :=
  inferInstanceAs (Decidable (_ ∨ _))

/-- The byte after an `ESC` gets to the branches that look at the column. -/
def Late (console : Console) (byte : Nat) : Prop :=
  console.state = 1 ∧ signed byte ≠ code '[' ∧ signed byte ≠ code 'E' ∧
    signed byte ≠ code 'M' ∧ signed byte ≠ code 'D' ∧ signed byte ≠ code 'Z'

instance (console : Console) (byte : Nat) : Decidable (console.Late byte) :=
  inferInstanceAs (Decidable (_ ∧ _))

/-- The column saves where the byte is `7`, and only there, and restores where
the byte is `8`. -/
def Dispatches (console : Console) (byte : Nat) : Prop :=
  console.Late byte →
    (console.x = '7'.toNat ↔ signed byte = code '7') ∧
      (signed byte = code '8' → console.x = '8'.toNat)

instance (console : Console) (byte : Nat) :
    Decidable (console.Dispatches byte) :=
  inferInstanceAs (Decidable (_ → _))

section Steps

variable {console : Console} {eraseChar byte : Nat}

theorem ite_saved {test : Prop} [Decidable test] {yes no : Console}
    {saved : Nat × Nat} (isYes : test → yes.saved = saved)
    (isNo : ¬ test → no.saved = saved) :
    (if test then yes else no).saved = saved := by
  split
  · exact isYes ‹_›
  · exact isNo ‹_›

theorem command_saved {c : Int} (notSave : c ≠ code 's') :
    (console.command c).saved = console.saved := by
  unfold command
  refine ite_saved (fun _ => ?_) fun _ => ?_
  · exact (gotoxy_saved _ _).trans (oneLess_saved 0)
  refine ite_saved (fun _ => ?_) fun _ => ?_
  · exact (gotoxy_saved _ _).trans atLeastOne_saved
  refine ite_saved (fun _ => ?_) fun _ => ?_
  · exact (gotoxy_saved _ _).trans atLeastOne_saved
  refine ite_saved (fun _ => ?_) fun _ => ?_
  · exact (gotoxy_saved _ _).trans atLeastOne_saved
  refine ite_saved (fun _ => ?_) fun _ => ?_
  · exact (gotoxy_saved _ _).trans atLeastOne_saved
  refine ite_saved (fun _ => ?_) fun _ => ?_
  · exact (gotoxy_saved _ _).trans atLeastOne_saved
  refine ite_saved (fun _ => ?_) fun _ => ?_
  · exact (gotoxy_saved _ _).trans atLeastOne_saved
  refine ite_saved (fun _ => ?_) fun _ => ?_
  · exact (gotoxy_saved _ _).trans (oneLess_saved 0)
  refine ite_saved (fun _ => ?_) fun _ => ?_
  · exact (gotoxy_saved _ _).trans ((oneLess_saved 1).trans (oneLess_saved 0))
  refine ite_saved (fun _ => ?_) fun _ => ?_
  · exact csiJ_saved _
  refine ite_saved (fun _ => ?_) fun _ => ?_
  · exact csiK_saved _
  refine ite_saved (fun _ => ?_) fun _ => ?_
  · exact csiL_saved _
  refine ite_saved (fun _ => ?_) fun _ => ?_
  · exact csiM_saved _
  refine ite_saved (fun _ => ?_) fun _ => ?_
  · exact csiP_saved _
  refine ite_saved (fun _ => ?_) fun _ => ?_
  · exact csiAt_saved _
  refine ite_saved (fun _ => ?_) fun _ => ?_
  · exact csiSmallM_saved
  refine ite_saved (fun _ => ?_) fun _ => ?_
  · exact margins_saved
  refine ite_saved (fun isSave => absurd isSave notSave) fun _ => ?_
  refine ite_saved (fun _ => ?_) fun _ => ?_
  · exact gotoxy_saved _ _
  · rfl

theorem parameter_saved {c : Int} (notSave : c ≠ code 's') :
    (console.parameter c).saved = console.saved := by
  unfold parameter
  split
  · rfl
  split
  · rfl
  · exact command_saved notSave

theorem sequence_saved {c : Int} (notSave : c ≠ code 's') :
    (console.sequence c).saved = console.saved := by
  unfold sequence
  dsimp only
  split
  · rfl
  · exact parameter_saved notSave

theorem escape_saved {c : Int} (notSave : ¬ (c ≠ code '[' ∧ c ≠ code 'E' ∧
    c ≠ code 'M' ∧ c ≠ code 'D' ∧ c ≠ code 'Z' ∧ console.x = '7'.toNat)) :
    (console.escape c).saved = console.saved := by
  unfold escape
  split
  · rfl
  split
  · exact gotoxy_saved _ _
  split
  · exact ri_saved
  split
  · exact lf_saved
  split
  · rfl
  rename_i notCsi notNext notUp notDown notWho
  rw [if_neg fun column =>
    notSave ⟨notCsi, notNext, notUp, notDown, notWho, column⟩]
  split
  · exact gotoxy_saved _ _
  · rfl

/-- A byte that does not complete a save leaves the saved cursor alone, as
long as the column does not say otherwise. -/
theorem conByte_saved (notSave : ¬ console.Saves byte)
    (dispatches : console.Dispatches byte) :
    (console.conByte eraseChar byte).saved = console.saved := by
  unfold conByte
  dsimp only
  split <;> rename_i isState
  · exact plain_saved _ _
  · apply escape_saved
    rintro ⟨notCsi, notNext, notUp, notDown, notWho, column⟩
    have isSeven := (dispatches ⟨isState, notCsi, notNext, notUp, notDown,
      notWho⟩).1.mp column
    exact notSave (.inl ⟨isState, isSeven⟩)
  · apply sequence_saved
    exact fun isSave => notSave (.inr ⟨by omega, by omega, isSave⟩)
  · apply parameter_saved
    exact fun isSave => notSave (.inr ⟨by omega, by omega, isSave⟩)
  · apply command_saved
    exact fun isSave => notSave (.inr ⟨by omega, by omega, isSave⟩)
  · rfl

theorem escape_seven (column : console.x = '7'.toNat) :
    console.escape (code '7') = console.saveCur := by
  unfold escape
  rw [if_neg (by decide), if_neg (by decide), if_neg (by decide),
    if_neg (by decide), if_neg (by decide), if_pos column]

theorem escape_eight (column : console.x = '8'.toNat) :
    console.escape (code '8') = console.restoreCur := by
  have notSeven : ¬ console.x = '7'.toNat := by
    rw [column]
    decide
  unfold escape
  rw [if_neg (by decide), if_neg (by decide), if_neg (by decide),
    if_neg (by decide), if_neg (by decide), if_neg notSeven, if_pos column]

end Steps

/-! ## Streams of bytes -/

/-- The bytes of any number of calls of `con_write`, each with the
`ERASE_CHAR` of its call. -/
def conBytes (turns : List (Nat × Nat)) (console : Console) : Console :=
  turns.foldl (fun console turn => console.conByte turn.1 turn.2) console

/-- The condition is met before each byte. -/
def Along (holds : Console → Nat → Prop) : List (Nat × Nat) → Console → Prop
  | [], _ => True
  | turn :: rest, console =>
      holds console turn.2 ∧ Along holds rest (console.conByte turn.1 turn.2)

instance decidableAlong {holds : Console → Nat → Prop}
    [∀ console byte, Decidable (holds console byte)] :
    (turns : List (Nat × Nat)) → (console : Console) →
      Decidable (Along holds turns console)
  | [], _ => .isTrue trivial
  | turn :: rest, console =>
      @instDecidableAnd _ _ _
        (decidableAlong rest (console.conByte turn.1 turn.2))

section Streams

variable {console : Console} {turns more : List (Nat × Nat)}

theorem conBytes_append :
    console.conBytes (turns ++ more) = (console.conBytes turns).conBytes more :=
  List.foldl_append

theorem along_append {holds : Console → Nat → Prop} :
    Along holds (turns ++ more) console ↔
      Along holds turns console ∧ Along holds more (console.conBytes turns) := by
  induction turns generalizing console with
  | nil => exact (iff_of_eq (true_and _)).symm
  | cons turn rest induction =>
      show _ ∧ Along holds (rest ++ more) _ ↔ (_ ∧ _) ∧ _
      rw [induction, and_assoc]
      rfl

/-- A stream without saves leaves the saved cursor alone. -/
theorem conBytes_saved
    (notSaves : Along (fun console byte => ¬ console.Saves byte) turns console)
    (dispatches : Along Dispatches turns console) :
    (console.conBytes turns).saved = console.saved := by
  induction turns generalizing console with
  | nil => rfl
  | cons turn rest induction =>
      have here := @conByte_saved console turn.1 turn.2 notSaves.1 dispatches.1
      exact (induction notSaves.2 dispatches.2).trans here

theorem conBytes_inside {card : Card} (inside : Inside card console) :
    Inside card (console.conBytes turns) := by
  induction turns generalizing console with
  | nil => exact inside
  | cons turn rest induction =>
      exact induction
        ((inside_kept card).conByte turn.1 turn.2 ⟨rfl, inside⟩).2

end Streams

/-- An escape and a digit. -/
def escDigit (first second digit : Nat) : List (Nat × Nat) :=
  [(first, 27), (second, digit)]

theorem conByte_escape {console : Console} (between : console.state = 0)
    (eraseChar : Nat) :
    console.conByte eraseChar 27 = { console with state := 1 } := by
  unfold conByte
  rw [between]
  rfl

section Escapes

variable {console : Console} {first second : Nat}

theorem esc_seven (between : console.state = 0)
    (dispatches : Along Dispatches (escDigit first second 55) console) :
    (console.conBytes (escDigit first second 55)).saved =
      (console.x, console.y) := by
  unfold escDigit conBytes
  rw [List.foldl_cons, List.foldl_cons, List.foldl_nil]
  have later := dispatches.2.1
  dsimp only at later ⊢
  rw [conByte_escape between] at later ⊢
  have column : console.x = '7'.toNat :=
    (later ⟨rfl, by decide, by decide, by decide, by decide,
      by decide⟩).1.mpr rfl
  show (escape (code '7') { console with state := 0 }).saved = _
  rw [@escape_seven { console with state := 0 } column]
  rfl

theorem esc_eight {card : Card} (inside : Inside card console)
    (between : console.state = 0)
    (dispatches : Along Dispatches (escDigit first second 56) console)
    {x y : Nat} (isSaved : console.saved = (x, y)) (inLine : x ≤ card.columns)
    (line : y < card.lines) :
    (console.conBytes (escDigit first second 56)).x = x ∧
      (console.conBytes (escDigit first second 56)).y = y := by
  unfold escDigit conBytes
  rw [List.foldl_cons, List.foldl_cons, List.foldl_nil]
  have later := dispatches.2.1
  dsimp only at later ⊢
  rw [conByte_escape between] at later ⊢
  have column : console.x = '8'.toNat :=
    (later ⟨rfl, by decide, by decide, by decide, by decide, by decide⟩).2 rfl
  show (escape (code '8') { console with state := 0 }).x = _ ∧
    (escape (code '8') { console with state := 0 }).y = _
  rw [@escape_eight { console with state := 0 } column]
  unfold saved at isSaved
  rw [Prod.mk.injEq] at isSaved
  unfold restoreCur gotoxy
  dsimp only
  rw [isSaved.1, isSaved.2, if_neg]
  · exact ⟨rfl, rfl⟩
  · have isCard := inside.isCard
    rw [isCard]
    omega

end Escapes

/-- The streams of `con_write` that keep to one save: `ESC 7`, bytes that
end between escape sequences and save nothing, and `ESC 8`. -/
structure SavedOnce (console : Console) (before turns after : List (Nat × Nat)) :
    Prop where
  save : ∃ first second, before = escDigit first second 55
  notSaves : Along (fun console byte => ¬ console.Saves byte) turns
    (console.conBytes before)
  back : (console.conBytes (before ++ turns)).state = 0
  restore : ∃ first second, after = escDigit first second 56

/-- Where the column says what the byte says, `ESC 8` goes back to where
`ESC 7` was, and nothing but `ESC 7` and `CSI s` changes the saved cursor. -/
theorem escape_restores {card : Card} {console : Console}
    {before turns after : List (Nat × Nat)} (inside : Inside card console)
    (between : console.state = 0)
    (once : SavedOnce console before turns after)
    (dispatches : Along Dispatches (before ++ turns ++ after) console) :
    (console.conBytes (before ++ turns ++ after)).x = console.x ∧
      (console.conBytes (before ++ turns ++ after)).y = console.y ∧
      Placed (console.conBytes (before ++ turns ++ after)).toCursor ∧
      ∀ (other : Console) (bytes : List (Nat × Nat)),
        Along (fun console byte => ¬ console.Saves byte) bytes other →
          Along Dispatches bytes other →
            (other.conBytes bytes).saved = other.saved := by
  obtain ⟨⟨first, second, rfl⟩, notSaves, back, third, fourth, rfl⟩ := once
  rw [along_append, along_append] at dispatches
  obtain ⟨⟨toSave, toKeep⟩, toRestore⟩ := dispatches
  have isCard := inside.isCard
  have middle := @conBytes_inside console
    (escDigit first second 55 ++ turns) card inside
  have isSaved : (console.conBytes (escDigit first second 55 ++ turns)).saved =
      (console.x, console.y) := by
    rw [conBytes_append, conBytes_saved notSaves toKeep]
    exact esc_seven between toSave
  have inLine : console.x ≤ card.columns := by
    rw [← isCard]
    exact inside.inLine
  have line : console.y < card.lines := by
    rw [← isCard]
    exact inside.placed.line
  obtain ⟨isX, isY⟩ := esc_eight middle back toRestore isSaved inLine line
  rw [← conBytes_append] at isX isY
  refine ⟨isX, isY, (conBytes_inside inside).placed, ?_⟩
  exact fun other bytes saves follows => conBytes_saved saves follows

section Example

/-- A colour card of 80 columns with the cursor in the third line. -/
def thirdLine (column : Nat) : Console :=
  conInit ⟨column, 2, 0x5003, 3⟩ fun _ => 0

/-- A line feed and a character. -/
def nextLine : List (Nat × Nat) := [(127, 10), (127, 65)]

theorem escape_restores_column :
    ((thirdLine 55).conBytes (escDigit 127 127 55 ++ nextLine ++
      escDigit 127 127 56)).x = 55 ∧
    ((thirdLine 55).conBytes (escDigit 127 127 55 ++ nextLine ++
      escDigit 127 127 56)).y = 2 := by
  have once : SavedOnce (thirdLine 55) (escDigit 127 127 55) nextLine
      (escDigit 127 127 56) :=
    ⟨⟨_, _, rfl⟩, by decide +kernel, by decide +kernel, _, _, rfl⟩
  have inside : Inside egaSetup.card (thirdLine 55) :=
    @conInit_inside ⟨55, 2, 0x5003, 3⟩ _ (by decide) (by decide) (by decide)
  obtain ⟨isX, isY, _⟩ := escape_restores inside rfl once (by decide +kernel)
  exact ⟨isX, isY⟩

/-- In column 5 nothing is saved or restored, and in column 55 any byte
saves. -/
theorem escape_misdirected :
    Inside egaSetup.card (thirdLine 5) ∧ (thirdLine 5).state = 0 ∧
      SavedOnce (thirdLine 5) (escDigit 127 127 55) nextLine
        (escDigit 127 127 56) ∧
      ((thirdLine 5).conBytes (escDigit 127 127 55 ++ nextLine ++
        escDigit 127 127 56)).y = 3 ∧ (thirdLine 5).y = 2 ∧
      Along (fun console byte => ¬ console.Saves byte) [(127, 27), (127, 61)]
        (thirdLine 55) ∧
      ((thirdLine 55).conBytes [(127, 27), (127, 61)]).saved = (55, 2) ∧
      (thirdLine 55).saved = (0, 0) := by
  have inside : Inside egaSetup.card (thirdLine 5) :=
    @conInit_inside ⟨5, 2, 0x5003, 3⟩ _ (by decide) (by decide) (by decide)
  refine ⟨inside, rfl,
    ⟨⟨_, _, rfl⟩, by decide +kernel, by decide +kernel, _, _, rfl⟩, ?_, rfl,
    ?_, ?_, rfl⟩
  · decide +kernel
  · decide +kernel
  · decide +kernel

end Example

end Console

end Linux011.Chr
