import Linux011.Chr.Console

/-!
# What a byte does to the console

The cursor is where `x` and `y` say.  What every operation keeps is kept by
every byte.
-/

namespace Linux011.Chr

open StringMoves

/-! ## The place of the cursor -/

/-- `pos` and `scr_end` are what `origin`, `x` and `y` make them, and the
screen is inside the address space, also when it is one line further down. -/
structure Placed (cursor : Cursor) : Prop where
  region : cursor.top < cursor.bottom
  inScreen : cursor.bottom ≤ cursor.lines
  line : cursor.y < cursor.lines
  pos : cursor.pos =
    (cursor.origin + cursor.y * cursor.sizeRow + 2 * cursor.x) % 2 ^ 32
  scrEnd : cursor.scrEnd = cursor.origin + cursor.lines * cursor.sizeRow
  above : cursor.memStart ≤ cursor.origin
  room : cursor.scrEnd + cursor.sizeRow < 2 ^ 32
  ends : cursor.memEnd + cursor.sizeRow < 2 ^ 32
  starts : cursor.memStart + cursor.lines * cursor.sizeRow + cursor.sizeRow <
    2 ^ 32
  fewLines : cursor.lines < 2 ^ 32

namespace Placed

open Console

variable {console : Console}

theorem plus_y (placed : Placed console.toCursor) :
    plus console.y 1 = console.y + 1 := by
  have line := placed.line
  have few := placed.fewLines
  unfold plus
  omega

theorem gotoxy {newX newY : Nat} (placed : Placed console.toCursor) :
    Placed (console.gotoxy newX newY).toCursor := by
  unfold Console.gotoxy
  split
  · exact placed
  · rename_i inside
    exact { placed with
      line := by
        dsimp only
        omega
      pos := rfl }

theorem scrup (placed : Placed console.toCursor) :
    Placed console.scrup.toCursor := by
  have isEnd := placed.scrEnd
  have isPos := placed.pos
  have above := placed.above
  have room := placed.room
  have ends := placed.ends
  have starts := placed.starts
  unfold Console.scrup
  split
  · split
    · dsimp only
      split
      · -- the screen wraps to the start of video memory
        exact { placed with
          pos := by
            dsimp only [plus, minus] at *
            omega
          scrEnd := by
            dsimp only [plus, minus] at *
            omega
          above := Nat.le_refl _
          room := by
            dsimp only [plus, minus] at *
            omega }
      · exact { placed with
          pos := by
            dsimp only [plus] at *
            omega
          scrEnd := by
            dsimp only [plus] at *
            omega
          above := by
            dsimp only [plus] at *
            omega
          room := by
            dsimp only [plus] at *
            omega }
    · exact placed
  · exact placed

theorem scrdown (placed : Placed console.toCursor) :
    Placed console.scrdown.toCursor := placed

theorem lf (placed : Placed console.toCursor) :
    Placed console.lf.toCursor := by
  unfold Console.lf
  rw [placed.plus_y]
  split
  · have isPos := placed.pos
    have inScreen := placed.inScreen
    exact { placed with
      line := by
        dsimp only
        omega
      pos := by
        dsimp only [plus] at *
        rw [Nat.add_mul, Nat.one_mul]
        omega }
  · exact placed.scrup

theorem minus_y (placed : Placed console.toCursor)
    (below : console.top < console.y) : minus console.y 1 + 1 = console.y := by
  have line := placed.line
  have few := placed.fewLines
  unfold minus
  omega

theorem ri (placed : Placed console.toCursor) :
    Placed console.ri.toCursor := by
  unfold Console.ri
  split
  · rename_i below
    have isPos := placed.pos
    have line := placed.line
    have isLine := placed.minus_y below
    have shifted : console.y * console.sizeRow =
        minus console.y 1 * console.sizeRow + console.sizeRow := by
      rw [← isLine, Nat.add_mul, Nat.one_mul, isLine]
    have few := placed.room
    exact { placed with
      line := by
        dsimp only
        omega
      pos := by
        dsimp only
        rw [isPos, shifted]
        unfold minus
        omega }
  · exact placed.scrdown

theorem cr (placed : Placed console.toCursor) :
    Placed console.cr.toCursor := by
  have isPos := placed.pos
  exact { placed with
    pos := by
      dsimp only [Console.cr, minus]
      omega }

theorem pos_left (origin line x columns : Nat) :
    minus ((origin + line + 2 * x) % 2 ^ 32) (columns * 2) =
      (origin + line + 2 * minus x columns) % 2 ^ 32 := by
  unfold minus
  omega

theorem bs (placed : Placed console.toCursor) :
    Placed console.bs.toCursor := by
  have isPos := pos_left console.origin (console.y * console.sizeRow)
    console.x 1
  rw [← placed.pos, Nat.one_mul] at isPos
  unfold Console.bs
  split
  · exact { placed with pos := isPos }
  · exact placed

theorem passed (placed : Placed console.toCursor) :
    Placed { console with
      x := minus console.x console.columns
      pos := minus console.pos console.sizeRow }.toCursor := by
  have isPos := pos_left console.origin (console.y * console.sizeRow)
    console.x console.columns
  rw [← placed.pos] at isPos
  exact { placed with pos := isPos }

theorem wrap (placed : Placed console.toCursor) :
    Placed console.wrap.toCursor := placed.passed.lf

theorem print {c : Nat} (placed : Placed console.toCursor) :
    Placed (console.print c).toCursor := by
  have start : Placed (if console.x ≥ console.columns then console.wrap
      else console).toCursor := by
    split
    · exact placed.wrap
    · exact placed
  have isPos := start.pos
  exact { start with
    pos := by
      dsimp only [Console.print, plus]
      omega }

theorem advanced (placed : Placed console.toCursor) (c : Nat) :
    Placed { console with
      x := plus console.x c
      pos := plus console.pos (2 * c) }.toCursor := by
  have isPos := placed.pos
  exact { placed with
    pos := by
      dsimp only [plus]
      omega }

theorem margins {top bottom : Nat} (placed : Placed console.toCursor)
    (region : top < bottom) (inScreen : bottom ≤ console.lines) :
    Placed { console with top, bottom }.toCursor :=
  { placed with
    region
    inScreen }

end Placed

/-! ## String instructions and scrolling -/

theorem next_cld {bytes count address : Nat}
    (below : address + bytes * count < 2 ^ 32) :
    (Direction.cld.next bytes)^[count] address = address + bytes * count := by
  induction count with
  | zero => rfl
  | succ count induction =>
      rw [Nat.mul_succ] at below
      rw [Function.iterate_succ_apply', induction (by omega), Nat.mul_succ]
      exact (Nat.mod_eq_of_lt (by omega)).trans (Nat.add_assoc _ _ _)

theorem next_std {bytes count address : Nat} (positive : bytes < 2 ^ 32)
    (above : bytes * count ≤ address) (below : address < 2 ^ 32) :
    (Direction.std.next bytes)^[count] address = address - bytes * count := by
  induction count with
  | zero => rfl
  | succ count induction =>
      rw [Nat.mul_succ] at above
      rw [Function.iterate_succ_apply', induction (by omega), Nat.mul_succ]
      unfold Direction.next minus
      dsimp only
      omega

/-- The lines of the scroll region but one, and how many pairs of words they
have. -/
theorem Placed.rows {cursor : Cursor} (placed : Placed cursor) :
    ∃ rows, cursor.bottom = cursor.top + rows + 1 ∧
      minus (minus cursor.bottom cursor.top) 1 * cursor.columns % 2 ^ 32 / 2 =
        rows * cursor.columns / 2 ∧
      cursor.top * cursor.columns + rows * cursor.columns + cursor.columns =
        cursor.bottom * cursor.columns ∧
      cursor.bottom * cursor.columns ≤ cursor.lines * cursor.columns := by
  have region := placed.region
  have inScreen := placed.inScreen
  have few := placed.fewLines
  obtain ⟨rows, isRows⟩ : ∃ rows, cursor.bottom = cursor.top + rows + 1 :=
    ⟨cursor.bottom - cursor.top - 1, by omega⟩
  have isMinus : minus (minus cursor.bottom cursor.top) 1 = rows := by
    unfold minus
    omega
  have most := Nat.mul_le_mul_right cursor.columns inScreen
  have sum : cursor.bottom * cursor.columns =
      cursor.top * cursor.columns + rows * cursor.columns + cursor.columns := by
    rw [isRows, Nat.add_mul, Nat.add_mul, Nat.one_mul]
  have isRow : cursor.lines * cursor.sizeRow =
      2 * (cursor.lines * cursor.columns) := by
    rw [Card.sizeRow, ← Nat.mul_assoc, Nat.mul_comm]
  have starts := placed.starts
  refine ⟨rows, isRows, ?_, sum.symm, most⟩
  rw [isMinus, Nat.mod_eq_of_lt (by omega)]

/-- The rows of the screen but the last one. -/
theorem Placed.allRows {cursor : Cursor} (placed : Placed cursor) :
    ∃ rows, cursor.lines = rows + 1 ∧ minus cursor.lines 1 = rows ∧
      cursor.lines * cursor.columns =
        rows * cursor.columns + cursor.columns := by
  have region := placed.region
  have inScreen := placed.inScreen
  have fewLines := placed.fewLines
  obtain ⟨rows, isRows⟩ : ∃ rows, cursor.lines = rows + 1 :=
    ⟨cursor.lines - 1, by omega⟩
  refine ⟨rows, isRows, ?_, ?_⟩
  · unfold minus
    omega
  · rw [isRows, Nat.add_mul, Nat.one_mul]

theorem cells (card : Card) (count : Nat) :
    count * card.sizeRow = 2 * (count * card.columns) := by
  rw [Card.sizeRow, ← Nat.mul_assoc, Nat.mul_comm]

namespace Console

theorem scrup_x (console : Console) : console.scrup.x = console.x := by
  unfold Console.scrup
  split
  · split
    · dsimp only
      split
      · rfl
      · rfl
    · rfl
  · rfl

theorem lf_x (console : Console) : console.lf.x = console.x := by
  unfold Console.lf
  split
  · rfl
  · exact scrup_x console

theorem scrup_lines (console : Console) :
    console.scrup.lines = console.lines := by
  unfold Console.scrup
  split
  · split
    · dsimp only
      split
      · rfl
      · rfl
    · rfl
  · rfl

end Console

/-! ## What every operation keeps -/

/-- Two consoles that the operations of `con_write` keep related. -/
structure Kept (Related : Console → Console → Prop) : Prop where
  parser {left right : Console} (related : Related left right) :
    right.toParser = left.toParser
  cursor {left right : Console} (related : Related left right) :
    right.x = left.x ∧ right.y = left.y ∧ right.columns = left.columns ∧
      right.lines = left.lines
  setParser {left right : Console} (parser : Parser)
    (few : left.npar < nPar → parser.npar < nPar)
    (related : Related left right) :
    Related { left with toParser := parser } { right with toParser := parser }
  margins {left right : Console} {top bottom : Nat}
    (related : Related left right) (region : top < bottom)
    (inScreen : bottom ≤ left.lines) :
    Related { left with top, bottom } { right with top, bottom }
  gotoxy {left right : Console} (newX newY : Nat)
    (related : Related left right) :
    Related (left.gotoxy newX newY) (right.gotoxy newX newY)
  lf {left right : Console} (related : Related left right) :
    Related left.lf right.lf
  ri {left right : Console} (related : Related left right) :
    Related left.ri right.ri
  cr {left right : Console} (related : Related left right) :
    Related left.cr right.cr
  bs {left right : Console} (related : Related left right) :
    Related left.bs right.bs
  del {left right : Console} (related : Related left right) :
    Related left.del right.del
  tab {left right : Console} (related : Related left right) :
    Related left.tab right.tab
  print {left right : Console} (c : Nat) (related : Related left right) :
    Related (left.print c) (right.print c)
  csiJ {left right : Console} (par : Nat) (related : Related left right) :
    Related (left.csiJ par) (right.csiJ par)
  csiK {left right : Console} (par : Nat) (related : Related left right) :
    Related (left.csiK par) (right.csiK par)
  insertChar {left right : Console} (related : Related left right) :
    Related left.insertChar right.insertChar
  deleteChar {left right : Console} (related : Related left right) :
    Related left.deleteChar right.deleteChar
  insertLine {left right : Console} (related : Related left right) :
    Related left.insertLine right.insertLine
  deleteLine {left right : Console} (related : Related left right) :
    Related left.deleteLine right.deleteLine

namespace Kept

open Console

variable {Related : Console → Console → Prop} {left right : Console}

theorem iterate (operation : Console → Console)
    (each : ∀ {left right : Console}, Related left right →
      Related (operation left) (operation right))
    (count : Nat) (related : Related left right) :
    Related (operation^[count] left) (operation^[count] right) := by
  induction count generalizing left right with
  | zero => exact related
  | succ count induction => exact induction (each related)

theorem choice {test : Prop} [Decidable test] {first second : Console}
    (yes : Related left right) (no : Related first second) :
    Related (if test then left else first) (if test then right else second) := by
  split
  · exact yes
  · exact no

theorem setPar (kept : Kept Related) (index value : Nat)
    (related : Related left right) :
    Related (left.setPar index value) (right.setPar index value) := by
  have same := kept.parser related
  unfold Console.setPar
  rw [same]
  exact kept.setParser _ id related

theorem oneLess (kept : Kept Related) (index : Nat)
    (related : Related left right) :
    Related (left.oneLess index) (right.oneLess index) := by
  have same := kept.parser related
  unfold Console.oneLess
  rw [same]
  split
  · exact kept.setPar index _ related
  · exact related

theorem atLeastOne (kept : Kept Related) (related : Related left right) :
    Related left.atLeastOne right.atLeastOne := by
  have same := kept.parser related
  unfold Console.atLeastOne
  rw [same]
  split
  · exact kept.setPar 0 1 related
  · exact related

theorem saveCur (kept : Kept Related) (related : Related left right) :
    Related left.saveCur right.saveCur := by
  have same := kept.parser related
  obtain ⟨sameX, sameY, _⟩ := kept.cursor related
  unfold Console.saveCur
  rw [same, sameX, sameY]
  exact kept.setParser _ id related

theorem restoreCur (kept : Kept Related) (related : Related left right) :
    Related left.restoreCur right.restoreCur := by
  have same := kept.parser related
  unfold Console.restoreCur
  rw [same]
  exact kept.gotoxy _ _ related

theorem csiSmallM (kept : Kept Related) (related : Related left right) :
    Related left.csiSmallM right.csiSmallM := by
  have same := kept.parser related
  unfold Console.csiSmallM
  rw [same]
  exact kept.setParser _ id related

/-- The end of `margins`. -/
theorem region (kept : Kept Related) (related : Related left right) :
    Related
      (if left.par 0 < left.par 1 ∧ left.par 1 ≤ left.lines then
        { left with top := left.par 0, bottom := left.par 1 } else left)
      (if right.par 0 < right.par 1 ∧ right.par 1 ≤ right.lines then
        { right with top := right.par 0, bottom := right.par 1 }
      else right) := by
  have samePar : right.par = left.par :=
    congrArg Parser.par (kept.parser related)
  rw [samePar, (kept.cursor related).2.2.2]
  split
  · rename_i inside
    exact kept.margins related inside.1 inside.2
  · exact related

theorem setMargins (kept : Kept Related) (related : Related left right) :
    Related left.margins right.margins := by
  have first := kept.oneLess 0 related
  have second : Related
      (if (left.oneLess 0).par 1 = 0 then
        (left.oneLess 0).setPar 1 (left.oneLess 0).lines else left.oneLess 0)
      (if (right.oneLess 0).par 1 = 0 then
        (right.oneLess 0).setPar 1 (right.oneLess 0).lines
      else right.oneLess 0) := by
    rw [kept.parser first, (kept.cursor first).2.2.2]
    exact choice (kept.setPar 1 _ first) first
  exact kept.region second

theorem command (kept : Kept Related) (c : Int)
    (related : Related left right) :
    Related (left.command c) (right.command c) := by
  have same := kept.parser related
  have sameColumns := (kept.cursor related).2.2.1
  have sameLines := (kept.cursor related).2.2.2
  have one := kept.atLeastOne related
  have less := kept.oneLess 0 related
  have pair := kept.oneLess 1 less
  have onePar := kept.parser one
  obtain ⟨oneX, oneY, _⟩ := kept.cursor one
  have lessPar := kept.parser less
  obtain ⟨lessX, lessY, _⟩ := kept.cursor less
  have pairPar := kept.parser pair
  unfold Console.command
  dsimp only
  refine choice ?_ ?_
  · rw [lessPar, lessY]
    exact kept.gotoxy _ _ less
  refine choice ?_ ?_
  · rw [onePar, oneX, oneY]
    exact kept.gotoxy _ _ one
  refine choice ?_ ?_
  · rw [onePar, oneX, oneY]
    exact kept.gotoxy _ _ one
  refine choice ?_ ?_
  · rw [onePar, oneX, oneY]
    exact kept.gotoxy _ _ one
  refine choice ?_ ?_
  · rw [onePar, oneX, oneY]
    exact kept.gotoxy _ _ one
  refine choice ?_ ?_
  · rw [onePar, oneY]
    exact kept.gotoxy _ _ one
  refine choice ?_ ?_
  · rw [onePar, oneY]
    exact kept.gotoxy _ _ one
  refine choice ?_ ?_
  · rw [lessPar, lessX]
    exact kept.gotoxy _ _ less
  refine choice ?_ ?_
  · rw [pairPar]
    exact kept.gotoxy _ _ pair
  refine choice ?_ ?_
  · rw [same]
    exact kept.csiJ _ related
  refine choice ?_ ?_
  · rw [same]
    exact kept.csiK _ related
  refine choice ?_ ?_
  · rw [same, Console.csiL, Console.csiL, sameLines]
    exact iterate _ kept.insertLine _ related
  refine choice ?_ ?_
  · rw [same, Console.csiM, Console.csiM, sameLines]
    exact iterate _ kept.deleteLine _ related
  refine choice ?_ ?_
  · rw [same, Console.csiP, Console.csiP, sameColumns]
    exact iterate _ kept.deleteChar _ related
  refine choice ?_ ?_
  · rw [same, Console.csiAt, Console.csiAt, sameColumns]
    exact iterate _ kept.insertChar _ related
  refine choice ?_ ?_
  · exact kept.csiSmallM related
  refine choice ?_ ?_
  · exact kept.setMargins related
  refine choice ?_ ?_
  · exact kept.saveCur related
  refine choice ?_ ?_
  · exact kept.restoreCur related
  · exact related

theorem parameter (kept : Kept Related) (c : Int)
    (related : Related left right) :
    Related (left.parameter c) (right.parameter c) := by
  have same := kept.parser related
  unfold Console.parameter
  rw [same]
  split
  · rename_i more
    apply kept.setParser _ _ related
    intro _
    dsimp only
    omega
  · split
    · exact kept.setPar _ _ related
    · exact kept.command c (kept.setParser _ id related)

theorem sequence (kept : Kept Related) (c : Int)
    (related : Related left right) :
    Related (left.sequence c) (right.sequence c) := by
  have same := kept.parser related
  unfold Console.sequence
  rw [same]
  have start := kept.setParser { left.toParser with
    par := fun index => if index < nPar then 0 else left.par index
    npar := 0
    state := 3
    ques := c == code '?' } (fun _ => show 0 < nPar by decide) related
  dsimp only
  split
  · exact start
  · exact kept.parameter c start

theorem escape (kept : Kept Related) (c : Int)
    (related : Related left right) :
    Related (left.escape c) (right.escape c) := by
  have same := kept.parser related
  obtain ⟨sameX, sameY, _⟩ := kept.cursor related
  unfold Console.escape
  rw [same, sameX, sameY]
  refine choice ?_ ?_
  · exact kept.setParser _ id related
  refine choice ?_ ?_
  · exact kept.gotoxy _ _ related
  refine choice ?_ ?_
  · exact kept.ri related
  refine choice ?_ ?_
  · exact kept.lf related
  refine choice ?_ ?_
  · exact related
  refine choice ?_ ?_
  · exact kept.saveCur related
  refine choice ?_ ?_
  · exact kept.restoreCur related
  · exact related

theorem plain (kept : Kept Related) (eraseChar : Nat) (c : Int)
    (related : Related left right) :
    Related (left.plain eraseChar c) (right.plain eraseChar c) := by
  have same := kept.parser related
  unfold Console.plain
  rw [same]
  refine choice ?_ ?_
  · exact kept.print _ related
  refine choice ?_ ?_
  · exact kept.setParser _ id related
  refine choice ?_ ?_
  · exact kept.lf related
  refine choice ?_ ?_
  · exact kept.cr related
  refine choice ?_ ?_
  · exact kept.del related
  refine choice ?_ ?_
  · exact kept.bs related
  refine choice ?_ ?_
  · exact kept.tab related
  · exact related

theorem conByte (kept : Kept Related) (eraseChar byte : Nat)
    (related : Related left right) :
    Related (left.conByte eraseChar byte) (right.conByte eraseChar byte) := by
  have same := kept.parser related
  have ready := kept.setParser { left.toParser with state := 0 } id related
  unfold Console.conByte
  rw [same]
  dsimp only
  split
  · exact kept.plain eraseChar _ related
  · exact kept.escape _ ready
  · exact kept.sequence _ related
  · exact kept.parameter _ related
  · exact kept.command _ ready
  · exact related

theorem conWrite (kept : Kept Related) (eraseChar : Nat) (bytes : List Nat)
    (related : Related left right) :
    Related (left.conWrite eraseChar bytes)
      (right.conWrite eraseChar bytes) := by
  induction bytes generalizing left right with
  | nil => exact related
  | cons byte rest induction =>
      exact induction (kept.conByte eraseChar byte related)

end Kept

end Linux011.Chr
