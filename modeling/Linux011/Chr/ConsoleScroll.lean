import Linux011.Chr.ConsoleBytes

/-!
# Scrolling by the origin shows the same screen

The operations of `con_write` do the same to the words from `origin` on, where
`origin` is moved and where it is not.
-/

namespace Linux011.Chr

open StringMoves

/-! ## The words of a window -/

/-- Two memories show the same `size` words from two origins on. -/
def Shown (left right size : Nat) (video other : Memory) : Prop :=
  ∀ index, index < size →
    other.word (right + 2 * index) = video.word (left + 2 * index)

/-- What a string instruction adds to a pointer, around the end. -/
def Direction.delta (direction : Direction) (bytes : Nat) : Nat :=
  match direction with
  | .cld => bytes
  | .std => 2 ^ 32 - bytes % 2 ^ 32

theorem next_iterate (direction : Direction) (bytes origin offset count : Nat) :
    (direction.next bytes)^[count] ((origin + offset) % 2 ^ 32) =
      (origin + (offset + count * direction.delta bytes)) % 2 ^ 32 := by
  induction count with
  | zero => rw [Nat.zero_mul, Nat.add_zero, Function.iterate_zero_apply]
  | succ count induction =>
      rw [Function.iterate_succ_apply', induction, Nat.succ_mul]
      cases direction with
      | cld =>
          unfold Direction.next Direction.delta plus
          dsimp only
          omega
      | std =>
          unfold Direction.next Direction.delta minus
          dsimp only
          omega

section Window

variable {left right size : Nat} {video other : Memory}

theorem Shown.store {offset value : Nat}
    (shown : Shown left right size video other)
    (leftEnd : left + 2 * size ≤ 2 ^ 32)
    (rightEnd : right + 2 * size ≤ 2 ^ 32) :
    Shown left right size (video.store ((left + offset) % 2 ^ 32) value)
      (other.store ((right + offset) % 2 ^ 32) value) := by
  intro index inside
  have same : right + 2 * index = (right + offset) % 2 ^ 32 ↔
      left + 2 * index = (left + offset) % 2 ^ 32 := by
    omega
  rw [Memory.word_store, Memory.word_store]
  by_cases own : left + 2 * index = (left + offset) % 2 ^ 32
  · rw [if_pos own, if_pos (same.mpr own)]
  · rw [if_neg own, if_neg fun hit => own (same.mp hit)]
    exact shown index inside

theorem Shown.stosw {direction : Direction} {value count offset : Nat}
    (shown : Shown left right size video other)
    (leftEnd : left + 2 * size ≤ 2 ^ 32)
    (rightEnd : right + 2 * size ≤ 2 ^ 32) :
    Shown left right size
      (stosw direction value count ((left + offset) % 2 ^ 32) video)
      (stosw direction value count ((right + offset) % 2 ^ 32) other) := by
  apply Memory.fill_related shown
  intro index below video other shown
  rw [next_iterate, next_iterate]
  exact shown.store leftEnd rightEnd

theorem Shown.movsl {direction : Direction} {count target source : Nat}
    (shown : Shown left right size video other)
    (leftEnd : left + 2 * size ≤ 2 ^ 32)
    (rightEnd : right + 2 * size ≤ 2 ^ 32)
    (reads : ∀ index, index < count → ∃ cell, cell + 1 < size ∧
      (source + index * direction.delta 4) % 2 ^ 32 = 2 * cell) :
    Shown left right size
      (movsl direction count ((left + target) % 2 ^ 32)
        ((left + source) % 2 ^ 32) video)
      (movsl direction count ((right + target) % 2 ^ 32)
        ((right + source) % 2 ^ 32) other) := by
  apply Memory.move_related shown
  intro index below video other shown
  obtain ⟨cell, inside, isCell⟩ := reads index below
  rw [next_iterate, next_iterate, next_iterate, next_iterate]
  generalize target + index * direction.delta 4 = place
  have first (origin : Nat) (below : origin + 2 * size ≤ 2 ^ 32) :
      (origin + (source + index * direction.delta 4)) % 2 ^ 32 =
        origin + 2 * cell := by
    omega
  have second (origin : Nat) (below : origin + 2 * size ≤ 2 ^ 32) :
      plus (origin + 2 * cell) 2 = origin + 2 * (cell + 1) := by
    unfold plus
    omega
  have behind (origin : Nat) : plus ((origin + place) % 2 ^ 32) 2 =
      (origin + (place + 2)) % 2 ^ 32 := by
    unfold plus
    omega
  unfold Memory.movePair
  dsimp only
  rw [first left leftEnd, first right rightEnd, second left leftEnd,
    second right rightEnd, behind, behind, shown cell (by omega),
    shown (cell + 1) inside]
  exact (shown.store leftEnd rightEnd).store leftEnd rightEnd

theorem Shown.insertWords {count cell old : Nat}
    (shown : Shown left right size video other)
    (leftEnd : left + 2 * size < 2 ^ 32)
    (rightEnd : right + 2 * size < 2 ^ 32) (inside : cell + count ≤ size) :
    Shown left right size
      (Console.insertWords count (left + 2 * cell) old video)
      (Console.insertWords count (right + 2 * cell) old other) := by
  induction count generalizing cell old video other with
  | zero => exact shown
  | succ count induction =>
      have next (origin : Nat) (below : origin + 2 * size < 2 ^ 32) :
          plus (origin + 2 * cell) 2 = origin + 2 * (cell + 1) := by
        unfold plus
        omega
      have stored := @Shown.store left right size video other (2 * cell) old
        shown (by omega) (by omega)
      rw [Nat.mod_eq_of_lt (by omega), Nat.mod_eq_of_lt (by omega)] at stored
      unfold Console.insertWords
      rw [next left leftEnd, next right rightEnd, shown cell (by omega)]
      exact induction stored (by omega)

theorem Shown.deleteWords {count cell : Nat}
    (shown : Shown left right size video other)
    (leftEnd : left + 2 * size < 2 ^ 32)
    (rightEnd : right + 2 * size < 2 ^ 32) (inside : cell + count < size) :
    Shown left right size
      (Console.deleteWords count (left + 2 * cell) video)
      (Console.deleteWords count (right + 2 * cell) other) := by
  induction count generalizing cell video other with
  | zero =>
      have stored := @Shown.store left right size video other (2 * cell)
        eraseWord shown (by omega) (by omega)
      rw [Nat.mod_eq_of_lt (by omega), Nat.mod_eq_of_lt (by omega)] at stored
      exact stored
  | succ count induction =>
      have next (origin : Nat) (below : origin + 2 * size < 2 ^ 32) :
          plus (origin + 2 * cell) 2 = origin + 2 * (cell + 1) := by
        unfold plus
        omega
      have stored := @Shown.store left right size video other (2 * cell)
        (video.word (left + 2 * (cell + 1))) shown (by omega) (by omega)
      rw [Nat.mod_eq_of_lt (by omega), Nat.mod_eq_of_lt (by omega)] at stored
      unfold Console.deleteWords
      rw [next left leftEnd, next right rightEnd, shown (cell + 1) (by omega)]
      exact induction stored (by omega)

end Window

/-! ## A whole screen scrolls -/

/-- All lines but the first go to `target`, and an empty one behind them. -/
theorem copied {target source pairs columns : Nat} {video : Memory}
    (upwards : target ≤ source)
    (small : source + 4 * pairs + 2 * columns < 2 ^ 32) {index : Nat}
    (inside : index < 2 * pairs + columns) :
    (stosw .cld eraseWord columns (plus target (4 * pairs))
      (movsl .cld pairs target source video)).word (target + 2 * index) =
        if index < 2 * pairs then video.word (source + 2 * index)
        else eraseWord := by
  have place (base count : Nat) (below : base ≤ source) (inPairs : count ≤ pairs) :
      (Direction.cld.next 4)^[count] base = base + 4 * count :=
    next_cld (by omega)
  have isEnd : plus target (4 * pairs) = target + 4 * pairs :=
    Nat.mod_eq_of_lt (by omega)
  have behind (base count : Nat) (below : base ≤ source) (inPairs : count < pairs) :
      plus (base + 4 * count) 2 = base + 4 * count + 2 :=
    Nat.mod_eq_of_lt (by omega)
  rw [isEnd]
  split
  · rename_i moved
    have unfilled : (stosw .cld eraseWord columns (target + 4 * pairs)
        (movsl .cld pairs target source video)).word (target + 2 * index) =
          (movsl .cld pairs target source video).word (target + 2 * index) := by
      apply Memory.fill_outside
      intro count below
      rw [next_cld (by omega)]
      omega
    have pair := @Memory.move_inside video (Direction.cld.next 4) (plus · 2)
      pairs target source (index / 2) (by omega)
      (by
        intro first second before inPairs
        rw [place target first upwards (by omega),
          place source second (Nat.le_refl _) (by omega)]
        rw [behind target first upwards (by omega),
          behind source second (Nat.le_refl _) inPairs]
        omega)
      (by
        intro first second before inPairs
        rw [place target first upwards (by omega),
          place target second upwards (by omega)]
        rw [behind target first upwards (by omega),
          behind target second upwards inPairs]
        omega)
      (by
        intro place
        unfold plus
        omega)
    rw [place target (index / 2) upwards (by omega),
      place source (index / 2) (Nat.le_refl _) (by omega)] at pair
    rw [behind target (index / 2) upwards (by omega),
      behind source (index / 2) (Nat.le_refl _) (by omega)] at pair
    rw [unfilled]
    rcases Nat.mod_two_eq_zero_or_one index with isEven | isOdd
    · have isTarget : target + 4 * (index / 2) = target + 2 * index := by omega
      have isSource : source + 4 * (index / 2) = source + 2 * index := by omega
      rw [isTarget, isSource] at pair
      exact pair.1
    · have isTarget : target + 4 * (index / 2) + 2 = target + 2 * index := by
        omega
      have isSource : source + 4 * (index / 2) + 2 = source + 2 * index := by
        omega
      rw [isTarget, isSource] at pair
      exact pair.2
  · rename_i behindPairs
    have isPlace : (Direction.cld.next 2)^[index - 2 * pairs]
        (target + 4 * pairs) = target + 2 * index := by
      rw [next_cld (by omega)]
      omega
    rw [← isPlace]
    exact Memory.fill_inside (by omega)

/-- The screen after a scroll of all its lines. -/
theorem scrup_full {console : Console} (placed : Placed console.toCursor)
    (full : console.top = 0 ∧ console.bottom = console.lines)
    (even : (console.lines - 1) * console.columns % 2 = 0) {index : Nat}
    (inside : index < console.lines * console.columns) :
    console.scrup.video.word (console.scrup.origin + 2 * index) =
      if index < (console.lines - 1) * console.columns then
        console.video.word (console.origin + 2 * (index + console.columns))
      else eraseWord := by
  have isEnd := placed.scrEnd
  have above := placed.above
  have room := placed.room
  have starts := placed.starts
  have fewLines := placed.fewLines
  have isRow : console.sizeRow = 2 * console.columns := Nat.mul_comm _ _
  obtain ⟨rows, isRows, isMinus, sum⟩ := placed.allRows
  have isLess : console.lines - 1 = rows := by omega
  rw [cells] at isEnd starts
  rw [isLess] at even ⊢
  have count : rows * console.columns % 2 ^ 32 / 2 * 2 =
      rows * console.columns := by
    omega
  have shifted (base : Nat) : base + console.sizeRow + 2 * index =
      base + 2 * (index + console.columns) := by
    omega
  have slow : console.moveUp.video.word (console.origin + 2 * index) =
      if index < rows * console.columns then
        console.video.word (console.origin + 2 * (index + console.columns))
      else eraseWord := by
    have isCount : minus (minus console.bottom console.top) 1 = rows := by
      rw [full.1, full.2]
      unfold minus
      omega
    have isEdi : (console.origin + console.sizeRow * console.top) % 2 ^ 32 =
        console.origin := by
      rw [full.1, Nat.mul_zero]
      exact Nat.mod_eq_of_lt (by omega)
    have isEsi : (console.origin + console.sizeRow * (console.top + 1)) %
        2 ^ 32 = console.origin + console.sizeRow := by
      rw [full.1, Nat.zero_add, Nat.mul_one]
      exact Nat.mod_eq_of_lt (by omega)
    unfold Console.moveUp
    dsimp only
    rw [isCount, isEdi, isEsi, copied (by omega) (by omega) (by omega),
      Nat.mul_comm 2, count, shifted]
  unfold Console.scrup
  split
  · dsimp only
    have isOrigin : plus console.origin console.sizeRow =
        console.origin + console.sizeRow := Nat.mod_eq_of_lt (by omega)
    have isScrEnd : plus console.scrEnd console.sizeRow =
        console.scrEnd + console.sizeRow := Nat.mod_eq_of_lt (by omega)
    rw [isOrigin, isScrEnd, isMinus]
    split
    · dsimp only
      rw [copied (by omega) (by omega) (by omega), Nat.mul_comm 2, count,
        shifted]
    · dsimp only
      have isStart : minus (console.scrEnd + console.sizeRow)
          console.sizeRow = console.scrEnd := by
        unfold minus
        omega
      rw [isStart]
      split
      · rename_i moved
        rw [← shifted]
        apply Memory.fill_outside
        intro count below
        rw [next_cld (by omega)]
        omega
      · rename_i last
        have isPlace : (Direction.cld.next 2)^[index -
            rows * console.columns] console.scrEnd =
              console.origin + console.sizeRow + 2 * index := by
          rw [next_cld (by omega)]
          omega
        rw [← isPlace]
        exact Memory.fill_inside (by omega)
  · exact slow

/-! ## Consoles that look alike -/

/-- The words in the window. -/
def Card.size (card : Card) : Nat := card.lines * card.columns

/-- The same screen, cursor, margins and parser. -/
structure Alike (card : Card) (left right : Console) : Prop where
  isCard : left.toCard = card
  parser : right.toParser = left.toParser
  sameX : right.x = left.x
  sameY : right.y = left.y
  sameTop : right.top = left.top
  sameBottom : right.bottom = left.bottom
  sameColumns : right.columns = left.columns
  sameLines : right.lines = left.lines
  placed : Placed left.toCursor
  other : Placed right.toCursor
  even : (left.lines - 1) * left.columns % 2 = 0
  window : Shown left.origin right.origin left.size left.video right.video

namespace Alike

open Console

variable {card : Card} {left right : Console}

theorem leftEnd (alike : Alike card left right) :
    left.origin + 2 * left.size < 2 ^ 32 := by
  have isEnd := alike.placed.scrEnd
  have room := alike.placed.room
  rw [cells] at isEnd
  unfold Card.size
  omega

theorem rightEnd (alike : Alike card left right) :
    right.origin + 2 * left.size < 2 ^ 32 := by
  have isEnd := alike.other.scrEnd
  have room := alike.other.room
  rw [cells, alike.sameLines, alike.sameColumns] at isEnd
  unfold Card.size
  omega

theorem sameRow (alike : Alike card left right) :
    right.sizeRow = left.sizeRow := by
  unfold Card.sizeRow
  rw [alike.sameColumns]

/-- Where both cursors are, from their origins on. -/
theorem pos (alike : Alike card left right) : ∃ offset,
    left.pos = (left.origin + offset) % 2 ^ 32 ∧
      right.pos = (right.origin + offset) % 2 ^ 32 ∧
      offset = 2 * (left.y * left.columns) + 2 * left.x := by
  refine ⟨_, ?_, ?_, rfl⟩
  · rw [alike.placed.pos, cells, Nat.add_assoc]
  · rw [alike.other.pos, cells, alike.sameX, alike.sameY, alike.sameColumns,
      Nat.add_assoc]

/-- Only the screens change. -/
theorem paint {video other : Memory} (alike : Alike card left right)
    (window : Shown left.origin right.origin left.size video other) :
    Alike card { left with video } { right with video := other } :=
  { alike with window }

theorem stosw {direction : Direction} {value count offset : Nat}
    (alike : Alike card left right) :
    Shown left.origin right.origin left.size
      (stosw direction value count ((left.origin + offset) % 2 ^ 32)
        left.video)
      (stosw direction value count ((right.origin + offset) % 2 ^ 32)
        right.video) :=
  alike.window.stosw (Nat.le_of_lt alike.leftEnd) (Nat.le_of_lt alike.rightEnd)

theorem moveUp (alike : Alike card left right) : Alike card left.moveUp right.moveUp := by
  obtain ⟨rows, isRows, isCount, sum, most⟩ := alike.placed.rows
  have leftEnd := alike.leftEnd
  have rightEnd := alike.rightEnd
  have isTop (lines : Nat) : left.sizeRow * lines =
      2 * (lines * left.columns) := by
    rw [Nat.mul_comm, cells]
  apply alike.paint
  rw [alike.sameTop, alike.sameBottom, alike.sameColumns, alike.sameRow,
    isCount, isTop, isTop]
  have behind (origin : Nat) : plus ((origin + 2 * (left.top *
      left.columns)) % 2 ^ 32) (4 * (rows * left.columns / 2)) =
        (origin + (2 * (left.top * left.columns) +
          4 * (rows * left.columns / 2))) % 2 ^ 32 := by
    unfold plus
    omega
  rw [behind, behind]
  refine Shown.stosw (Shown.movsl alike.window ?_ ?_ ?_) ?_ ?_
  · omega
  · omega
  · intro index below
    refine ⟨(left.top + 1) * left.columns + 2 * index, ?_, ?_⟩
    · unfold Card.size
      rw [Nat.add_mul, Nat.one_mul]
      omega
    · unfold Card.size at leftEnd
      unfold Direction.delta
      dsimp only
      rw [Nat.add_mul, Nat.one_mul]
      omega
  · omega
  · omega

/-- What `scrup` leaves as it is. -/
theorem scrup_frame (console : Console) :
    console.scrup.toParser = console.toParser ∧
      console.scrup.x = console.x ∧ console.scrup.y = console.y ∧
      console.scrup.top = console.top ∧
      console.scrup.bottom = console.bottom ∧
      console.scrup.toCard = console.toCard := by
  unfold Console.scrup
  split
  · split
    · dsimp only
      split
      · exact ⟨rfl, rfl, rfl, rfl, rfl, rfl⟩
      · exact ⟨rfl, rfl, rfl, rfl, rfl, rfl⟩
    · exact ⟨rfl, rfl, rfl, rfl, rfl, rfl⟩
  · exact ⟨rfl, rfl, rfl, rfl, rfl, rfl⟩

/-- A part of the screen is always copied. -/
theorem scrup_part {console : Console}
    (part : ¬(console.top = 0 ∧ console.bottom = console.lines)) :
    console.scrup = console.moveUp := by
  unfold Console.scrup
  rw [if_neg part, ite_self]

theorem scrup (alike : Alike card left right) : Alike card left.scrup right.scrup := by
  by_cases full : left.top = 0 ∧ left.bottom = left.lines
  · obtain ⟨leftParser, leftX, leftY, leftTop, leftBottom, leftCard⟩ :=
      scrup_frame left
    obtain ⟨rightParser, rightX, rightY, rightTop, rightBottom, rightCard⟩ :=
      scrup_frame right
    have leftLines := congrArg Card.lines leftCard
    have leftColumns := congrArg Card.columns leftCard
    have rightLines := congrArg Card.lines rightCard
    have rightColumns := congrArg Card.columns rightCard
    refine ⟨leftCard.trans alike.isCard, ?_, ?_, ?_, ?_, ?_, ?_, ?_, alike.placed.scrup, alike.other.scrup,
      ?_, ?_⟩
    · rw [leftParser, rightParser]
      exact alike.parser
    · rw [leftX, rightX]
      exact alike.sameX
    · rw [leftY, rightY]
      exact alike.sameY
    · rw [leftTop, rightTop]
      exact alike.sameTop
    · rw [leftBottom, rightBottom]
      exact alike.sameBottom
    · rw [leftColumns, rightColumns]
      exact alike.sameColumns
    · rw [leftLines, rightLines]
      exact alike.sameLines
    · rw [leftLines, leftColumns]
      exact alike.even
    · intro index inside
      have isSize : left.scrup.size = left.lines * left.columns := by
        unfold Card.size
        rw [leftLines, leftColumns]
      rw [isSize] at inside
      have other : right.top = 0 ∧ right.bottom = right.lines := by
        rw [alike.sameTop, alike.sameBottom, alike.sameLines]
        exact full
      have otherEven := alike.even
      rw [← alike.sameLines, ← alike.sameColumns] at otherEven
      rw [scrup_full alike.placed full alike.even inside,
        scrup_full alike.other other otherEven
          (by rwa [alike.sameLines, alike.sameColumns]),
        alike.sameLines, alike.sameColumns]
      split
      · rename_i moved
        apply alike.window
        have line := alike.placed.line
        obtain ⟨rows, isRows⟩ : ∃ rows, left.lines = rows + 1 :=
          ⟨left.lines - 1, by omega⟩
        unfold Card.size
        rw [isRows] at moved ⊢
        rw [Nat.add_mul, Nat.one_mul]
        exact Nat.add_lt_add_right moved _
      · rfl
  · have other : ¬(right.top = 0 ∧ right.bottom = right.lines) := by
      rw [alike.sameTop, alike.sameBottom, alike.sameLines]
      exact full
    rw [scrup_part full, scrup_part other]
    exact alike.moveUp

theorem scrdown (alike : Alike card left right) :
    Alike card left.scrdown right.scrdown := by
  obtain ⟨rows, isRows, isCount, sum, most⟩ := alike.placed.rows
  have leftEnd := alike.leftEnd
  have rightEnd := alike.rightEnd
  have inScreen := alike.placed.inScreen
  have fewLines := alike.placed.fewLines
  have isBottom (lines : Nat) : left.sizeRow * lines =
      2 * (lines * left.columns) := by
    rw [Nat.mul_comm, cells]
  have isLess : minus left.bottom 1 = left.top + rows := by
    unfold minus
    omega
  apply alike.paint
  rw [alike.sameTop, alike.sameBottom, alike.sameColumns, alike.sameRow,
    isCount, isLess, isBottom, isBottom]
  have start (origin offset : Nat) : minus (origin + offset) 4 =
      (origin + (2 ^ 32 - 4 + offset)) % 2 ^ 32 := by
    unfold minus
    omega
  have behind (origin offset count : Nat) :
      plus (minus ((origin + offset) % 2 ^ 32) (4 * count)) 2 =
        (origin + (offset + (2 ^ 32 - 4 * count % 2 ^ 32) + 2)) % 2 ^ 32 := by
    unfold plus minus
    omega
  rw [start, start, start, start, behind, behind]
  refine Shown.stosw (Shown.movsl alike.window ?_ ?_ ?_) ?_ ?_
  · omega
  · omega
  · intro index below
    unfold Card.size at *
    rw [Nat.add_mul]
    refine ⟨left.top * left.columns + rows * left.columns - 2 - 2 * index,
      ?_, ?_⟩
    · omega
    · have isDelta : Direction.std.delta 4 = 4294967292 := rfl
      rw [isDelta]
      omega
  · omega
  · omega

/-! ## The cursor -/

theorem gotoxy {newX newY : Nat} (alike : Alike card left right) :
    Alike card (left.gotoxy newX newY) (right.gotoxy newX newY) := by
  have placed := @Placed.gotoxy left newX newY alike.placed
  have other := @Placed.gotoxy right newX newY alike.other
  unfold Console.gotoxy at placed other ⊢
  rw [alike.sameColumns, alike.sameLines] at other ⊢
  split
  · exact alike
  · rename_i accepted
    rw [if_neg accepted] at placed other
    exact { alike with
      sameX := rfl
      sameY := rfl
      placed
      other }

theorem lf (alike : Alike card left right) : Alike card left.lf right.lf := by
  have placed := alike.placed.lf
  have other := alike.other.lf
  unfold Console.lf at placed other ⊢
  rw [alike.sameY, alike.sameBottom] at other ⊢
  split
  · rename_i more
    rw [if_pos more] at placed other
    exact { alike with
      sameY := rfl
      sameBottom := rfl
      placed
      other }
  · exact alike.scrup

theorem ri (alike : Alike card left right) : Alike card left.ri right.ri := by
  have placed := alike.placed.ri
  have other := alike.other.ri
  unfold Console.ri at placed other ⊢
  rw [alike.sameY, alike.sameTop] at other ⊢
  split
  · rename_i more
    rw [if_pos more] at placed other
    exact { alike with
      sameY := rfl
      sameTop := rfl
      placed
      other }
  · exact alike.scrdown

theorem cr (alike : Alike card left right) : Alike card left.cr right.cr :=
  { alike with
    sameX := rfl
    placed := alike.placed.cr
    other := alike.other.cr }

theorem bs (alike : Alike card left right) : Alike card left.bs right.bs := by
  have placed := alike.placed.bs
  have other := alike.other.bs
  unfold Console.bs at placed other ⊢
  rw [alike.sameX] at other ⊢
  split
  · rename_i positive
    rw [if_pos positive] at placed other
    exact { alike with
      sameX := rfl
      placed
      other }
  · exact alike

/-- A store at the cursor. -/
theorem word {value : Nat} (alike : Alike card left right) :
    Shown left.origin right.origin left.size
      (left.video.store left.pos value) (right.video.store right.pos value) := by
  obtain ⟨offset, isLeft, isRight, _⟩ := alike.pos
  rw [isLeft, isRight]
  exact alike.window.store (Nat.le_of_lt alike.leftEnd)
    (Nat.le_of_lt alike.rightEnd)

theorem del (alike : Alike card left right) : Alike card left.del right.del := by
  have moved := alike.bs
  have sameX := alike.sameX
  unfold Console.bs at moved
  unfold Console.del
  rw [sameX] at moved ⊢
  split
  · rename_i positive
    rw [if_pos positive, if_pos positive] at moved
    exact moved.paint moved.word
  · exact alike

theorem passed (alike : Alike card left right) :
    Alike card
      { left with
        x := minus left.x left.columns
        pos := minus left.pos left.sizeRow }
      { right with
        x := minus right.x right.columns
        pos := minus right.pos right.sizeRow } :=
  { alike with
    sameX := by
      dsimp only
      rw [alike.sameX, alike.sameColumns]
    placed := alike.placed.passed
    other := alike.other.passed }

theorem wrap (alike : Alike card left right) : Alike card left.wrap right.wrap :=
  alike.passed.lf

theorem advanced (alike : Alike card left right) (c : Nat) :
    Alike card
      { left with
        x := plus left.x c
        pos := plus left.pos (2 * c) }
      { right with
        x := plus right.x c
        pos := plus right.pos (2 * c) } :=
  { alike with
    sameX := by
      dsimp only
      rw [alike.sameX]
    placed := alike.placed.advanced c
    other := alike.other.advanced c }

theorem print {c : Nat} (alike : Alike card left right) :
    Alike card (left.print c) (right.print c) := by
  have start : Alike card
      (if left.x ≥ left.columns then left.wrap else left)
      (if right.x ≥ right.columns then right.wrap else right) := by
    rw [alike.sameX, alike.sameColumns]
    exact Kept.choice alike.wrap alike
  have sameAttr := congrArg Parser.attr start.parser
  unfold Console.print
  dsimp only
  rw [sameAttr]
  exact (start.paint start.word).advanced 1

theorem tab (alike : Alike card left right) : Alike card left.tab right.tab := by
  have moved := alike.advanced (8 - left.x % 8)
  have sameColumns := alike.sameColumns
  unfold Console.tab
  dsimp only
  rw [alike.sameX] at moved ⊢
  rw [sameColumns]
  exact Kept.choice moved.wrap moved

/-! ## Control sequences -/

theorem csiJ {par : Nat} (alike : Alike card left right) :
    Alike card (left.csiJ par) (right.csiJ par) := by
  obtain ⟨offset, isLeft, isRight, _⟩ := alike.pos
  have leftEnd := alike.leftEnd
  have rightEnd := alike.rightEnd
  have isEnd := alike.placed.scrEnd
  have otherEnd := alike.other.scrEnd
  rw [cells] at isEnd otherEnd
  rw [alike.sameLines, alike.sameColumns] at otherEnd
  unfold Card.size at leftEnd rightEnd
  have rest : minus right.scrEnd right.pos = minus left.scrEnd left.pos := by
    rw [isLeft, isRight, isEnd, otherEnd]
    unfold minus
    omega
  have before : minus right.pos right.origin =
      minus left.pos left.origin := by
    rw [isLeft, isRight]
    unfold minus
    omega
  have start (origin : Nat) (below : origin < 2 ^ 32) :
      origin = (origin + 0) % 2 ^ 32 := by
    omega
  unfold Console.csiJ
  dsimp only
  refine Kept.choice ?_ (Kept.choice ?_ (Kept.choice ?_ alike))
  · apply alike.paint
    rw [rest, isLeft, isRight]
    exact alike.stosw
  · apply alike.paint
    rw [before]
    have window := @Alike.stosw card left right .cld eraseWord
      (minus left.pos left.origin / 2) 0 alike
    rw [← start left.origin (by omega), ← start right.origin (by omega)]
      at window
    exact window
  · apply alike.paint
    rw [alike.sameLines, alike.sameColumns]
    have window := @Alike.stosw card left right .cld eraseWord
      (left.columns * left.lines % 2 ^ 32) 0 alike
    rw [← start left.origin (by omega), ← start right.origin (by omega)]
      at window
    exact window

theorem csiK {par : Nat} (alike : Alike card left right) :
    Alike card (left.csiK par) (right.csiK par) := by
  obtain ⟨offset, isLeft, isRight, isOffset⟩ := alike.pos
  have start (origin : Nat) : minus ((origin + offset) % 2 ^ 32) (2 * left.x) =
      (origin + 2 * (left.y * left.columns)) % 2 ^ 32 := by
    unfold minus
    omega
  unfold Console.csiK
  dsimp only
  rw [alike.sameX, alike.sameColumns, isLeft, isRight, start, start]
  refine Kept.choice (Kept.choice alike ?_)
    (Kept.choice ?_ (Kept.choice ?_ alike))
  · exact alike.paint alike.stosw
  · exact alike.paint alike.stosw
  · exact alike.paint alike.stosw

/-- The cursor is on a word of the window. -/
theorem cell (alike : Alike card left right) (inLine : left.x < left.columns) :
    left.pos = left.origin + 2 * (left.y * left.columns + left.x) ∧
      right.pos = right.origin + 2 * (left.y * left.columns + left.x) ∧
      left.y * left.columns + left.columns ≤ left.size := by
  obtain ⟨offset, isLeft, isRight, isOffset⟩ := alike.pos
  have leftEnd := alike.leftEnd
  have rightEnd := alike.rightEnd
  have most := Nat.mul_le_mul_right left.columns alike.placed.line
  rw [Nat.succ_mul] at most
  unfold Card.size at *
  refine ⟨?_, ?_, most⟩
  · rw [isLeft, Nat.mod_eq_of_lt (by omega)]
    omega
  · rw [isRight, Nat.mod_eq_of_lt (by omega)]
    omega

theorem insertChar (alike : Alike card left right) :
    Alike card left.insertChar right.insertChar := by
  apply alike.paint
  rw [alike.sameX, alike.sameColumns]
  by_cases inLine : left.x < left.columns
  · obtain ⟨isLeft, isRight, most⟩ := alike.cell inLine
    rw [isLeft, isRight]
    exact alike.window.insertWords alike.leftEnd alike.rightEnd (by omega)
  · rw [Nat.sub_eq_zero_of_le (by omega)]
    exact alike.window

theorem deleteChar (alike : Alike card left right) :
    Alike card left.deleteChar right.deleteChar := by
  unfold Console.deleteChar
  rw [alike.sameX, alike.sameColumns]
  split
  · exact alike
  · obtain ⟨isLeft, isRight, most⟩ := alike.cell (by omega)
    apply alike.paint
    rw [isLeft, isRight]
    exact alike.window.deleteWords alike.leftEnd alike.rightEnd (by omega)

theorem margins {top bottom : Nat} (alike : Alike card left right)
    (region : top < bottom) (inScreen : bottom ≤ left.lines) :
    Alike card { left with top, bottom } { right with top, bottom } :=
  { alike with
    sameTop := rfl
    sameBottom := rfl
    placed := alike.placed.margins region inScreen
    other := alike.other.margins region (by rwa [alike.sameLines]) }

theorem below (alike : Alike card left right) :
    Alike card { left with top := left.y, bottom := left.lines }
      { right with top := right.y, bottom := right.lines } :=
  { alike with
    sameTop := alike.sameY
    sameBottom := alike.sameLines
    placed := alike.placed.margins alike.placed.line (Nat.le_refl _)
    other := alike.other.margins alike.other.line (Nat.le_refl _) }

theorem insertLine (alike : Alike card left right) :
    Alike card left.insertLine right.insertLine := by
  have scrolled := alike.below.scrdown.margins alike.placed.region
    alike.placed.inScreen
  unfold Console.insertLine Console.belowCursor
  rw [alike.sameTop, alike.sameBottom]
  exact scrolled

theorem deleteLine (alike : Alike card left right) :
    Alike card left.deleteLine right.deleteLine := by
  have scrolled := alike.below.scrup.margins alike.placed.region
    (by
      rw [scrup_lines]
      exact alike.placed.inScreen)
  unfold Console.deleteLine Console.belowCursor
  rw [alike.sameTop, alike.sameBottom]
  exact scrolled

end Alike

theorem alike_kept (card : Card) : Kept (Alike card) where
  parser alike := alike.parser
  cursor alike :=
    ⟨alike.sameX, alike.sameY, alike.sameColumns, alike.sameLines⟩
  setParser _ _ alike := { alike with parser := rfl }
  margins alike region inScreen := alike.margins region inScreen
  gotoxy _ _ alike := alike.gotoxy
  lf alike := alike.lf
  ri alike := alike.ri
  cr alike := alike.cr
  bs alike := alike.bs
  del alike := alike.del
  tab alike := alike.tab
  print _ alike := alike.print
  csiJ _ alike := alike.csiJ
  csiK _ alike := alike.csiK
  insertChar alike := alike.insertChar
  deleteChar alike := alike.deleteChar
  insertLine alike := alike.insertLine
  deleteLine alike := alike.deleteLine

/-- After any calls of `con_write`, one console shows what the other shows,
whatever the kinds of their cards are. -/
theorem conWrite_alike {left right : Console}
    (alike : Alike left.toCard left right) (calls : List (Nat × List Nat))
    {shown other : Console}
    (written : calls.foldl (fun console call =>
      console.conWrite call.1 call.2) left = shown)
    (again : calls.foldl (fun console call =>
      console.conWrite call.1 call.2) right = other) :
    (∀ index, index < left.lines * left.columns →
      other.video.word (other.origin + 2 * index) =
        shown.video.word (shown.origin + 2 * index)) ∧
    other.x = shown.x ∧ other.y = shown.y ∧ other.top = shown.top ∧
    other.bottom = shown.bottom ∧ other.toParser = shown.toParser := by
  have final : Alike left.toCard shown other := by
    generalize left.toCard = card at alike
    induction calls generalizing left right with
    | nil =>
        rw [← written, ← again]
        exact alike
    | cons call rest induction =>
        exact induction written again
          ((alike_kept card).conWrite call.1 call.2 alike)
  have isSize : shown.size = left.lines * left.columns := by
    unfold Card.size
    rw [final.isCard]
  have window := final.window
  rw [isSize] at window
  exact ⟨window, final.sameX, final.sameY, final.sameTop, final.sameBottom,
    final.parser⟩

section Witness

/-- A colour card of 80 columns, the cursor in the last line. -/
def egaStart : Console := conInit ⟨0, 24, 0x5003, 3⟩ fun _ => 0

/-- A monochrome card with the same screen. -/
def mdaStart : Console :=
  { conInit ⟨0, 24, 0x5007, 0x10⟩ fun _ => 0 with
    video := ⟨fun address => egaStart.video.word (0x8000 + address), []⟩ }

theorem conWrite_alike_scrolled :
    (egaStart.conWrite 127 [65, 10, 10, 66]).origin = 0xb8000 + 2 * 160 ∧
    (mdaStart.conWrite 127 [65, 10, 10, 66]).origin = 0xb0000 ∧
    ∀ index, index < 2000 →
      (mdaStart.conWrite 127 [65, 10, 10, 66]).video.word
          ((mdaStart.conWrite 127 [65, 10, 10, 66]).origin + 2 * index) =
        (egaStart.conWrite 127 [65, 10, 10, 66]).video.word
          ((egaStart.conWrite 127 [65, 10, 10, 66]).origin + 2 * index) := by
  have placed : Placed egaStart.toCursor :=
    ⟨by decide, by decide, by decide, by decide, by decide, by decide,
      by decide, by decide, by decide, by decide⟩
  have other : Placed mdaStart.toCursor :=
    ⟨by decide, by decide, by decide, by decide, by decide, by decide,
      by decide, by decide, by decide, by decide⟩
  have window : Shown egaStart.origin mdaStart.origin egaStart.size
      egaStart.video mdaStart.video := by
    intro index inside
    have isPlace : 0x8000 + (mdaStart.origin + 2 * index) =
        egaStart.origin + 2 * index := by
      have isMda : mdaStart.origin = 0xb0000 := by decide
      have isEga : egaStart.origin = 0xb8000 := by decide
      omega
    have isWord (address : Nat) : mdaStart.video.word address =
        egaStart.video.word (0x8000 + address) := rfl
    rw [isWord, isPlace]
  have alike : Alike egaStart.toCard egaStart mdaStart :=
    ⟨rfl, rfl, rfl, rfl, rfl, rfl, rfl, rfl, placed, other, by decide, window⟩
  have calls (console : Console) : [(127, [65, 10, 10, 66])].foldl
      (fun console call => console.conWrite call.1 call.2) console =
        console.conWrite 127 [65, 10, 10, 66] := by
    rw [List.foldl_cons, List.foldl_nil]
  refine ⟨by decide +kernel, by decide +kernel, ?_⟩
  exact (conWrite_alike alike _ (calls egaStart) (calls mdaStart)).1

end Witness

end Linux011.Chr
