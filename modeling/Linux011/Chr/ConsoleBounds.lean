import Linux011.Chr.ConsoleBytes

/-!
# The console stays in video memory

Every store of `con_write` goes to video memory, and the cursor stays on the
screen, one column behind it included.
-/

namespace Linux011.Chr

open StringMoves

/-! ## Where the string instructions store -/

/-- A word of video memory. -/
def Card.Word (card : Card) (address : Nat) : Prop :=
  card.memStart ≤ address ∧ address + 2 ≤ card.memEnd

section Stores

variable {card : Card} {video : Memory}

theorem stosw_cld {value count edi : Nat}
    (old : ∀ place ∈ video.stores, card.Word place)
    (above : card.memStart ≤ edi) (below : edi + 2 * count ≤ card.memEnd)
    (ends : card.memEnd < 2 ^ 32) :
    ∀ place ∈ (stosw .cld value count edi video).stores, card.Word place := by
  apply Memory.fill_stores old
  intro index inCount
  rw [next_cld (by omega)]
  unfold Card.Word
  omega

theorem movsl_cld {count edi esi : Nat}
    (old : ∀ place ∈ video.stores, card.Word place)
    (above : card.memStart ≤ edi) (below : edi + 4 * count ≤ card.memEnd)
    (ends : card.memEnd < 2 ^ 32) :
    ∀ place ∈ (movsl .cld count edi esi video).stores, card.Word place := by
  apply Memory.move_stores old
  intro index inCount
  rw [next_cld (by omega)]
  unfold Card.Word plus
  omega

theorem stosw_std {value count edi : Nat}
    (old : ∀ place ∈ video.stores, card.Word place)
    (above : card.memStart + 2 * count ≤ edi + 2)
    (below : edi + 2 ≤ card.memEnd) (ends : card.memEnd < 2 ^ 32) :
    ∀ place ∈ (stosw .std value count edi video).stores, card.Word place := by
  apply Memory.fill_stores old
  intro index inCount
  rw [next_std (by decide) (by omega) (by omega)]
  unfold Card.Word
  omega

theorem movsl_std {count edi esi : Nat}
    (old : ∀ place ∈ video.stores, card.Word place)
    (above : card.memStart + 4 * count ≤ edi + 4)
    (below : edi + 4 ≤ card.memEnd) (ends : card.memEnd < 2 ^ 32) :
    ∀ place ∈ (movsl .std count edi esi video).stores, card.Word place := by
  apply Memory.move_stores old
  intro index inCount
  rw [next_std (by decide) (by omega) (by omega)]
  unfold Card.Word plus
  omega

end Stores

/-! ## The invariant -/

/-- What holds between the bytes. -/
structure Inside (card : Card) (console : Console) : Prop where
  isCard : console.toCard = card
  placed : Placed console.toCursor
  wide : 8 ≤ console.columns
  inLine : console.x ≤ console.columns
  fits : console.memStart + console.lines * console.sizeRow ≤ console.memEnd
  inMemory : console.scrEnd ≤ console.memEnd
  few : console.npar < nPar
  stores : ∀ place ∈ console.video.stores, console.Word place

namespace Inside

open Console

variable {card : Card} {console : Console}

/-- Only video memory changes. -/
theorem paint {video : Memory} (inside : Inside card console)
    (stores : ∀ place ∈ video.stores, console.Word place) :
    Inside card { console with video } := { inside with stores }

theorem moveUp (inside : Inside card console) : Inside card console.moveUp := by
  obtain ⟨rows, isRows, isCount, sum, most⟩ := inside.placed.rows
  have ends := inside.placed.ends
  have isEnd := inside.placed.scrEnd
  have above := inside.placed.above
  have inMemory := inside.inMemory
  rw [cells] at isEnd
  have isTop : console.sizeRow * console.top =
      2 * (console.top * console.columns) := by
    rw [Nat.mul_comm, cells]
  apply inside.paint
  rw [isCount, isTop]
  have isEdi : (console.origin + 2 * (console.top * console.columns)) %
      2 ^ 32 = console.origin + 2 * (console.top * console.columns) :=
    Nat.mod_eq_of_lt (by omega)
  rw [isEdi]
  refine stosw_cld (movsl_cld inside.stores ?_ ?_ ?_) ?_ ?_ ?_
  · omega
  · omega
  · omega
  · unfold plus
    omega
  · unfold plus
    omega
  · omega

theorem scrup (inside : Inside card console) : Inside card console.scrup := by
  have placed := inside.placed.scrup
  have ends := inside.placed.ends
  have isEnd := inside.placed.scrEnd
  have above := inside.placed.above
  have room := inside.placed.room
  have fits := inside.fits
  have inMemory := inside.inMemory
  have isRow : console.sizeRow = 2 * console.columns := Nat.mul_comm _ _
  unfold Console.scrup at placed ⊢
  split
  · rename_i fast
    rw [if_pos fast] at placed
    split
    · rename_i full
      rw [if_pos full] at placed
      dsimp only at placed ⊢
      split
      · rename_i past
        rw [if_pos past] at placed
        -- the copy has all lines but one
        obtain ⟨rows, _, isMinus, sum⟩ := inside.placed.allRows
        rw [cells] at fits isEnd
        refine { inside with placed, inMemory := ?_, stores := ?_ }
        · rw [placed.scrEnd, cells]
          exact fits
        · dsimp only
          rw [isMinus, Nat.mod_eq_of_lt (by omega)]
          refine stosw_cld (movsl_cld inside.stores ?_ ?_ ?_) ?_ ?_ ?_
          · omega
          · omega
          · omega
          · unfold plus
            omega
          · unfold plus
            omega
          · omega
      · rename_i before
        rw [if_neg before] at placed
        have isNext : plus console.scrEnd console.sizeRow =
            console.scrEnd + console.sizeRow := by
          unfold plus
          omega
        rw [isNext] at before
        refine { inside with placed, inMemory := ?_, stores := ?_ }
        · dsimp only
          rw [isNext]
          omega
        · dsimp only
          rw [isNext]
          have isStart : minus (console.scrEnd + console.sizeRow)
              console.sizeRow = console.scrEnd := by
            unfold minus
            omega
          rw [isStart]
          refine stosw_cld inside.stores ?_ ?_ ?_
          · omega
          · omega
          · omega
    · exact inside.moveUp
  · exact inside.moveUp

theorem scrdown (inside : Inside card console) : Inside card console.scrdown := by
  obtain ⟨rows, isRows, isCount, sum, most⟩ := inside.placed.rows
  have ends := inside.placed.ends
  have isEnd := inside.placed.scrEnd
  have above := inside.placed.above
  have inScreen := inside.placed.inScreen
  have fewLines := inside.placed.fewLines
  have inMemory := inside.inMemory
  have wide := inside.wide
  rw [cells] at isEnd
  have isBottom : console.sizeRow * console.bottom =
      2 * (console.bottom * console.columns) := by
    rw [Nat.mul_comm, cells]
  have isEdi : minus (console.origin + 2 * (console.bottom * console.columns))
      4 = console.origin + 2 * (console.bottom * console.columns) - 4 := by
    unfold minus
    omega
  apply inside.paint
  rw [isCount, isBottom, isEdi]
  refine stosw_std (movsl_std inside.stores ?_ ?_ ?_) ?_ ?_ ?_
  · omega
  · omega
  · omega
  · unfold plus minus
    omega
  · unfold plus minus
    omega
  · omega

theorem lf (inside : Inside card console) : Inside card console.lf := by
  have placed := inside.placed.lf
  unfold Console.lf at placed ⊢
  split
  · rename_i more
    rw [if_pos more] at placed
    exact { inside with placed }
  · exact inside.scrup

theorem ri (inside : Inside card console) : Inside card console.ri := by
  have placed := inside.placed.ri
  unfold Console.ri at placed ⊢
  split
  · rename_i more
    rw [if_pos more] at placed
    exact { inside with placed }
  · exact inside.scrdown

theorem cr (inside : Inside card console) : Inside card console.cr :=
  { inside with
    placed := inside.placed.cr
    inLine := Nat.zero_le _ }

theorem minus_x (inside : Inside card console) (positive : console.x ≠ 0) :
    minus console.x 1 + 1 = console.x := by
  have inLine := inside.inLine
  have fewLines := inside.placed.line
  have starts := inside.placed.starts
  have isRow : console.sizeRow = 2 * console.columns := Nat.mul_comm _ _
  unfold minus
  omega

theorem bs (inside : Inside card console) : Inside card console.bs := by
  have placed := inside.placed.bs
  have inLine := inside.inLine
  unfold Console.bs at placed ⊢
  split
  · rename_i positive
    rw [if_pos positive] at placed
    have isX := inside.minus_x positive
    exact { inside with
      placed
      inLine := by
        dsimp only
        omega }
  · exact inside

/-- Where the word under the cursor is. -/
theorem pos (inside : Inside card console) :
    console.pos = console.origin + 2 * (console.y * console.columns) +
        2 * console.x ∧
      console.y * console.columns + console.columns ≤
        console.lines * console.columns := by
  have isPos := inside.placed.pos
  have isEnd := inside.placed.scrEnd
  have room := inside.placed.room
  have inLine := inside.inLine
  have most := Nat.mul_le_mul_right console.columns inside.placed.line
  rw [Nat.succ_mul] at most
  rw [cells] at isPos isEnd
  refine ⟨?_, most⟩
  rw [isPos]
  exact Nat.mod_eq_of_lt (by omega)

/-- The words from the cursor to the end of its line. -/
theorem word (inside : Inside card console) {index : Nat}
    (inLine : console.x + index < console.columns) :
    console.Word (console.pos + 2 * index) := by
  obtain ⟨isPos, most⟩ := inside.pos
  have above := inside.placed.above
  have isEnd := inside.placed.scrEnd
  have inMemory := inside.inMemory
  rw [cells] at isEnd
  unfold Card.Word
  omega

theorem del (inside : Inside card console) : Inside card console.del := by
  have moved := inside.bs
  unfold Console.bs at moved
  unfold Console.del
  split
  · rename_i positive
    rw [if_pos positive] at moved
    have isX := inside.minus_x positive
    have inLine := inside.inLine
    apply moved.paint
    exact List.forall_mem_cons.mpr ⟨@word _ _ moved 0 (by
      dsimp only
      omega), moved.stores⟩
  · exact inside

/-! ## The end of a line -/

theorem print {c : Nat} (inside : Inside card console) :
    Inside card (console.print c) := by
  have inLine := inside.inLine
  have wide := inside.wide
  have room := inside.placed.room
  have isRow : console.sizeRow = 2 * console.columns := Nat.mul_comm _ _
  obtain ⟨start, isStart, startInside, below⟩ : ∃ start,
      (if console.x ≥ console.columns then console.wrap else console) = start ∧
        Inside card start ∧ start.x < start.columns := by
    split
    · have isZero : minus console.x console.columns = 0 := by
        unfold minus
        omega
      have passed : Inside card { console with
          x := minus console.x console.columns
          pos := minus console.pos console.sizeRow } :=
        { inside with
          placed := inside.placed.passed
          inLine := by
            dsimp only
            omega }
      have wrapped : Inside card console.wrap := passed.lf
      refine ⟨console.wrap, rfl, wrapped, ?_⟩
      have isX : console.wrap.x = 0 := (lf_x _).trans isZero
      have wrappedWide := wrapped.wide
      omega
    · exact ⟨console, rfl, inside, by omega⟩
  have placed := @Placed.print console c inside.placed
  have word := @word _ start startInside 0 below
  unfold Console.print at placed ⊢
  rw [isStart] at placed ⊢
  have startRoom := startInside.placed.room
  have startRow : start.sizeRow = 2 * start.columns := Nat.mul_comm _ _
  exact { startInside with
    placed
    inLine := by
      dsimp only [plus]
      omega
    stores := List.forall_mem_cons.mpr ⟨word, startInside.stores⟩ }

theorem tab (inside : Inside card console) : Inside card console.tab := by
  have inLine := inside.inLine
  have wide := inside.wide
  have room := inside.placed.room
  have isRow : console.sizeRow = 2 * console.columns := Nat.mul_comm _ _
  have moved := inside.placed.advanced (8 - console.x % 8)
  have isX : plus console.x (8 - console.x % 8) =
      console.x + (8 - console.x % 8) := by
    unfold plus
    omega
  unfold Console.tab
  dsimp only
  rw [isX] at moved ⊢
  split
  · rename_i past
    -- a tab is no wider than a line
    have back : minus (console.x + (8 - console.x % 8)) console.columns =
        console.x + (8 - console.x % 8) - console.columns := by
      unfold minus
      omega
    have passed : Inside card { console with
        x := minus (console.x + (8 - console.x % 8)) console.columns
        pos := minus (plus console.pos (2 * (8 - console.x % 8)))
          console.sizeRow } :=
      { inside with
        placed := moved.passed
        inLine := by
          dsimp only
          omega }
    exact passed.lf
  · rename_i within
    exact { inside with
      placed := moved
      inLine := by
        dsimp only
        omega }

/-! ## Control sequences -/

theorem gotoxy {newX newY : Nat} (inside : Inside card console) :
    Inside card (console.gotoxy newX newY) := by
  have placed := @Placed.gotoxy console newX newY inside.placed
  unfold Console.gotoxy at placed ⊢
  split
  · exact inside
  · rename_i accepted
    rw [if_neg accepted] at placed
    exact { inside with
      placed
      inLine := by
        dsimp only
        omega }

theorem csiJ {par : Nat} (inside : Inside card console) :
    Inside card (console.csiJ par) := by
  obtain ⟨isPos, most⟩ := inside.pos
  have above := inside.placed.above
  have isEnd := inside.placed.scrEnd
  have inMemory := inside.inMemory
  have inLine := inside.inLine
  have ends := inside.placed.ends
  rw [cells] at isEnd
  unfold Console.csiJ
  dsimp only
  split
  · apply inside.paint
    refine stosw_cld inside.stores ?_ ?_ ?_
    · omega
    · unfold minus
      omega
    · omega
  split
  · apply inside.paint
    refine stosw_cld inside.stores ?_ ?_ ?_
    · omega
    · unfold minus
      omega
    · omega
  split
  · apply inside.paint
    rw [Nat.mul_comm console.columns]
    refine stosw_cld inside.stores ?_ ?_ ?_
    · omega
    · omega
    · omega
  · exact inside

theorem csiK {par : Nat} (inside : Inside card console) :
    Inside card (console.csiK par) := by
  obtain ⟨isPos, most⟩ := inside.pos
  have above := inside.placed.above
  have isEnd := inside.placed.scrEnd
  have inMemory := inside.inMemory
  have inLine := inside.inLine
  have ends := inside.placed.ends
  rw [cells] at isEnd
  have isStart : minus console.pos (2 * console.x) =
      console.origin + 2 * (console.y * console.columns) := by
    unfold minus
    omega
  unfold Console.csiK
  dsimp only
  rw [isStart]
  split
  · split
    · exact inside
    · apply inside.paint
      refine stosw_cld inside.stores ?_ ?_ ?_
      · omega
      · omega
      · omega
  split
  · apply inside.paint
    refine stosw_cld inside.stores ?_ ?_ ?_
    · omega
    · split
      · omega
      · omega
    · omega
  split
  · apply inside.paint
    refine stosw_cld inside.stores ?_ ?_ ?_
    · omega
    · omega
    · omega
  · exact inside

theorem insertWords_stores {Good : Nat → Prop} {count p old : Nat}
    {video : Memory} (stores : ∀ place ∈ video.stores, Good place)
    (small : p + 2 * count < 2 ^ 32)
    (new : ∀ index, index < count → Good (p + 2 * index)) :
    ∀ place ∈ (insertWords count p old video).stores, Good place := by
  induction count generalizing p old video with
  | zero => exact stores
  | succ count induction =>
      have isNext : plus p 2 = p + 2 := Nat.mod_eq_of_lt (by omega)
      unfold insertWords
      rw [isNext]
      apply induction
      · exact List.forall_mem_cons.mpr ⟨new 0 (Nat.succ_pos count), stores⟩
      · omega
      · intro index below
        have later := new (index + 1) (by omega)
        rw [Nat.mul_succ] at later
        rwa [Nat.add_assoc, Nat.add_comm 2]

theorem deleteWords_stores {Good : Nat → Prop} {count p : Nat}
    {video : Memory} (stores : ∀ place ∈ video.stores, Good place)
    (small : p + 2 * count < 2 ^ 32)
    (new : ∀ index, index ≤ count → Good (p + 2 * index)) :
    ∀ place ∈ (deleteWords count p video).stores, Good place := by
  induction count generalizing p video with
  | zero => exact List.forall_mem_cons.mpr ⟨new 0 (Nat.le_refl 0), stores⟩
  | succ count induction =>
      have isNext : plus p 2 = p + 2 := Nat.mod_eq_of_lt (by omega)
      unfold deleteWords
      rw [isNext]
      apply induction
      · exact List.forall_mem_cons.mpr ⟨new 0 (Nat.zero_le _), stores⟩
      · omega
      · intro index below
        have later := new (index + 1) (by omega)
        rw [Nat.mul_succ] at later
        rwa [Nat.add_assoc, Nat.add_comm 2]

/-- A line ends below the end of the address space. -/
theorem small (inside : Inside card console) :
    console.pos + 2 * (console.columns - console.x) < 2 ^ 32 := by
  obtain ⟨isPos, most⟩ := inside.pos
  have isEnd := inside.placed.scrEnd
  have room := inside.placed.room
  have inLine := inside.inLine
  rw [cells] at isEnd
  omega

theorem insertChar (inside : Inside card console) : Inside card console.insertChar := by
  apply inside.paint
  apply insertWords_stores inside.stores inside.small
  intro index below
  exact inside.word (by omega)

theorem deleteChar (inside : Inside card console) : Inside card console.deleteChar := by
  have small := inside.small
  unfold Console.deleteChar
  split
  · exact inside
  · apply inside.paint
    apply deleteWords_stores inside.stores
    · omega
    · intro index below
      exact inside.word (by omega)

/-- The screen from the cursor on as a scroll region. -/
theorem below (inside : Inside card console) : Inside card { console with
    top := console.y, bottom := console.lines } :=
  { inside with
    placed := inside.placed.margins inside.placed.line (Nat.le_refl _) }

/-- The old margins again. -/
theorem restored {top bottom : Nat} (inside : Inside card console)
    (region : top < bottom) (inScreen : bottom ≤ console.lines) :
    Inside card { console with top, bottom } :=
  { inside with placed := inside.placed.margins region inScreen }

theorem insertLine (inside : Inside card console) : Inside card console.insertLine :=
  inside.below.scrdown.restored inside.placed.region inside.placed.inScreen

theorem deleteLine (inside : Inside card console) : Inside card console.deleteLine := by
  apply inside.below.scrup.restored inside.placed.region
  rw [scrup_lines]
  exact inside.placed.inScreen

end Inside

/-- Every byte keeps the console inside. -/
theorem inside_kept (card : Card) :
    Kept fun left right => left = right ∧ Inside card left where
  parser related := congrArg Console.toParser related.1.symm
  cursor related := by
    obtain ⟨rfl, _⟩ := related
    exact ⟨rfl, rfl, rfl, rfl⟩
  setParser parser few related := by
    obtain ⟨rfl, inside⟩ := related
    exact ⟨rfl, { inside with few := few inside.few }⟩
  margins related region inScreen := by
    obtain ⟨rfl, inside⟩ := related
    exact ⟨rfl, inside.restored region inScreen⟩
  gotoxy _ _ related := ⟨congrArg _ related.1, related.2.gotoxy⟩
  lf related := ⟨congrArg _ related.1, related.2.lf⟩
  ri related := ⟨congrArg _ related.1, related.2.ri⟩
  cr related := ⟨congrArg _ related.1, related.2.cr⟩
  bs related := ⟨congrArg _ related.1, related.2.bs⟩
  del related := ⟨congrArg _ related.1, related.2.del⟩
  tab related := ⟨congrArg _ related.1, related.2.tab⟩
  print _ related := ⟨congrArg _ related.1, related.2.print⟩
  csiJ _ related := ⟨congrArg _ related.1, related.2.csiJ⟩
  csiK _ related := ⟨congrArg _ related.1, related.2.csiK⟩
  insertChar related := ⟨congrArg _ related.1, related.2.insertChar⟩
  deleteChar related := ⟨congrArg _ related.1, related.2.deleteChar⟩
  insertLine related := ⟨congrArg _ related.1, related.2.insertLine⟩
  deleteLine related := ⟨congrArg _ related.1, related.2.deleteLine⟩

theorem card_facts (setup : Setup) :
    setup.card.lines = 25 ∧ setup.card.columns = setup.cols ∧
      setup.card.memStart < setup.card.memEnd ∧
      setup.card.memEnd ≤ 0xbc000 := by
  unfold Setup.card
  split
  · split
    · exact ⟨rfl, rfl, by dsimp only; omega, by dsimp only; omega⟩
    · exact ⟨rfl, rfl, by dsimp only; omega, by dsimp only; omega⟩
  · split
    · exact ⟨rfl, rfl, by dsimp only; omega, by dsimp only; omega⟩
    · exact ⟨rfl, rfl, by dsimp only; omega, by dsimp only; omega⟩

section Boot

variable {setup : Setup} {words : Nat → Nat}

theorem conStart_inside (wide : 8 ≤ setup.cols)
    (fits : setup.card.lines * setup.card.sizeRow ≤
      setup.card.memEnd - setup.card.memStart)
    {x y pos : Nat} (inLine : x ≤ setup.cols) (line : y < 25)
    (isPos : pos = (setup.card.memStart + y * setup.card.sizeRow + 2 * x) %
      2 ^ 32) :
    Inside setup.card { conStart setup words with x, y, pos } := by
  obtain ⟨lines, columns, some, below⟩ := card_facts setup
  have isRow : setup.card.sizeRow = 2 * setup.card.columns := Nat.mul_comm _ _
  have few : setup.cols < 256 := Nat.mod_lt _ (by decide)
  have isSize : setup.card.lines * setup.card.sizeRow =
      50 * setup.card.columns := by
    rw [lines]
    omega
  have placed : Placed { (conStart setup words).toCursor with x, y, pos } := by
    refine ⟨?_, Nat.le_refl _, ?_, isPos, rfl, Nat.le_refl _, ?_, ?_, ?_, ?_⟩
    all_goals dsimp only [conStart]
    all_goals omega
  refine ⟨rfl, placed, ?_, ?_, ?_, ?_, show 0 < nPar by decide, nofun⟩
  all_goals dsimp only [conStart]
  all_goals omega

/-- What `con_init` sets up, if `gotoxy` accepts where the cursor was. -/
theorem conInit_inside
    (accepted : setup.origX ≤ setup.cols ∧ setup.origY < 25)
    (wide : 8 ≤ setup.cols)
    (fits : setup.card.lines * setup.card.sizeRow ≤
      setup.card.memEnd - setup.card.memStart) :
    Inside setup.card (conInit setup words) := by
  obtain ⟨lines, columns, _, _⟩ := card_facts setup
  have start := @conStart_inside setup words wide fits _ _ _ accepted.1
    accepted.2 rfl
  have isStart : conInit setup words = { conStart setup words with
      x := setup.origX
      y := setup.origY
      pos := (setup.card.memStart + setup.origY * setup.card.sizeRow +
        2 * setup.origX) % 2 ^ 32 } := by
    apply if_neg
    have sameColumns : (conStart setup words).columns = setup.cols := columns
    have sameLines : (conStart setup words).lines = 25 := lines
    rw [sameColumns, sameLines]
    omega
  rw [isStart]
  exact start

/-- Whatever calls of `con_write` there have been, every store was one to
video memory, and the cursor is on the screen. -/
theorem conWrite_inside
    (accepted : setup.origX ≤ setup.cols ∧ setup.origY < 25)
    (wide : 8 ≤ setup.cols)
    (fits : setup.card.lines * setup.card.sizeRow ≤
      setup.card.memEnd - setup.card.memStart)
    (calls : List (Nat × List Nat)) {console : Console}
    (written : calls.foldl (fun console call =>
      console.conWrite call.1 call.2) (conInit setup words) = console) :
    (∀ place ∈ console.video.stores,
      setup.card.memStart ≤ place ∧ place + 2 ≤ setup.card.memEnd) ∧
    console.x ≤ setup.card.columns ∧ console.y < setup.card.lines ∧
    console.pos =
      console.origin + console.y * setup.card.sizeRow + 2 * console.x ∧
    console.scrEnd =
      console.origin + setup.card.lines * setup.card.sizeRow ∧
    console.scrEnd ≤ setup.card.memEnd ∧ console.top < console.bottom ∧
    console.bottom ≤ setup.card.lines ∧ console.npar < nPar := by
  have start := @conInit_inside setup words accepted wide fits
  generalize conInit setup words = first at start written
  have inside : Inside setup.card console := by
    induction calls generalizing first with
    | nil =>
        rw [← written]
        exact start
    | cons call rest induction =>
        apply induction (first.conWrite call.1 call.2) _ written
        exact ((inside_kept setup.card).conWrite call.1 call.2 ⟨rfl, start⟩).2
  have isCard := inside.isCard
  have isPos := inside.pos.1
  rw [← cells] at isPos
  rw [← isCard]
  exact ⟨inside.stores, inside.inLine, inside.placed.line, isPos,
    inside.placed.scrEnd, inside.inMemory, inside.placed.region,
    inside.placed.inScreen, inside.few⟩

/-- A colour card of 80 columns with the cursor in the last line. -/
def egaSetup : Setup := ⟨0, 24, 0x5003, 3⟩

/-- A line is printed and scrolled, another one put in at the top. -/
def consoleBytes : List Nat :=
  [65, 10, 27, 91, 72, 27, 91, 76, 27, 91, 66]

theorem conWrite_inside_scrolled :
    ((conInit egaSetup fun _ => 0).conWrite 127 consoleBytes).y = 1 ∧
    ∀ place ∈ ((conInit egaSetup fun _ => 0).conWrite 127
      consoleBytes).video.stores,
      egaSetup.card.memStart ≤ place ∧ place + 2 ≤ egaSetup.card.memEnd := by
  refine ⟨by decide +kernel, ?_⟩
  have written : [(127, consoleBytes)].foldl (fun console call =>
      console.conWrite call.1 call.2) (conInit egaSetup fun _ => 0) =
        (conInit egaSetup fun _ => 0).conWrite 127 consoleBytes := by
    rw [List.foldl_cons, List.foldl_nil]
  exact (conWrite_inside (by decide) (by decide) (by decide) _ written).1

end Boot

end Linux011.Chr
