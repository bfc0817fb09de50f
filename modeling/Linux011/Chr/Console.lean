import Mathlib.Algebra.Group.Nat.Defs
import Linux011.Library.StringMoves

/-!
# The console

`console.c`.  Video memory is a memory of 16-bit words at even addresses; an
`unsigned long` is a number below `2^32`.
-/

namespace Linux011.Chr

open StringMoves

/-! ## Unsigned arithmetic and the direction flag -/

def plus (left right : Nat) : Nat := (left + right) % 2 ^ 32

def minus (left right : Nat) : Nat :=
  (2 ^ 32 - right % 2 ^ 32 + left) % 2 ^ 32

/-- What `cld` and `std` make of the pointers of a string instruction. -/
inductive Direction where
  | cld
  | std

def Direction.next (direction : Direction) (bytes address : Nat) : Nat :=
  match direction with
  | .cld => plus address bytes
  | .std => minus address bytes

/-- `rep stosw`: `count` times a word to `edi`. -/
def stosw (direction : Direction) (value count edi : Nat) : Memory → Memory :=
  Memory.fill (direction.next 2) value count edi

/-- `rep movsl`: `count` times two words from `esi` to `edi`. -/
def movsl (direction : Direction) (count edi esi : Nat) : Memory → Memory :=
  Memory.move (direction.next 4) (plus · 2) count edi esi

/-! ## State -/

/-- `video_type`. -/
inductive VideoType where
  | mda
  | cga
  | egam
  | egac
  deriving DecidableEq

/-- `video_num_columns`, `video_num_lines`, `video_mem_start` and
`video_mem_end`; they do not change after `con_init`. -/
structure Card where
  videoType : VideoType
  columns : Nat
  lines : Nat
  memStart : Nat
  memEnd : Nat

/-- `video_size_row`. -/
def Card.sizeRow (card : Card) : Nat := card.columns * 2

structure Cursor extends Card where
  origin : Nat
  scrEnd : Nat
  pos : Nat
  x : Nat
  y : Nat
  top : Nat
  bottom : Nat

/-- What escape sequences leave behind. -/
structure Parser where
  state : Nat
  npar : Nat
  par : Nat → Nat
  ques : Bool
  attr : Nat
  savedX : Nat
  savedY : Nat

structure Console extends Cursor, Parser where
  video : Memory

/-- `NPAR`. -/
def nPar : Nat := 16

/-- `video_erase_char`. -/
def eraseWord : Nat := 0x0720

/-! ## The cursor -/

namespace Console

/-- It thinks `x == video_num_columns` is ok. -/
def gotoxy (newX newY : Nat) (console : Console) : Console :=
  if newX > console.columns ∨ newY ≥ console.lines then console
  else
    { console with
      x := newX
      y := newY
      pos := (console.origin + newY * console.sizeRow + 2 * newX) % 2 ^ 32 }

/-- The lines from `top` to `bottom` one up, in video memory. -/
def moveUp (console : Console) : Console :=
  let count := minus (minus console.bottom console.top) 1 *
    console.columns % 2 ^ 32 / 2
  let edi := (console.origin + console.sizeRow * console.top) % 2 ^ 32
  let esi := (console.origin + console.sizeRow * (console.top + 1)) % 2 ^ 32
  let video := movsl .cld count edi esi console.video
  { console with
    video := stosw .cld eraseWord console.columns (plus edi (4 * count)) video }

def scrup (console : Console) : Console :=
  if console.videoType = .egac ∨ console.videoType = .egam then
    if console.top = 0 ∧ console.bottom = console.lines then
      let console := { console with
        origin := plus console.origin console.sizeRow
        pos := plus console.pos console.sizeRow
        scrEnd := plus console.scrEnd console.sizeRow }
      if console.scrEnd > console.memEnd then
        let count := minus console.lines 1 * console.columns % 2 ^ 32 / 2
        let video := movsl .cld count console.memStart console.origin
          console.video
        let video := stosw .cld eraseWord console.columns
          (plus console.memStart (4 * count)) video
        let moved := minus console.origin console.memStart
        { console with
          video
          scrEnd := minus console.scrEnd moved
          pos := minus console.pos moved
          origin := console.memStart }
      else
        { console with
          video := stosw .cld eraseWord console.columns
            (minus console.scrEnd console.sizeRow) console.video }
    else console.moveUp
  else console.moveUp

/-- Both kinds of cards do the same here. -/
def scrdown (console : Console) : Console :=
  let count := minus (minus console.bottom console.top) 1 *
    console.columns % 2 ^ 32 / 2
  let edi := minus (console.origin + console.sizeRow * console.bottom) 4
  let esi := minus (console.origin +
    console.sizeRow * minus console.bottom 1) 4
  let video := movsl .std count edi esi console.video
  { console with
    video := stosw .std eraseWord console.columns
      (plus (minus edi (4 * count)) 2) video }

def lf (console : Console) : Console :=
  if plus console.y 1 < console.bottom then
    { console with
      y := plus console.y 1
      pos := plus console.pos console.sizeRow }
  else console.scrup

def ri (console : Console) : Console :=
  if console.y > console.top then
    { console with
      y := minus console.y 1
      pos := minus console.pos console.sizeRow }
  else console.scrdown

def cr (console : Console) : Console :=
  { console with
    pos := minus console.pos (2 * console.x)
    x := 0 }

/-- A backspace. -/
def bs (console : Console) : Console :=
  if console.x ≠ 0 then
    { console with
      x := minus console.x 1
      pos := minus console.pos 2 }
  else console

def del (console : Console) : Console :=
  if console.x ≠ 0 then
    let console := { console with
      pos := minus console.pos 2
      x := minus console.x 1 }
    { console with video := console.video.store console.pos eraseWord }
  else console

/-! ## Control sequences -/

def csiJ (par : Nat) (console : Console) : Console :=
  let erase (count start : Nat) : Console :=
    { console with video := stosw .cld eraseWord count start console.video }
  if par = 0 then erase (minus console.scrEnd console.pos / 2) console.pos
  else if par = 1 then
    erase (minus console.pos console.origin / 2) console.origin
  else if par = 2 then
    erase (console.columns * console.lines % 2 ^ 32) console.origin
  else console

def csiK (par : Nat) (console : Console) : Console :=
  let erase (count start : Nat) : Console :=
    { console with video := stosw .cld eraseWord count start console.video }
  let start := minus console.pos (2 * console.x)
  if par = 0 then
    if console.x ≥ console.columns then console
    else erase (console.columns - console.x) console.pos
  else if par = 1 then
    erase (if console.x < console.columns then console.x else console.columns)
      start
  else if par = 2 then erase console.columns start
  else console

/-- `attr` after the parameters so far. -/
def csiSmallM (console : Console) : Console :=
  { console with
    attr := (List.range (console.npar + 1)).foldl (fun attr index =>
      match console.par index with
      | 0 => 0x07
      | 1 => 0x0f
      | 4 => 0x0f
      | 7 => 0x70
      | 27 => 0x07
      | _ => attr) console.attr }

/-- The loop of `insert_char`; `count` words are left in the line. -/
def insertWords : Nat → Nat → Nat → Memory → Memory
  | 0, _, _, video => video
  | count + 1, p, old, video =>
      insertWords count (plus p 2) (video.word p) (video.store p old)

def insertChar (console : Console) : Console :=
  { console with
    video := insertWords (console.columns - console.x) console.pos eraseWord
      console.video }

/-- The loop of `delete_char`. -/
def deleteWords : Nat → Nat → Memory → Memory
  | 0, p, video => video.store p eraseWord
  | count + 1, p, video =>
      deleteWords count (plus p 2) (video.store p (video.word (plus p 2)))

def deleteChar (console : Console) : Console :=
  if console.x ≥ console.columns then console
  else
    { console with
      video := deleteWords (console.columns - console.x - 1) console.pos
        console.video }

/-- The lines from the cursor on scroll, whatever the margins are. -/
def belowCursor (scroll : Console → Console) (console : Console) : Console :=
  { scroll { console with top := console.y, bottom := console.lines } with
    top := console.top
    bottom := console.bottom }

def insertLine (console : Console) : Console := belowCursor scrdown console

def deleteLine (console : Console) : Console := belowCursor scrup console

/-- How often a sequence with the parameter `nr` is done. -/
def times (nr most : Nat) : Nat :=
  if nr > most then most else if nr = 0 then 1 else nr

def csiAt (nr : Nat) (console : Console) : Console :=
  insertChar^[times nr console.columns] console

def csiL (nr : Nat) (console : Console) : Console :=
  insertLine^[times nr console.lines] console

def csiP (nr : Nat) (console : Console) : Console :=
  deleteChar^[times nr console.columns] console

def csiM (nr : Nat) (console : Console) : Console :=
  deleteLine^[times nr console.lines] console

def saveCur (console : Console) : Console :=
  { console with savedX := console.x, savedY := console.y }

def restoreCur (console : Console) : Console :=
  console.gotoxy console.savedX console.savedY

/-! ## `con_write` -/

/-- A `char` of the queue is signed. -/
def signed (byte : Nat) : Int := if byte < 128 then byte else (byte : Int) - 256

def code (char : Char) : Int := char.toNat

def setPar (index value : Nat) (console : Console) : Console :=
  { console with
    par := fun other => if other = index then value else console.par other }

/-- `if (!par[0]) par[0]++`. -/
def atLeastOne (console : Console) : Console :=
  if console.par 0 = 0 then console.setPar 0 1 else console

/-- `if (par[index]) par[index]--`. -/
def oneLess (index : Nat) (console : Console) : Console :=
  if console.par index ≠ 0 then
    console.setPar index (minus (console.par index) 1)
  else console

/-- The end of a line has been passed. -/
def wrap (console : Console) : Console :=
  lf { console with
    x := minus console.x console.columns
    pos := minus console.pos console.sizeRow }

def print (c : Nat) (console : Console) : Console :=
  let console := if console.x ≥ console.columns then console.wrap else console
  { console with
    video := console.video.store console.pos (console.attr * 256 + c)
    pos := plus console.pos 2
    x := plus console.x 1 }

def tab (console : Console) : Console :=
  let c := 8 - console.x % 8
  let console := { console with
    x := plus console.x c
    pos := plus console.pos (2 * c) }
  if console.x > console.columns then console.wrap else console

/-- State 0.  A beep is not on the screen. -/
def plain (eraseChar : Nat) (c : Int) (console : Console) : Console :=
  if 31 < c ∧ c < 127 then console.print c.toNat
  else if c = 27 then { console with state := 1 }
  else if c = 10 ∨ c = 11 ∨ c = 12 then console.lf
  else if c = 13 then console.cr
  else if c = eraseChar then console.del
  else if c = 8 then console.bs
  else if c = 9 then console.tab
  else console

/-- State 1.  The answer to `Z` goes to the queue of the keyboard; what a
nested `con_write` takes meanwhile comes next.  The last two branches look at
`x`, as in the source. -/
def escape (c : Int) (console : Console) : Console :=
  if c = code '[' then { console with state := 2 }
  else if c = code 'E' then console.gotoxy 0 (plus console.y 1)
  else if c = code 'M' then console.ri
  else if c = code 'D' then console.lf
  else if c = code 'Z' then console
  else if console.x = '7'.toNat then console.saveCur
  else if console.x = '8'.toNat then console.restoreCur
  else console

/-- `top` and `bottom` from the parameters. -/
def margins (console : Console) : Console :=
  let console := console.oneLess 0
  let console :=
    if console.par 1 = 0 then console.setPar 1 console.lines else console
  if console.par 0 < console.par 1 ∧ console.par 1 ≤ console.lines then
    { console with top := console.par 0, bottom := console.par 1 }
  else console

/-- State 4; 96 is a grave accent. -/
def command (c : Int) (console : Console) : Console :=
  if c = code 'G' ∨ c = 96 then
    let console := console.oneLess 0
    console.gotoxy (console.par 0) console.y
  else if c = code 'A' then
    let console := console.atLeastOne
    console.gotoxy console.x (minus console.y (console.par 0))
  else if c = code 'B' ∨ c = code 'e' then
    let console := console.atLeastOne
    console.gotoxy console.x (plus console.y (console.par 0))
  else if c = code 'C' ∨ c = code 'a' then
    let console := console.atLeastOne
    console.gotoxy (plus console.x (console.par 0)) console.y
  else if c = code 'D' then
    let console := console.atLeastOne
    console.gotoxy (minus console.x (console.par 0)) console.y
  else if c = code 'E' then
    let console := console.atLeastOne
    console.gotoxy 0 (plus console.y (console.par 0))
  else if c = code 'F' then
    let console := console.atLeastOne
    console.gotoxy 0 (minus console.y (console.par 0))
  else if c = code 'd' then
    let console := console.oneLess 0
    console.gotoxy console.x (console.par 0)
  else if c = code 'H' ∨ c = code 'f' then
    let console := (console.oneLess 0).oneLess 1
    console.gotoxy (console.par 1) (console.par 0)
  else if c = code 'J' then console.csiJ (console.par 0)
  else if c = code 'K' then console.csiK (console.par 0)
  else if c = code 'L' then console.csiL (console.par 0)
  else if c = code 'M' then console.csiM (console.par 0)
  else if c = code 'P' then console.csiP (console.par 0)
  else if c = code '@' then console.csiAt (console.par 0)
  else if c = code 'm' then console.csiSmallM
  else if c = code 'r' then console.margins
  else if c = code 's' then console.saveCur
  else if c = code 'u' then console.restoreCur
  else console

/-- State 3, which falls through to state 4. -/
def parameter (c : Int) (console : Console) : Console :=
  if c = code ';' ∧ console.npar < nPar - 1 then
    { console with npar := console.npar + 1 }
  else if code '0' ≤ c ∧ c ≤ code '9' then
    console.setPar console.npar
      ((10 * console.par console.npar + (c - code '0').toNat) % 2 ^ 32)
  else command c { console with state := 0 }

/-- State 2, which falls through to state 3. -/
def sequence (c : Int) (console : Console) : Console :=
  let console := { console with
    par := fun index => if index < nPar then 0 else console.par index
    npar := 0
    state := 3
    ques := c == code '?' }
  if console.ques then console else console.parameter c

/-- One turn of the loop of `con_write`. -/
def conByte (eraseChar byte : Nat) (console : Console) : Console :=
  let c := signed byte
  match console.state with
  | 0 => console.plain eraseChar c
  | 1 => escape c { console with state := 0 }
  | 2 => console.sequence c
  | 3 => console.parameter c
  | 4 => command c { console with state := 0 }
  | _ => console

/-- `con_write` of a terminal with `ERASE_CHAR` `eraseChar`, for the bytes of
its queue. -/
def conWrite (eraseChar : Nat) (bytes : List Nat) (console : Console) :
    Console :=
  bytes.foldl (fun console byte => console.conByte eraseChar byte) console

end Console

/-! ## `con_init` -/

/-- What setup.s left: `ORIG_X`, `ORIG_Y`, the word of `ORIG_VIDEO_MODE` and
`ORIG_VIDEO_COLS`, and `ORIG_VIDEO_EGA_BX`. -/
structure Setup where
  origX : Nat
  origY : Nat
  videoMode : Nat
  egaBx : Nat

/-- `ORIG_VIDEO_COLS`. -/
def Setup.cols (setup : Setup) : Nat := setup.videoMode / 2 ^ 8 % 2 ^ 8

def Setup.card (setup : Setup) : Card :=
  if setup.videoMode % 2 ^ 8 = 7 then
    if setup.egaBx % 2 ^ 8 ≠ 0x10 then
      ⟨.egam, setup.cols, 25, 0xb0000, 0xb8000⟩
    else ⟨.mda, setup.cols, 25, 0xb0000, 0xb2000⟩
  else
    if setup.egaBx % 2 ^ 8 ≠ 0x10 then
      ⟨.egac, setup.cols, 25, 0xb8000, 0xbc000⟩
    else ⟨.cga, setup.cols, 25, 0xb8000, 0xba000⟩

/-- `display_desc`. -/
def VideoType.desc : VideoType → List Char
  | .mda => ['*', 'M', 'D', 'A']
  | .cga => ['*', 'C', 'G', 'A']
  | .egam => ['E', 'G', 'A', 'm']
  | .egac => ['E', 'G', 'A', 'c']

/-- Characters for the low bytes of the words from an address on. -/
def display : List Char → Nat → (Nat → Nat) → Nat → Nat
  | [], _, words => words
  | char :: rest, address, words =>
      display rest (address + 2) fun other =>
        if other = address then words other / 256 * 256 + char.toNat
        else words other

/-- The console when `con_init` calls `gotoxy`. -/
def conStart (setup : Setup) (words : Nat → Nat) : Console :=
  let card := setup.card
  { card with
    origin := card.memStart
    scrEnd := card.memStart + card.lines * card.sizeRow
    pos := 0
    x := 0
    y := 0
    top := 0
    bottom := card.lines
    state := 0
    npar := 0
    par := fun _ => 0
    ques := false
    attr := 0x07
    savedX := 0
    savedY := 0
    video :=
      ⟨display card.videoType.desc
        (minus (card.memStart + card.sizeRow) 8) words, []⟩ }

/-- The console that `con_init` sets up, before anything is written. -/
def conInit (setup : Setup) (words : Nat → Nat) : Console :=
  (conStart setup words).gotoxy setup.origX setup.origY

end Linux011.Chr
