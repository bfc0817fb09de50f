import Mathlib.Algebra.Group.Nat.Defs
import Linux011.Library.Machine
import Linux011.Library.RingQueue

/-!
# Terminals

`tty_io.c`, `tty_ioctl.c` and the interrupts of rs_io.s and keyboard.S, for
one terminal.  A step is one turn of a loop, so that reader, writer and
interrupts may follow each other in any order.  A `char` is signed.
-/

namespace Linux011.Chr

open Machines RingQueues

/-! ## Queues -/

/-- `TTY_BUF_SIZE`. -/
def ttyBufSize : Nat := 1024

/-- `overrun` remembers that a `PUTCH` has found the queue full. -/
structure TtyQueue extends RingQueue Int where
  data : Nat
  overrun : Bool

namespace TtyQueue

/-- `EMPTY`. -/
def empty (queue : TtyQueue) : Bool := queue.head == queue.tail

/-- `LEFT`. -/
def room (queue : TtyQueue) : Nat := queue.left ttyBufSize

/-- `FULL`. -/
def full (queue : TtyQueue) : Bool := queue.room == 0

/-- The characters in the queue. -/
def chars (queue : TtyQueue) : List Int := queue.contents ttyBufSize

/-- `PUTCH`. -/
def putch (c : Int) (queue : TtyQueue) : TtyQueue where
  toRingQueue := queue.put ttyBufSize c
  data := queue.data
  overrun := queue.overrun || queue.full

/-- `GETCH`; the character is at the tail. -/
def getch (queue : TtyQueue) : TtyQueue :=
  { queue with toRingQueue := queue.get ttyBufSize }

/-- `DEC` of the head. -/
def dec (queue : TtyQueue) : TtyQueue :=
  { queue with toRingQueue := queue.back ttyBufSize }

/-- `flush` of tty_ioctl.c. -/
def flush (queue : TtyQueue) : TtyQueue := { queue with head := queue.tail }

/-- The stores of `read_char` and `put_queue`, from `place` on; the head stays
where it is if one of the characters does not fit. -/
def offer : List Int → Nat → TtyQueue → TtyQueue
  | [], place, queue => { queue with head := place }
  | c :: rest, place, queue =>
      let queue := { queue with
        buf := fun cell => if cell = place then c else queue.buf cell }
      let next := (place + 1) % ttyBufSize
      if next = queue.tail then queue else offer rest next queue

end TtyQueue

/-! ## Terminals -/

structure Termios where
  iflag : Nat
  oflag : Nat
  cflag : Nat
  lflag : Nat
  line : Nat
  cc : Nat → Nat

def iNLCR : Nat := 0o100
def iGNCR : Nat := 0o200
def iCRNL : Nat := 0o400
def iUCLC : Nat := 0o1000
def iSIG : Nat := 0o1
def iCANON : Nat := 0o2
def eCHO : Nat := 0o10
def eCHOCTL : Nat := 0o1000

def vINTR : Nat := 0
def vQUIT : Nat := 1
def vERASE : Nat := 2
def vKILL : Nat := 3
def vEOF : Nat := 4
def vTIME : Nat := 5
def vMIN : Nat := 6
def vSTART : Nat := 8
def vSTOP : Nat := 9

def flag (flags mask : Nat) : Bool := flags &&& mask != 0

/-- The console, or a serial line. -/
inductive Driver where
  | console
  | serial
  deriving DecidableEq

/-- `stray` tells which characters below -1 `isupper` accepts: it looks for
them before its table.  `killing` is set while `copy_to_cooked` is in the loop
that kills a line. -/
structure Tty where
  driver : Driver
  termios : Termios
  stopped : Bool
  readQ : TtyQueue
  writeQ : TtyQueue
  secondary : TtyQueue
  stray : Int → Bool
  killing : Bool

/-- A number as a `char`. -/
def toChar (value : Int) : Int := (value + 128) % 256 - 128

namespace Tty

def iFlag (mask : Nat) (tty : Tty) : Bool := flag tty.termios.iflag mask

def lFlag (mask : Nat) (tty : Tty) : Bool := flag tty.termios.lflag mask

/-- A control character, which is unsigned. -/
def cc (index : Nat) (tty : Tty) : Int := (tty.termios.cc index : Int)

/-- A newline or the `EOF_CHAR`. -/
def ends (c : Int) (tty : Tty) : Bool := c == 10 || c == tty.cc vEOF

/-- `tty->write`: `con_write` takes all characters, `rs_write` only sees to it
that there will be interrupts. -/
def write (tty : Tty) : Tty :=
  match tty.driver with
  | .console =>
      { tty with writeQ := { tty.writeQ with tail := tty.writeQ.head } }
  | .serial => tty

/-! ## `copy_to_cooked` -/

def tolower (c : Int) (tty : Tty) : Int :=
  if (if c < -1 then tty.stray c else 65 ≤ c && c ≤ 90) then toChar (c + 32)
  else c

/-- The character that is received for `c`; none if it is ignored. -/
def translated (c : Int) (tty : Tty) : Option Int :=
  let lower (c : Int) : Int :=
    if tty.iFlag iUCLC then tty.tolower c else c
  if c = 13 then
    if tty.iFlag iCRNL then some (lower 10)
    else if tty.iFlag iGNCR then none
    else some (lower 13)
  else if c = 10 ∧ tty.iFlag iNLCR then some (lower 13)
  else some (lower c)

/-- Echoed characters, and what the driver does with them. -/
def echo (chars : List Int) (tty : Tty) : Tty :=
  write { tty with
    writeQ := chars.foldl (fun queue c => queue.putch c) tty.writeQ }

/-- The echo of a character. -/
def echoOf (c : Int) (tty : Tty) : List Int :=
  if c = 10 then [10, 13]
  else if c < 32 then
    if tty.lFlag eCHOCTL then [94, toChar (c + 64)] else []
  else [c]

/-- `LAST` of the secondary queue. -/
def last (tty : Tty) : Int := tty.secondary.last ttyBufSize

/-- There is nothing to erase in the line. -/
def lineStart (tty : Tty) : Bool :=
  tty.secondary.empty || tty.ends tty.last

/-- The echo of an erased character. -/
def rubout (c : Int) : List Int := if c < 32 then [127, 127] else [127]

/-- Erase the last character. -/
def erase (tty : Tty) : Tty :=
  let tty := if tty.lFlag eCHO then tty.echo (rubout tty.last) else tty
  { tty with secondary := tty.secondary.dec }

/-- A turn with the character `c`, which is none of the special ones. -/
def accept (c : Int) (tty : Tty) : Tty :=
  let tty := if tty.ends c then
    { tty with secondary := { tty.secondary with
      data := (tty.secondary.data + 1) % 2 ^ 32 } } else tty
  let tty := if tty.lFlag eCHO then tty.echo (tty.echoOf c) else tty
  { tty with secondary := tty.secondary.putch c }

/-- A turn with the received character `c`.  What `tty_intr` does to tasks is
not part of the terminal. -/
def special (c : Int) (tty : Tty) : Tty :=
  if tty.lFlag iCANON ∧ c = tty.cc vKILL then { tty with killing := true }
  else if tty.lFlag iCANON ∧ c = tty.cc vERASE then
    if tty.lineStart then tty else tty.erase
  else if tty.lFlag iCANON ∧ c = tty.cc vSTOP then { tty with stopped := true }
  else if tty.lFlag iCANON ∧ c = tty.cc vSTART then
    { tty with stopped := false }
  else if tty.lFlag iSIG ∧ c = tty.cc vINTR then tty
  else if tty.lFlag iSIG ∧ c = tty.cc vQUIT then tty
  else tty.accept c

/-- One turn of the loop of `copy_to_cooked`, or of the one in it that kills a
line; none if the loop ends. -/
def cook (tty : Tty) : Option Tty :=
  if tty.killing then
    some (if tty.lineStart then { tty with killing := false } else tty.erase)
  else if tty.readQ.empty ∨ tty.secondary.full then none
  else
    let c := tty.readQ.buf tty.readQ.tail
    let tty := { tty with readQ := tty.readQ.getch }
    match tty.translated c with
    | none => some tty
    | some c => some (tty.special c)

/-! ## Interrupts and `tty_ioctl` -/

/-- `read_char` or `put_queue`. -/
def receive (bytes : List Nat) (tty : Tty) : Tty :=
  { tty with
    readQ := tty.readQ.offer (bytes.map fun byte : Nat => toChar byte)
      tty.readQ.head }

/-- `respond` of the console. -/
def respond (tty : Tty) : Tty :=
  { tty with
    readQ := [27, 91, 63, 49, 59, 50, 99].foldl
      (fun queue c => queue.putch c) tty.readQ }

/-- `write_char`; none if there is nothing to send. -/
def transmit (tty : Tty) : Option Tty :=
  if tty.writeQ.empty then none
  else some { tty with writeQ := tty.writeQ.getch }

end Tty

/-- The commands that set the terminal. -/
inductive TermCommand where
  | tcsets
  | tcsetsw
  | tcsetsf
  | tcseta
  | tcsetaw
  | tcsetaf
  deriving DecidableEq

namespace TermCommand

/-- `TCSETSF` and `TCSETAF` flush what has been received. -/
def flushes (command : TermCommand) : Bool :=
  command == .tcsetsf || command == .tcsetaf

/-- `set_termio` sets the low halves of the flags and the first `NCC` control
characters. -/
def sets (command : TermCommand) (given termios : Termios) : Termios :=
  let low (old new : Nat) : Nat := old / 2 ^ 16 * 2 ^ 16 + new % 2 ^ 16
  if command = .tcsets ∨ command = .tcsetsw ∨ command = .tcsetsf then given
  else
    { iflag := low termios.iflag given.iflag
      oflag := low termios.oflag given.oflag
      cflag := low termios.cflag given.cflag
      lflag := low termios.lflag given.lflag
      line := given.line
      cc := fun index =>
        if index < 8 then given.cc index else termios.cc index }

end TermCommand

def Tty.ioctl (command : TermCommand) (given : Termios) (tty : Tty) : Tty :=
  { tty with
    readQ := if command.flushes then tty.readQ.flush else tty.readQ
    termios := command.sets given tty.termios }

/-! ## `tty_read` -/

namespace Tty

/-- What `GETCH` takes from the secondary queue. -/
def next (tty : Tty) : Int := tty.secondary.buf tty.secondary.tail

/-- `GETCH`, which counts the end of a line. -/
def take (tty : Tty) : Tty :=
  { tty with
    secondary := { tty.secondary.getch with
      data := if tty.ends tty.next then
        (2 ^ 32 - 1 + tty.secondary.data) % 2 ^ 32 else tty.secondary.data } }

end Tty

/-- A character that `tty_read` has delivered; `finished` tells whether the
end of a line was in the queue then. -/
structure Delivered where
  char : Int
  finished : Bool
  deriving DecidableEq

/-- A call of `tty_read`; `looping` in its inner loop. -/
structure Reading where
  nr : Nat
  minimum : Nat
  got : List Delivered
  looping : Bool

/-- A terminal, the reader, what calls have returned, the last one first, and
whether `tty_write` has seen a place in the queue for a character. -/
structure TtyWorld where
  tty : Tty
  reading : Option Reading
  results : List (List Delivered)
  checked : Bool

namespace TtyWorld

/-- `minimum` when `tty_read` starts to read. -/
def minimum (nr : Nat) (tty : Tty) : Nat :=
  let least := if tty.termios.cc vTIME ≠ 0 ∧ tty.termios.cc vMIN = 0 then 1
    else tty.termios.cc vMIN
  if least > nr then nr else least

/-- The call returns. -/
def answer (got : List Delivered) (world : TtyWorld) : TtyWorld :=
  { world with reading := none, results := got :: world.results }

def readCall (nr : Nat) (world : TtyWorld) : Option TtyWorld :=
  match world.reading with
  | some _ => none
  | none =>
      if nr = 0 then some (world.answer [])
      else some { world with
        reading := some ⟨nr, minimum nr world.tty, [], false⟩ }

/-- The head of the outer loop; none while it sleeps. -/
def readTurn (world : TtyWorld) : Option TtyWorld :=
  match world.reading with
  | none => none
  | some reading =>
      let tty := world.tty
      if reading.looping ∨ tty.secondary.empty ∨
          (tty.lFlag iCANON ∧ tty.secondary.data = 0 ∧
            tty.secondary.room > 20) then none
      else some { world with reading := some { reading with looping := true } }

/-- Behind the inner loop. -/
def readOn (reading : Reading) (world : TtyWorld) : TtyWorld :=
  if world.tty.lFlag iCANON then
    if reading.got ≠ [] then world.answer reading.got
    else { world with reading := some { reading with looping := false } }
  else if reading.got.length ≥ reading.minimum ∨ reading.nr = 0 then
    world.answer reading.got
  else { world with reading := some { reading with looping := false } }

/-- A turn of the inner loop. -/
def readTake (world : TtyWorld) : Option TtyWorld :=
  match world.reading with
  | none => none
  | some reading =>
      if ¬reading.looping then none
      else
        let c := world.tty.next
        let finished := world.tty.secondary.chars.any fun c => world.tty.ends c
        let world := { world with tty := world.tty.take }
        if c = world.tty.cc vEOF ∧ world.tty.lFlag iCANON then
          some (world.answer reading.got)
        else
          let reading := { reading with
            got := reading.got ++ [⟨c, finished⟩]
            nr := reading.nr - 1 }
          if reading.nr = 0 ∨ world.tty.secondary.empty then
            some (world.readOn reading)
          else some { world with reading := some reading }

/-- A signal, that of the alarm for `VTIME` among them, ends the call. -/
def readSignal (world : TtyWorld) : Option TtyWorld :=
  match world.reading with
  | none => none
  | some reading =>
      if reading.looping then none else some (world.answer reading.got)

/-! ## `tty_write` -/

/-- The test of the inner loop. -/
def writeCheck (world : TtyWorld) : Option TtyWorld :=
  if world.tty.writeQ.full then none else some { world with checked := true }

/-- The `PUTCH` of the inner loop. -/
def writePut (c : Int) (world : TtyWorld) : Option TtyWorld :=
  if world.checked then
    some { world with
      tty := { world.tty with writeQ := world.tty.writeQ.putch c }
      checked := false }
  else none

end TtyWorld

/-! ## Everything that may happen -/

inductive TtyAction where
  | receive (bytes : List Nat)
  | respond
  | cook
  | transmit
  | ioctl (command : TermCommand) (given : Termios)
  | readCall (nr : Nat)
  | readTurn
  | readTake
  | readSignal
  | writeCheck
  | writePut (c : Int)
  | write

def terminal : Machine TtyWorld TtyAction where
  step := fun world action =>
    match action with
    | .receive bytes => some { world with tty := world.tty.receive bytes }
    | .respond => some { world with tty := world.tty.respond }
    | .cook => world.tty.cook.map fun tty => { world with tty }
    | .transmit => world.tty.transmit.map fun tty => { world with tty }
    | .ioctl command given =>
        some { world with tty := world.tty.ioctl command given }
    | .readCall nr => world.readCall nr
    | .readTurn => world.readTurn
    | .readTake => world.readTake
    | .readSignal => world.readSignal
    | .writeCheck => world.writeCheck
    | .writePut c => world.writePut c
    | .write => some { world with tty := world.tty.write }

/-- An empty queue; `data` is the port of a serial line. -/
def TtyQueue.boot (data : Nat) : TtyQueue := ⟨⟨0, 0, fun _ => 0⟩, data, false⟩

/-- A terminal before anything has happened. -/
def TtyWorld.boot (driver : Driver) (termios : Termios) (stray : Int → Bool)
    (port : Nat) : TtyWorld where
  tty := ⟨driver, termios, false, .boot port, .boot port, .boot 0, stray,
    false⟩
  reading := none
  results := []
  checked := false

end Linux011.Chr
