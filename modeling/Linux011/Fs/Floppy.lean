import Mathlib.Data.List.Nodup
import Linux011.Fs.RequestSpecs
import Linux011.Fs.HardDisk

/-!
# The floppy driver

`floppy.c`, and what `sched.c` has for it.  The driver runs on timers and on
the interrupts of a controller, which takes some bytes, then no more, and
answers anything.  The data and the DMA controller are left out.
-/

namespace Linux011.Fs

open Machines

/-- `floppy_struct`. -/
structure FloppyStruct where
  size : Nat
  sect : Nat
  head : Nat
  track : Nat
  stretch : Nat
  gap : Nat
  rate : Nat
  spec1 : Nat

/-- `floppy_type`, with what stands behind the table. -/
def floppyType (beyond : Nat → FloppyStruct) : Nat → FloppyStruct
  | 0 => ⟨0, 0, 0, 0, 0, 0x00, 0x00, 0x00⟩
  | 1 => ⟨720, 9, 2, 40, 0, 0x2A, 0x02, 0xDF⟩
  | 2 => ⟨2400, 15, 2, 80, 0, 0x1B, 0x00, 0xDF⟩
  | 3 => ⟨720, 9, 2, 40, 1, 0x2A, 0x02, 0xDF⟩
  | 4 => ⟨1440, 9, 2, 80, 0, 0x2A, 0x02, 0xDF⟩
  | 5 => ⟨720, 9, 2, 40, 1, 0x23, 0x01, 0xDF⟩
  | 6 => ⟨1440, 9, 2, 80, 0, 0x23, 0x01, 0xDF⟩
  | 7 => ⟨2880, 18, 2, 80, 0, 0x1B, 0x00, 0xCF⟩
  | index => beyond index

def fdRead : Nat := 0xE6
def fdWrite : Nat := 0xC5
def fdSensei : Nat := 0x08
def fdSpecify : Nat := 0x03
def fdSeek : Nat := 0x0F
def fdRecalibrate : Nat := 0x07

/-- The values of `do_floppy`. -/
inductive FdHandler where
  | rwInterrupt
  | seekInterrupt
  | recalInterrupt
  | resetInterrupt
  deriving DecidableEq

/-- What the driver calls from a timer. -/
inductive FdTimer where
  | floppyOnInterrupt
  | transfer
  deriving DecidableEq

/-- Where the driver is: out of it, at a call of `do_fd_request`, at `repeat`
there, or at a call of `bad_flp_intr` before one of `do_fd_request`. -/
inductive FdControl where
  | resting
  | requested
  | atRepeat
  | failing
  deriving DecidableEq

/-- What the controller does in a step: the number of bytes it takes, those
it answers, and whether it then is ready. -/
structure Fdc where
  taken : Nat
  replies : List UInt8
  ready : Bool

/-- The driver and the motors.  `floppy` is what the pointer points to, and
`sent` keeps the bytes that the controller has taken. -/
structure Fd where
  requests : Nat → HdRequest
  queue : List Nat
  lock : Nat → Bool
  uptodate : Nat → Bool
  recalibrate : Bool
  reset : Bool
  seek : Bool
  curSpec1 : Int
  curRate : Int
  floppy : FloppyStruct
  currentDrive : Nat
  sector : Nat
  head : Nat
  track : Nat
  seekTrack : Nat
  currentTrack : Nat
  command : Nat
  selected : Bool
  currentDor : Nat
  monTimer : Nat → Nat
  moffTimer : Nat → Nat
  replyBuffer : Nat → Nat
  doFloppy : Option FdHandler
  timers : List FdTimer
  control : FdControl
  fdc : Fdc
  sent : List Nat

namespace Fd

/-- `MAX_ERRORS`. -/
def maxErrors : Nat := 8

def setRequest (fd : Fd) (slot : Nat) (request : HdRequest) : Fd :=
  { fd with
    requests := fun other =>
      if other = slot then request else fd.requests other }

/-! ## The motors -/

def ticksToFloppyOn (nr : Nat) (fd : Fd) : Nat × Fd :=
  let fd := { fd with
    moffTimer := fun other => if other = nr then 10000 else fd.moffTimer other }
  let mask := 0x10 <<< nr ||| fd.currentDor
  let mask := if fd.selected then mask else mask &&& 0xFC ||| nr
  let ticks :=
    if mask = fd.currentDor then fd.monTimer nr
    else if (mask ^^^ fd.currentDor) &&& 0xf0 ≠ 0 then 50
    else if fd.monTimer nr < 2 then 2
    else fd.monTimer nr
  (ticks, { fd with
    currentDor := mask
    monTimer := fun other => if other = nr then ticks else fd.monTimer other })

def floppyOff (nr : Nat) (fd : Fd) : Fd :=
  { fd with
    moffTimer := fun other => if other = nr then 300 else fd.moffTimer other }

/-- `do_floppy_timer` for one drive. -/
def motorTimer (fd : Fd) (nr : Nat) : Fd :=
  let mask := 0x10 <<< nr
  if mask &&& fd.currentDor = 0 then fd
  else if fd.monTimer nr ≠ 0 then
    { fd with
      monTimer := fun other =>
        if other = nr then fd.monTimer nr - 1 else fd.monTimer other }
  else if fd.moffTimer nr = 0 then
    { fd with currentDor := fd.currentDor &&& (0xff ^^^ mask) }
  else
    { fd with
      moffTimer := fun other =>
        if other = nr then fd.moffTimer nr - 1 else fd.moffTimer other }

def doFloppyTimer (fd : Fd) : Fd :=
  [0, 1, 2, 3].foldl motorTimer fd

/-! ## The controller -/

def outputByte (byte : Nat) (fd : Fd) : Fd :=
  if fd.reset then fd
  else
    match fd.fdc.taken with
    | 0 => { fd with reset := true }
    | taken + 1 =>
        { fd with
          fdc := { fd.fdc with taken }
          sent := fd.sent ++ [byte % 256] }

/-- `result`, with `MAX_REPLIES` 7. -/
def result (fd : Fd) : Int × Fd :=
  if fd.reset then (-1, fd)
  else
    let replies := fd.fdc.replies
    let fd := { fd with
      replyBuffer := fun i =>
        match (replies.take 7)[i]? with
        | none => fd.replyBuffer i
        | some byte => byte.toNat }
    if replies.length ≤ 7 ∧ fd.fdc.ready then (replies.length, fd)
    else (-1, { fd with reset := true })

def st0 (fd : Fd) : Nat := fd.replyBuffer 0

def st1 (fd : Fd) : Nat := fd.replyBuffer 1

def st2 (fd : Fd) : Nat := fd.replyBuffer 2

/-! ## The driver -/

def floppyDeselect (fd : Fd) : Fd :=
  { fd with selected := false }

/-- `end_request`; none where there is no current request. -/
def endRequest (uptodate : Bool) (fd : Fd) : Option Fd :=
  match fd.queue with
  | [] => none
  | slot :: rest =>
      let request := fd.requests slot
      let fd := fd.floppyOff (request.dev.getD 0 % 4)
      let fd := { fd with
        uptodate := fun bh =>
          if bh = request.bh then uptodate else fd.uptodate bh
        lock := fun bh => if bh = request.bh then false else fd.lock bh
        queue := rest }
      some (fd.setRequest slot { request with dev := none })

/-- `CURRENT->errors`; behind the last request it is read through `NULL`. -/
def currentErrors (wild : Nat) (fd : Fd) : Nat :=
  match fd.queue with
  | [] => wild
  | slot :: _ => (fd.requests slot).errors

/-- The first half of `bad_flp_intr`; none where there is no current
request. -/
def countError (fd : Fd) : Option Fd :=
  match fd.queue with
  | [] => none
  | slot :: _ =>
      let request := fd.requests slot
      let fd := fd.setRequest slot { request with errors := request.errors + 1 }
      if maxErrors < request.errors + 1 then fd.floppyDeselect.endRequest false
      else some fd

def badFlpIntr (wild : Nat) (fd : Fd) : Option Fd :=
  fd.countError.map fun fd =>
    if maxErrors / 2 < fd.currentErrors wild then { fd with reset := true }
    else { fd with recalibrate := true }

/-- The call of `do_fd_request`, which is the next step. -/
def restart (fd : Fd) : Fd :=
  { fd with control := .requested }

/-- Whether the controller took the bytes decides what is next. -/
def unlessReset (fd : Fd) : Fd :=
  if fd.reset then fd.restart else { fd with control := .resting }

/-- `rw_interrupt`; a call of `bad_flp_intr` is the next step. -/
def rwInterrupt (fd : Fd) : Option Fd :=
  let (count, fd) := fd.result
  if count ≠ 7 ∨ fd.st0 &&& 0xf8 ≠ 0 ∨ fd.st1 &&& 0xbf ≠ 0 ∨
      fd.st2 &&& 0x73 ≠ 0 then
    if fd.st1 &&& 0x02 ≠ 0 then
      (fd.floppyDeselect.endRequest false).map restart
    else some { fd with control := .failing }
  else (fd.floppyDeselect.endRequest true).map restart

/-- `setup_rw_floppy`; none where there is no current request. -/
def setupRwFloppy (fd : Fd) : Option Fd :=
  match fd.queue with
  | [] => none
  | _ :: _ =>
      let fd := { fd with doFloppy := some .rwInterrupt }
      let fd := fd.outputByte fd.command
      let fd := fd.outputByte (fd.head <<< 2 ||| fd.currentDrive)
      let fd := fd.outputByte fd.track
      let fd := fd.outputByte fd.head
      let fd := fd.outputByte fd.sector
      let fd := fd.outputByte 2
      let fd := fd.outputByte fd.floppy.sect
      let fd := fd.outputByte fd.floppy.gap
      let fd := fd.outputByte 0xFF
      some fd.unlessReset

/-- `seek_interrupt`; a call of `bad_flp_intr` is the next step. -/
def seekInterrupt (fd : Fd) : Option Fd :=
  let (count, fd) := (fd.outputByte fdSensei).result
  if count ≠ 2 ∨ fd.st0 &&& 0xF8 ≠ 0x20 ∨ fd.st1 ≠ fd.seekTrack then
    some { fd with control := .failing }
  else { fd with currentTrack := fd.st1 }.setupRwFloppy

/-- The first half of `transfer`. -/
def specify (fd : Fd) : Fd :=
  let fd :=
    if fd.curSpec1 ≠ fd.floppy.spec1 then
      let fd := { fd with curSpec1 := fd.floppy.spec1 }
      let fd := fd.outputByte fdSpecify
      let fd := fd.outputByte fd.floppy.spec1
      fd.outputByte 6
    else fd
  { fd with curRate := fd.floppy.rate }

def transfer (fd : Fd) : Option Fd :=
  let fd := fd.specify
  if fd.reset then some fd.restart
  else if fd.seek = false then fd.setupRwFloppy
  else
    let fd := { fd with doFloppy := some .seekInterrupt }
    let fd :=
      if fd.seekTrack ≠ 0 then
        let fd := fd.outputByte fdSeek
        let fd := fd.outputByte (fd.head <<< 2 ||| fd.currentDrive)
        fd.outputByte fd.seekTrack
      else
        let fd := fd.outputByte fdRecalibrate
        fd.outputByte (fd.head <<< 2 ||| fd.currentDrive)
    some fd.unlessReset

def recalInterrupt (fd : Fd) : Fd :=
  let (count, fd) := (fd.outputByte fdSensei).result
  if count ≠ 2 ∨ fd.st0 &&& 0xE0 = 0x60 then { fd with reset := true }.restart
  else { fd with recalibrate := false }.restart

def unexpectedFloppyInterrupt (fd : Fd) : Fd :=
  let (count, fd) := (fd.outputByte fdSensei).result
  if count ≠ 2 ∨ fd.st0 &&& 0xE0 = 0x60 then { fd with reset := true }
  else { fd with recalibrate := true }

def recalibrateFloppy (fd : Fd) : Fd :=
  let fd := { fd with
    recalibrate := false
    currentTrack := 0
    doFloppy := some .recalInterrupt }
  let fd := fd.outputByte fdRecalibrate
  let fd := fd.outputByte (fd.head <<< 2 ||| fd.currentDrive)
  fd.unlessReset

def resetInterrupt (fd : Fd) : Fd :=
  let fd := (fd.outputByte fdSensei).result.2
  let fd := fd.outputByte fdSpecify
  let fd := fd.outputByte (fd.curSpec1 % 256).toNat
  (fd.outputByte 6).restart

def resetFloppy (fd : Fd) : Fd :=
  { fd with
    reset := false
    curSpec1 := -1
    curRate := -1
    recalibrate := true
    doFloppy := some .resetInterrupt
    control := .resting }

/-- `add_timer` of a function that is not called at once; none for its
panic. -/
def addTimer (timer : FdTimer) (fd : Fd) : Option Fd :=
  if fd.timers.length < 64 then
    some { fd with timers := timer :: fd.timers, control := .resting }
  else none

def floppyOnInterrupt (fd : Fd) : Option Fd :=
  let fd := { fd with selected := true }
  if fd.currentDrive ≠ fd.currentDor &&& 3 then
    { fd with
      currentDor := fd.currentDor &&& 0xFC ||| fd.currentDrive }.addTimer
        .transfer
  else fd.transfer

/-- `do_fd_request` before its loop. -/
def doFdRequest (fd : Fd) : Fd :=
  let fd := { fd with seek := false }
  if fd.reset then fd.resetFloppy
  else if fd.recalibrate then fd.recalibrateFloppy
  else { fd with control := .atRepeat }

/-- `do_fd_request` from `repeat` on, to its return or the next jump to
`repeat`; none for its panics and for a division by zero. -/
def repeatRequest (beyond : Nat → FloppyStruct) (fd : Fd) : Option Fd :=
  match fd.queue with
  | [] => some { fd with control := .resting }
  | slot :: _ =>
      let request := fd.requests slot
      let dev := request.dev.getD 0
      if major dev ≠ 2 ∨ fd.lock request.bh = false then none
      else
        let floppy := floppyType beyond (minor dev / 4)
        let fd := { fd with
          floppy
          seek := fd.seek || fd.currentDrive != dev % 4
          currentDrive := dev % 4 }
        if floppy.size < (request.sector + 2) % 2 ^ 32 then
          fd.endRequest false
        else if floppy.sect = 0 ∨ floppy.head = 0 then none
        else
          let block := request.sector / floppy.sect
          let track := block / floppy.head % 256
          let seekTrack := track <<< floppy.stretch % 256
          let fd := { fd with
            sector := (request.sector % floppy.sect + 1) % 256
            head := block % floppy.head % 256
            track
            seekTrack
            seek := fd.seek || seekTrack != fd.currentTrack }
          let command :=
            match request.cmd with
            | .read => some fdRead
            | .write => some fdWrite
            | _ => none
          match command with
          | none => none
          | some command =>
              let (ticks, fd) :=
                { fd with command }.ticksToFloppyOn fd.currentDrive
              if ticks = 0 then fd.floppyOnInterrupt
              else fd.addTimer .floppyOnInterrupt

/-- `floppy_interrupt`. -/
def interrupt (fd : Fd) : Option Fd :=
  let called := { fd with doFloppy := none }
  match fd.doFloppy with
  | none => some called.unexpectedFloppyInterrupt
  | some .rwInterrupt => called.rwInterrupt
  | some .seekInterrupt => called.seekInterrupt
  | some .recalInterrupt => some called.recalInterrupt
  | some .resetInterrupt => some called.resetInterrupt

/-- A timer has expired. -/
def expire (index : Nat) (fd : Fd) : Option Fd :=
  let rest := { fd with timers := fd.timers.eraseIdx index }
  match fd.timers[index]? with
  | none => none
  | some .floppyOnInterrupt => rest.floppyOnInterrupt
  | some .transfer => rest.transfer

/-- `add_request` of a request `make_request` has filled in for the locked
buffer `bh`. -/
def addRequest (slot : Nat) (request : HdRequest) (fd : Fd) : Fd :=
  let fd := { fd with
    lock := fun bh => if bh = request.bh then true else fd.lock bh }
  let fd := fd.setRequest slot request
  match fd.queue with
  | [] => { fd with queue := [slot] }.restart
  | tmp :: rest =>
      { fd with queue := tmp ::
          elevator (fun slot => (fd.requests slot).toRequest) slot tmp rest }

end Fd

/-- What can happen: a task makes a request, the driver goes on or calls
`bad_flp_intr`, a timer expires, the controller raises an interrupt, or the
clock ticks.  How long a timer has to run is left open. -/
inductive FdAction where
  | add (slot dev : Nat) (cmd : Rw) (sector bh buffer : Nat)
  | proceed (fdc : Fdc)
  | fail (wild : Nat)
  | expire (index : Nat) (fdc : Fdc)
  | interrupt (fdc : Fdc)
  | tick

/-- The driver does not sleep, so that all else only comes when it rests. -/
def floppyDisk (beyond : Nat → FloppyStruct) : Machine Fd FdAction where
  step := fun fd action =>
    match fd.control, action with
    | .resting, .add slot dev cmd sector bh buffer =>
        if slot ∈ fd.queue then none
        else some (fd.addRequest slot (hdRequestOf dev cmd sector bh buffer))
    | .resting, .expire index fdc => { fd with fdc }.expire index
    | .resting, .interrupt fdc => { fd with fdc }.interrupt
    | .resting, .tick => some fd.doFloppyTimer
    | .requested, .proceed fdc => some { fd with fdc }.doFdRequest
    | .atRepeat, .proceed fdc => { fd with fdc }.repeatRequest beyond
    | .failing, .fail wild => (fd.badFlpIntr wild).map Fd.restart
    | _, _ => none

end Linux011.Fs
