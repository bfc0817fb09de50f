import Mathlib.Data.List.Basic
import Linux011.Library.Machine
import Linux011.Fs.BlockDevices

/-!
# The hard disk driver

`hd.c` between `add_request` and `end_request`.  The driver runs on the
interrupts of a drive that serves the sectors of a command one by one.  Where
`do_hd_request` jumps back to `repeat`, its passes are steps of their own.
-/

namespace Linux011.Fs

open Machines

/-- `hd_i_struct`, with the widths of the table of the BIOS. -/
structure HdInfo where
  head : Nat
  sect : Nat
  cyl : Nat
  wpcom : Nat
  ctl : Nat
  head_lt : head < 256
  sect_lt : sect < 256
  cyl_lt : cyl < 65536

/-- `hd_struct`, what the partition table says. -/
structure HdPart where
  startSect : Nat
  nrSects : Nat

/-- `hd_info`, `NR_HD` and `hd`. -/
structure Disks where
  info : Nat → HdInfo
  nrHd : Nat
  part : Nat → HdPart

/-- A request as the driver sees it, with the errors so far and the address
of the data. -/
structure HdRequest extends Request where
  errors : Nat
  buffer : Nat

/-- The commands the driver gives: `WIN_READ`, `WIN_WRITE`, `WIN_RESTORE` and
`WIN_SPECIFY`. -/
inductive Win where
  | read
  | write
  | restore
  | specify
  deriving DecidableEq

/-- The registers `hd_out` writes. -/
structure Command where
  ctl : Nat
  precomp : Nat
  nsector : Nat
  sector : Nat
  lcyl : Nat
  hcyl : Nat
  drive : Nat
  head : Nat
  cmd : Win

/-- The sector of the drive that the registers are set to. -/
def Command.lba (disks : Disks) (command : Command) : Nat :=
  let info := disks.info command.drive
  ((command.hcyl * 256 + command.lcyl) * info.head + command.head) *
    info.sect + (command.sector - 1)

/-- What a drive does. -/
inductive Work where
  | idle
  | positioning
  | transferring (write : Bool) (drive lba left : Nat)

def Command.work (disks : Disks) (command : Command) : Work :=
  match command.cmd with
  | .read => .transferring false command.drive (command.lba disks)
      command.nsector
  | .write => .transferring true command.drive (command.lba disks)
      command.nsector
  | .restore => .positioning
  | .specify => .positioning

/-- The values of `do_hd`. -/
inductive Handler where
  | readIntr
  | writeIntr
  | recalIntr
  deriving DecidableEq

/-- Where the driver is: out of it, at `repeat` in `do_hd_request`, or in the
loop there that waits for `DRQ_STAT`. -/
inductive Control where
  | resting
  | atRepeat
  | polling

/-- A sector that was transferred, and the address of its bytes. -/
structure Moved where
  write : Bool
  drive : Nat
  lba : Nat
  address : Nat
  deriving DecidableEq

/-- A command, and how many sectors of the request were done before it. -/
structure Outgoing where
  command : Command
  confirmed : Nat

/-- A request that has ended: what was asked, how it ended, what was done for
it, and the memory and the disks after it. -/
structure Service where
  made : HdRequest
  uptodate : Bool
  issued : List Outgoing
  moved : List Moved
  memory : Nat → UInt8
  disk : Nat → Nat → Nat → UInt8

/-- The driver, the drives and the memory.  `disk drive lba` are the bytes of
a sector, `latch` those a drive was given for its next sector, with the
address they come from.  `made`, `issued`, `moved` and `ended` keep what has
happened. -/
structure Hd where
  requests : Nat → HdRequest
  queue : List Nat
  lock : Nat → Bool
  uptodate : Nat → Bool
  reset : Bool
  recalibrate : Bool
  doHd : Option Handler
  control : Control
  work : Work
  latch : Nat × (Nat → UInt8)
  memory : Nat → UInt8
  disk : Nat → Nat → Nat → UInt8
  made : Nat → HdRequest
  issued : List Outgoing
  moved : List Moved
  ended : List Service

/-- `MAX_ERRORS`. -/
def maxErrors : Nat := 7

/-- The 512 bytes from an address on. -/
def sectorAt (memory : Nat → UInt8) (address : Nat) : Nat → UInt8 :=
  fun offset => memory (address + offset)

namespace Hd

def setRequest (hd : Hd) (slot : Nat) (request : HdRequest) : Hd :=
  { hd with
    requests := fun other =>
      if other = slot then request else hd.requests other }

/-! ## The drive -/

/-- The drive raises its interrupt: for the next sector of the command, or
with an error that ends the command. -/
def serve (good : Bool) (hd : Hd) : Hd :=
  match hd.work with
  | .transferring write drive lba left =>
      if good then
        let work := if left ≤ 1 then .idle
          else .transferring write drive (lba + 1) (left - 1)
        if write then
          { hd with
            work
            disk := fun otherDrive otherLba =>
              if otherDrive = drive ∧ otherLba = lba then hd.latch.2
              else hd.disk otherDrive otherLba
            moved := hd.moved ++ [⟨true, drive, lba, hd.latch.1⟩] }
        else { hd with work }
      else { hd with work := .idle }
  | _ => { hd with work := .idle }

/-- `port_read` of the sector that the drive presents, which is the one that
`work` was at. -/
def portRead (work : Work) (address : Nat) (hd : Hd) : Hd :=
  match work with
  | .transferring _ drive lba _ =>
      { hd with
        memory := fun other =>
          if address ≤ other ∧ other < address + 512 then
            hd.disk drive lba (other - address)
          else hd.memory other
        moved := hd.moved ++ [⟨false, drive, lba, address⟩] }
  | _ => hd

/-- `port_write`. -/
def portWrite (address : Nat) (hd : Hd) : Hd :=
  { hd with latch := (address, sectorAt hd.memory address) }

/-- `hd_out`; none for the panic about a bad sector. -/
def hdOut (disks : Disks) (drive nsect sect head cyl : Nat) (cmd : Win)
    (intrAddr : Handler) (hd : Hd) : Option Hd :=
  if 1 < drive ∨ 15 < head then none
  else
    let info := disks.info drive
    let command : Command := {
      ctl := info.ctl % 256
      precomp := info.wpcom / 4 % 256
      nsector := nsect % 256
      sector := sect % 256
      lcyl := cyl % 256
      hcyl := cyl / 256 % 256
      drive
      head
      cmd }
    some { hd with
      doHd := some intrAddr
      work := command.work disks
      issued := hd.issued ++ [⟨command, hd.moved.length⟩] }

/-! ## The driver -/

/-- `end_request`, with the current request at the head of the list. -/
def endRequest (uptodate : Bool) (hd : Hd) : Hd :=
  match hd.queue with
  | [] => hd
  | slot :: rest =>
      let request := hd.requests slot
      let hd : Hd := { hd with
        uptodate := fun bh =>
          if bh = request.bh then uptodate else hd.uptodate bh
        lock := fun bh => if bh = request.bh then false else hd.lock bh
        queue := rest
        issued := []
        moved := []
        ended := hd.ended ++ [⟨hd.made slot, uptodate, hd.issued, hd.moved,
          hd.memory, hd.disk⟩] }
      hd.setRequest slot { request with dev := none }

/-- `CURRENT->errors`; behind the last request it is read through `NULL`. -/
def currentErrors (wild : Nat) (hd : Hd) : Nat :=
  match hd.queue with
  | [] => wild
  | slot :: _ => (hd.requests slot).errors

/-- `bad_rw_intr`; none where there is no current request. -/
def badRwIntr (wild : Nat) (hd : Hd) : Option Hd :=
  match hd.queue with
  | [] => none
  | slot :: _ =>
      let request := hd.requests slot
      let hd := hd.setRequest slot { request with errors := request.errors + 1 }
      let hd := if maxErrors ≤ request.errors + 1 then hd.endRequest false
        else hd
      some (if maxErrors / 2 < hd.currentErrors wild then
        { hd with reset := true } else hd)

/-- The call of `do_hd_request`: its first pass is the next step. -/
def restart (hd : Hd) : Hd :=
  { hd with control := .atRepeat }

/-- `read_intr`; none where there is no current request. -/
def readIntr (work : Work) (good : Bool) (wild : Nat) (hd : Hd) : Option Hd :=
  match hd.queue with
  | [] => none
  | slot :: _ =>
      if good then
        let request := hd.requests slot
        let hd := hd.portRead work request.buffer
        let hd := hd.setRequest slot { request with
          errors := 0
          buffer := request.buffer + 512
          sector := (request.sector + 1) % 2 ^ 32
          nrSectors := request.nrSectors - 1 }
        if request.nrSectors - 1 ≠ 0 then
          some { hd with doHd := some .readIntr }
        else some (hd.endRequest true).restart
      else (hd.badRwIntr wild).map restart

/-- `write_intr`. -/
def writeIntr (good : Bool) (wild : Nat) (hd : Hd) : Option Hd :=
  match hd.queue with
  | [] => none
  | slot :: _ =>
      if good then
        let request := hd.requests slot
        if request.nrSectors - 1 ≠ 0 then
          let hd := hd.setRequest slot { request with
            nrSectors := request.nrSectors - 1
            sector := (request.sector + 1) % 2 ^ 32
            buffer := request.buffer + 512 }
          some ({ hd with doHd := some .writeIntr }.portWrite
            (request.buffer + 512))
        else
          let hd := hd.setRequest slot { request with
            nrSectors := request.nrSectors - 1 }
          some (hd.endRequest true).restart
      else (hd.badRwIntr wild).map restart

/-- `recal_intr`. -/
def recalIntr (good : Bool) (wild : Nat) (hd : Hd) : Option Hd :=
  if good then some hd.restart else (hd.badRwIntr wild).map restart

/-- `do_hd_request` from `repeat` to its return, to the next jump to `repeat`
or to the wait for `DRQ_STAT`; none for its panics and for the exception of
`divl`. -/
def doHdRequest (disks : Disks) (hd : Hd) : Option Hd :=
  match hd.queue with
  | [] => some { hd with control := .resting }
  | slot :: _ =>
      let request := hd.requests slot
      let dev := minor (request.dev.getD 0)
      let part := disks.part dev
      if major (request.dev.getD 0) ≠ 3 ∨ hd.lock request.bh = false then none
      else if 5 * disks.nrHd ≤ dev ∨
          part.nrSects < (request.sector + 2) % 2 ^ 32 then
        some (hd.endRequest false).restart
      else
        let block := (request.sector + part.startSect) % 2 ^ 32
        let info := disks.info (dev / 5)
        if info.sect = 0 ∨ info.head = 0 then none
        else
          let sec := block % info.sect + 1
          let head := block / info.sect % info.head
          let cyl := block / info.sect / info.head
          let hd := { hd with control := .resting }
          if hd.reset then
            { hd with reset := false, recalibrate := true }.hdOut disks
              (dev / 5) info.sect info.sect (info.head - 1) info.cyl .specify
              .recalIntr
          else if hd.recalibrate then
            { hd with recalibrate := false }.hdOut disks (dev / 5) info.sect
              0 0 0 .restore .recalIntr
          else
            match request.cmd with
            | .write =>
                { hd with control := .polling }.hdOut disks (dev / 5)
                  request.nrSectors sec head cyl .write .writeIntr
            | .read =>
                hd.hdOut disks (dev / 5) request.nrSectors sec head cyl .read
                  .readIntr
            | _ => none

/-- The end of that wait: the first sector is given to the drive, or the
command is given up. -/
def polled (drq : Bool) (wild : Nat) (hd : Hd) : Option Hd :=
  match hd.queue with
  | [] => none
  | slot :: _ =>
      if drq then
        some ({ hd with control := .resting }.portWrite
          (hd.requests slot).buffer)
      else ({ hd with work := .idle }.badRwIntr wild).map restart

/-- `hd_interrupt`. -/
def interrupt (good : Bool) (wild : Nat) (hd : Hd) : Option Hd :=
  match hd.work with
  | .idle => none
  | work =>
      let served := hd.serve good
      match hd.doHd with
      | none => some served
      | some .readIntr => { served with doHd := none }.readIntr work good wild
      | some .writeIntr => { served with doHd := none }.writeIntr good wild
      | some .recalIntr => { served with doHd := none }.recalIntr good wild

/-- `add_request` of a request `make_request` has filled in for the locked
buffer `bh`. -/
def addRequest (slot : Nat) (request : HdRequest) (hd : Hd) : Hd :=
  let hd := { hd with
    lock := fun bh => if bh = request.bh then true else hd.lock bh
    made := fun other => if other = slot then request else hd.made other }
  let hd := hd.setRequest slot request
  match hd.queue with
  | [] => { hd with queue := [slot] }.restart
  | tmp :: rest =>
      { hd with queue := tmp ::
          elevator (fun slot => (hd.requests slot).toRequest) slot tmp rest }

end Hd

/-- What can happen: a task makes a request, the driver goes on, the wait for
`DRQ_STAT` ends, or the drive raises an interrupt.  `wild` is what stands at
the place of `errors` in a request at address 0. -/
inductive HdAction where
  | add (slot dev : Nat) (cmd : Rw) (sector bh buffer : Nat)
  | proceed
  | poll (drq : Bool) (wild : Nat)
  | interrupt (good : Bool) (wild : Nat)

/-- The request `make_request` fills in. -/
def hdRequestOf (dev : Nat) (cmd : Rw) (sector bh buffer : Nat) : HdRequest where
  dev := some dev
  cmd := cmd
  errors := 0
  sector := sector % 2 ^ 32
  nrSectors := 2
  buffer := buffer
  bh := bh

/-- The driver does not sleep, so that requests and interrupts only come when
it rests. -/
def hardDisk (disks : Disks) : Machine Hd HdAction where
  step := fun hd action =>
    match hd.control, action with
    | .resting, .add slot dev cmd sector bh buffer =>
        if slot ∈ hd.queue then none
        else some (hd.addRequest slot (hdRequestOf dev cmd sector bh buffer))
    | .resting, .interrupt good wild => hd.interrupt good wild
    | .atRepeat, .proceed => hd.doHdRequest disks
    | .polling, .poll drq wild => hd.polled drq wild
    | _, _ => none

end Linux011.Fs
