import Mathlib.Algebra.Group.Nat.Defs
import Linux011.Fs.Kernel

/-!
# Requests to block devices

`ll_rw_blk.c` and the end of a request in `blk.h`.  A buffer is locked from
the moment its request is made until the device completes it; the elevator
decides where in the queue of its device a request goes.
-/

namespace Linux011.Fs

open Coop

/-- `wait_on_buffer`. -/
def waitOnBuffer (bh : Nat) : Sys Unit :=
  Prog.waitUntil fun kernel => !(kernel.buffers bh).lock

def lockBuffer (bh : Nat) : Sys Unit := do
  Prog.waitUntil fun kernel => !(kernel.buffers bh).lock
  onBuffer bh fun buffer => { buffer with lock := true }

def unlockBuffer (bh : Nat) : Sys Unit :=
  onBuffer bh fun buffer => { buffer with lock := false }

/-- The order of `cmd` in `IN_ORDER`: `READ` is 0 and `WRITE` is 1. -/
def Rw.rank : Rw → Nat
  | read => 0
  | write => 1
  | reada => 2
  | writea => 3

/-- `IN_ORDER`; a free slot has the device number -1. -/
def inOrder (first second : Request) : Bool :=
  let dev (request : Request) : Int :=
    match request.dev with
    | none => -1
    | some dev => dev
  first.cmd.rank < second.cmd.rank ||
    (first.cmd.rank == second.cmd.rank &&
      (dev first < dev second ||
        (dev first == dev second && first.sector < second.sector)))

/-- The loop of `add_request`: the queue behind `tmp`, with `slot` put in. -/
def elevator (requests : Nat → Request) (slot : Nat) :
    Nat → List Nat → List Nat
  | _, [] => [slot]
  | tmp, following :: rest =>
      if (inOrder (requests tmp) (requests slot) ||
            !inOrder (requests tmp) (requests following)) &&
          inOrder (requests slot) (requests following) then
        slot :: following :: rest
      else following :: elevator requests slot following rest

/-- The two sectors a request moves: into the buffer, or out of it. -/
def transfer (slot : Nat) (kernel : Kernel) : Kernel :=
  let request := kernel.requests slot
  let buffer := kernel.buffers request.bh
  let dev := request.dev.getD 0
  let start := request.sector * 512
  if request.cmd = .write then
    { kernel with
      disk := fun other position =>
        if other = dev ∧ start ≤ position ∧ position < start + 1024 then
          buffer.data (position - start)
        else kernel.disk other position }
  else
    kernel.setBuffer request.bh
      { buffer with
        data := fun offset =>
          if offset < 1024 then kernel.disk dev (start + offset)
          else buffer.data offset }

/-- `end_request` of the current request of a device. -/
def endRequest (major : Nat) (uptodate : Bool) (kernel : Kernel) : Kernel :=
  match kernel.queue major with
  | [] => kernel
  | slot :: rest =>
      let request := kernel.requests slot
      let kernel := kernel.setBuffer request.bh
        { kernel.buffers request.bh with uptodate := uptodate, lock := false }
      (kernel.setRequest slot { request with dev := none }).setQueue major rest

/-- The driver has moved the data of the current request, or given up. -/
def complete (major : Nat) (success : Bool) (kernel : Kernel) : Kernel :=
  match kernel.queue major with
  | [] => kernel
  | slot :: _ =>
      if success then endRequest major true (transfer slot kernel)
      else endRequest major false kernel

/-- What `request_fn` does to a queue that was empty: the ram disk serves the
request at once, the other drivers start it. -/
def requestFn (major slot : Nat) (kernel : Kernel) : Kernel :=
  match kernel.driver major with
  | .ram length =>
      let request := kernel.requests slot
      complete major
        (minor (request.dev.getD 0) == 1 &&
          decide (request.sector * 512 + 1024 ≤ length)) kernel
  | _ => kernel

def addRequest (major slot : Nat) (kernel : Kernel) : Kernel :=
  let request := kernel.requests slot
  let kernel := kernel.setBuffer request.bh
    { kernel.buffers request.bh with dirt := false }
  match kernel.queue major with
  | [] => requestFn major slot (kernel.setQueue major [slot])
  | tmp :: rest =>
      kernel.setQueue major (tmp :: elevator kernel.requests slot tmp rest)

/-- The last free one of the first `count` request slots. -/
def findRequest (requests : Nat → Request) : Nat → Option Nat
  | 0 => none
  | count + 1 =>
      if (requests count).dev = none then some count
      else findRequest requests count

/-- How many of the slots a request may use: writes leave the last third to
reads. -/
def requestLimit (rw : Rw) : Nat :=
  if rw = .read then nrRequest else nrRequest * 2 / 3

/-- The request for a locked buffer. -/
def requestOf (kernel : Kernel) (bh : Nat) (rw : Rw) : Request where
  dev := some (kernel.buffers bh).dev
  cmd := rw
  sector := (kernel.buffers bh).block * 2 % 2 ^ 32
  nrSectors := 2
  bh := bh

/-- Fill in a request slot and queue it. -/
def fileRequest (major slot bh : Nat) (rw : Rw) : Sys Unit :=
  Prog.modify fun kernel =>
    addRequest major slot (kernel.setRequest slot (requestOf kernel bh rw))

/-- `make_request` once it has the buffer locked. -/
def submit (major : Nat) (ahead : Bool) (rw : Rw) (bh : Nat) : Sys Unit := do
  let kernel ← Prog.get
  if (rw = .write ∧ (kernel.buffers bh).dirt = false) ∨
      (rw = .read ∧ (kernel.buffers bh).uptodate = true) then
    unlockBuffer bh
  else
    match findRequest kernel.requests (requestLimit rw) with
    | some slot => fileRequest major slot bh rw
    | none =>
        if ahead = true then unlockBuffer bh
        else do
          Prog.waitUntil fun kernel =>
            (findRequest kernel.requests (requestLimit rw)).isSome
          let kernel ← Prog.get
          match findRequest kernel.requests (requestLimit rw) with
          | some slot => fileRequest major slot bh rw
          | none => Prog.spent

/-- `READA` is `READ`, `WRITEA` is `WRITE`. -/
def Rw.plain : Rw → Rw
  | reada => read
  | writea => write
  | rw => rw

def makeRequest (major : Nat) (rw : Rw) (bh : Nat) : Sys Unit := do
  let ahead := rw == .reada || rw == .writea
  let kernel ← Prog.get
  if ahead = true ∧ (kernel.buffers bh).lock = true then return ()
  else do
    lockBuffer bh
    submit major ahead rw.plain bh

/-- `ll_rw_block`; where it only complains, nothing happens. -/
def llRwBlock (rw : Rw) (bh : Nat) : Sys Unit := do
  let kernel ← Prog.get
  let device := major (kernel.buffers bh).dev
  match kernel.driver device with
  | .absent => return ()
  | _ =>
      if nrBlkDev ≤ device then return ()
      else makeRequest device rw bh

/-- `blk_dev_init`. -/
def blkDevInit (kernel : Kernel) : Kernel :=
  { kernel with
    requests := fun slot =>
      if slot < nrRequest then { kernel.requests slot with dev := none }
      else kernel.requests slot
    queue := fun _ => [] }

end Linux011.Fs
