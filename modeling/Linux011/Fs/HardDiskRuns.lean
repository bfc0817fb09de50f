import Mathlib.Data.List.Nodup
import Mathlib.Data.List.Range
import Linux011.Fs.RequestSpecs
import Linux011.Fs.HardDisk

/-!
# What the hard disk driver transfers

The sectors already transferred, the fields of the current request and the
command in the drive advance together.  Errors, resets and recalibrations only
take the command away.
-/

namespace Linux011.Fs

open Machines

namespace HdRequest

def drive (made : HdRequest) : Nat := minor (made.dev.getD 0) / 5

/-- The sector of the drive that is the one of the partition `index` behind
the first of the request. -/
def lba (disks : Disks) (made : HdRequest) (index : Nat) : Nat :=
  (disks.part (minor (made.dev.getD 0))).startSect + made.sector + index

def address (made : HdRequest) (index : Nat) : Nat :=
  made.buffer + 512 * index

/-- The transfer of a sector of the request. -/
def move (disks : Disks) (made : HdRequest) (index : Nat) : Moved where
  write := made.cmd == .write
  drive := made.drive
  lba := made.lba disks index
  address := made.address index

/-- The 16 bits of the cylinder registers reach both sectors. -/
def Addressed (disks : Disks) (made : HdRequest) : Prop :=
  made.lba disks 1 <
    65536 * ((disks.info made.drive).head * (disks.info made.drive).sect)

/-- A command that transfers is for the sectors not confirmed before it. -/
def Commanded (disks : Disks) (made : HdRequest) (issued : Outgoing) : Prop :=
  issued.command.cmd = .read ∨ issued.command.cmd = .write →
    (issued.command.cmd = .write ↔ made.cmd = .write) ∧
    issued.confirmed < 2 ∧ issued.command.drive = made.drive ∧
    issued.command.lba disks = made.lba disks issued.confirmed ∧
    issued.command.nsector = 2 - issued.confirmed

/-- The first sectors of the request are the same in memory and on the
drive. -/
def Copied (disks : Disks) (made : HdRequest) (count : Nat)
    (memory : Nat → UInt8) (disk : Nat → Nat → Nat → UInt8) : Prop :=
  ∀ index, index < count → ∀ offset, offset < 512 →
    memory (made.address index + offset) =
      disk made.drive (made.lba disks index) offset

end HdRequest

/-- Each sector was transferred to or from its place, and nothing else. -/
structure Service.Right (disks : Disks) (service : Service) : Prop where
  moved : service.moved = [service.made.move disks 0, service.made.move disks 1]
  copied : service.made.Copied disks 2 service.memory service.disk

/-! ## The fields of the requests -/

/-- The current request, `made` when it was asked, after `moved.length`
sectors. -/
structure Underway (disks : Disks) (made request : HdRequest)
    (moved : List Moved) (issued : List Outgoing) (memory : Nat → UInt8)
    (disk : Nat → Nat → Nat → UInt8) : Prop where
  whole : made.nrSectors = 2
  fits : made.sector < 2 ^ 32
  fields : moved.length < 2 → request =
    { made with
      errors := request.errors
      sector := (made.sector + moved.length) % 2 ^ 32
      nrSectors := 2 - moved.length
      buffer := made.address moved.length }
  moves : made.Addressed disks →
    moved = (List.range moved.length).map (made.move disks)
  copies : made.Addressed disks →
    made.Copied disks moved.length memory disk
  commands : made.Addressed disks →
    ∀ outgoing ∈ issued, made.Commanded disks outgoing

/-- The requests and the records of what was done. -/
structure Hd.Orderly (disks : Disks) (hd : Hd) : Prop where
  nodup : hd.queue.Nodup
  current : ∀ slot rest, hd.queue = slot :: rest →
    Underway disks (hd.made slot) (hd.requests slot) hd.moved hd.issued
      hd.memory hd.disk
  waiting : ∀ slot rest, hd.queue = slot :: rest → ∀ other ∈ rest,
    hd.requests other = hd.made other ∧ (hd.made other).nrSectors = 2 ∧
      (hd.made other).sector < 2 ^ 32
  fresh : hd.queue = [] → hd.moved = [] ∧ hd.issued = []
  ended : ∀ service ∈ hd.ended, service.made.Addressed disks →
    (∀ issued ∈ service.issued, service.made.Commanded disks issued) ∧
      (service.uptodate = true → service.Right disks)

namespace Hd

variable {disks : Disks} {hd : Hd}

/-- A request of which nothing has been done. -/
theorem underway_fresh {made : HdRequest} {memory : Nat → UInt8}
    {disk : Nat → Nat → Nat → UInt8} (whole : made.nrSectors = 2)
    (fits : made.sector < 2 ^ 32) :
    Underway disks made made [] [] memory disk where
  whole := whole
  fits := fits
  fields := by
    intro _
    obtain ⟨⟨dev, cmd, sector, nrSectors, bh⟩, errors, buffer⟩ := made
    have kept : (sector + 0) % 2 ^ 32 = sector := Nat.mod_eq_of_lt fits
    simp only [List.length_nil, kept, HdRequest.address]
    rw [← whole]
    rfl
  moves := fun _ => rfl
  copies := by
    intro _ index below
    cases below
  commands := by simp

/-- The current request ends; a successful end comes after both sectors. -/
theorem Orderly.endRequest (orderly : hd.Orderly disks) {uptodate : Bool}
    (complete : uptodate = true → hd.moved.length = 2) :
    (hd.endRequest uptodate).Orderly disks ∧
      (hd.endRequest uptodate).moved.length < 2 := by
  unfold Hd.endRequest
  cases isQueue : hd.queue with
  | nil =>
      have none := (orderly.fresh isQueue).1
      exact ⟨orderly, by simp [none]⟩
  | cons slot rest =>
      have underway := orderly.current slot rest isQueue
      have waiting := orderly.waiting slot rest isQueue
      have nodup := orderly.nodup
      rw [isQueue, List.nodup_cons] at nodup
      have same (other : Nat) (member : other ∈ rest)
          (request : HdRequest) :
          (if other = slot then request else hd.requests other) =
            hd.made other := by
        have different : other ≠ slot := by
          rintro rfl
          exact nodup.1 member
        rw [if_neg different]
        exact (waiting other member).1
      refine ⟨⟨nodup.2, ?_, ?_, fun _ => ⟨rfl, rfl⟩, ?_⟩, by simp [setRequest]⟩
      · intro first others isRest
        have member : first ∈ rest := by
          have isRest : rest = first :: others := isRest
          simp [isRest]
        have kept := same first member
        have asked := waiting first member
        show Underway disks (hd.made first) (if first = slot then _ else _) []
          [] hd.memory hd.disk
        rw [kept]
        exact underway_fresh asked.2.1 asked.2.2
      · intro first others isRest other behind
        have member : other ∈ rest := by
          have isRest : rest = first :: others := isRest
          simp [isRest, behind]
        exact ⟨same other member _, (waiting other member).2⟩
      · intro service member addressed
        rcases List.mem_append.mp member with old | new
        · exact orderly.ended service old addressed
        · rw [List.mem_singleton] at new
          subst new
          refine ⟨underway.commands addressed, fun isGood => ?_⟩
          have both := complete isGood
          have moved := underway.moves addressed
          have copied := underway.copies addressed
          rw [both] at moved copied
          exact ⟨moved, copied⟩

/-- Only the errors of the current request change. -/
theorem Orderly.setErrors (orderly : hd.Orderly disks) {slot : Nat}
    {rest : List Nat} (isQueue : hd.queue = slot :: rest) (errors : Nat) :
    (hd.setRequest slot { hd.requests slot with errors }).Orderly disks := by
  have underway := orderly.current slot rest isQueue
  have nodup := orderly.nodup
  rw [isQueue, List.nodup_cons] at nodup
  refine ⟨orderly.nodup, ?_, ?_, orderly.fresh, orderly.ended⟩
  · intro first others isCons
    have isCons : slot :: rest = first :: others := isQueue ▸ isCons
    obtain ⟨rfl, rfl⟩ := List.cons.inj isCons
    refine ⟨underway.whole, underway.fits, ?_, underway.moves,
      underway.copies, underway.commands⟩
    have own : (hd.setRequest slot { hd.requests slot with errors }).requests
        slot = { hd.requests slot with errors } := if_pos rfl
    rw [own]
    intro few
    rw [underway.fields few]
    rfl
  · intro first others isCons other member
    have isCons : slot :: rest = first :: others := isQueue ▸ isCons
    obtain ⟨rfl, rfl⟩ := List.cons.inj isCons
    have different : other ≠ slot := by
      rintro rfl
      exact nodup.1 member
    have kept : (hd.setRequest slot { hd.requests slot with errors }).requests
        other = hd.requests other := if_neg different
    rw [kept]
    exact orderly.waiting slot rest isQueue other member

/-- A command is given for the current request. -/
theorem Orderly.issue {next : Hd} (orderly : hd.Orderly disks) {slot : Nat}
    {rest : List Nat} (isQueue : hd.queue = slot :: rest)
    {outgoing : Outgoing}
    (commanded : (hd.made slot).Addressed disks →
      (hd.made slot).Commanded disks outgoing)
    (requests : next.requests = hd.requests) (queue : next.queue = hd.queue)
    (made : next.made = hd.made) (moved : next.moved = hd.moved)
    (memory : next.memory = hd.memory) (disk : next.disk = hd.disk)
    (issued : next.issued = hd.issued ++ [outgoing])
    (ended : next.ended = hd.ended) : next.Orderly disks := by
  have underway := orderly.current slot rest isQueue
  refine ⟨?_, ?_, ?_, ?_, ?_⟩
  · rw [queue]
    exact orderly.nodup
  · intro first others isCons
    rw [queue, isQueue] at isCons
    obtain ⟨rfl, rfl⟩ := List.cons.inj isCons
    rw [made, requests, moved, issued, memory, disk]
    refine { underway with commands := ?_ }
    intro addressed other member
    rcases List.mem_append.mp member with old | new
    · exact underway.commands addressed other old
    · rw [List.mem_singleton.mp new]
      exact commanded addressed
  · rw [queue, made, requests]
    exact orderly.waiting
  · intro isEmpty
    rw [queue, isQueue] at isEmpty
    cases isEmpty
  · rw [ended]
    exact orderly.ended

theorem Orderly.badRwIntr (orderly : hd.Orderly disks)
    (few : hd.moved.length < 2) {wild : Nat} {next : Hd}
    (ends : hd.badRwIntr wild = some next) :
    next.Orderly disks ∧ next.moved.length < 2 ∧ next.work = hd.work := by
  unfold Hd.badRwIntr at ends
  cases isQueue : hd.queue with
  | nil =>
      rw [isQueue] at ends
      cases ends
  | cons slot rest =>
      rw [isQueue] at ends
      dsimp only at ends
      generalize isCounted : (if maxErrors ≤ (hd.requests slot).errors + 1 then
        _ else _ : Hd) = counted at ends
      have kept : counted.Orderly disks ∧ counted.moved.length < 2 ∧
          counted.work = hd.work := by
        have errors :=
          orderly.setErrors isQueue ((hd.requests slot).errors + 1)
        rw [← isCounted]
        split
        · have ended := @Orderly.endRequest _ _ errors false nofun
          refine ⟨ended.1, ended.2, ?_⟩
          unfold Hd.endRequest
          split <;> rfl
        · exact ⟨errors, few, rfl⟩
      rw [Option.some.injEq] at ends
      rw [← ends]
      split
      · obtain ⟨⟨nodup, current, waiting, fresh, ended⟩, rest⟩ := kept
        exact ⟨⟨nodup, current, waiting, fresh, ended⟩, rest⟩
      · exact kept

end Hd

/-! ## The drive -/

def handlerFor (write : Bool) : Handler :=
  if write then .writeIntr else .readIntr

/-- The command in the drive is for the rest of the current request. -/
structure InDrive (disks : Disks) (made : HdRequest) (moved : List Moved)
    (write : Bool) (drive lba left : Nat) : Prop where
  cmd : write = true ↔ made.cmd = .write
  left : left = 2 - moved.length
  place : made.Addressed disks →
    drive = made.drive ∧ lba = made.lba disks moved.length

namespace Hd

/-- The drive has been given the bytes of the next sector. -/
def Latched (hd : Hd) (made : HdRequest) : Prop :=
  hd.latch = (made.address hd.moved.length,
    sectorAt hd.memory (made.address hd.moved.length))

/-- What the driver knows of the drive. -/
def Coupled (disks : Disks) (hd : Hd) : Prop :=
  match hd.work with
  | .idle => True
  | .positioning => hd.control = .resting ∧ hd.doHd = some .recalIntr ∧
      hd.queue ≠ []
  | .transferring write drive lba left =>
      ∃ slot rest, hd.queue = slot :: rest ∧
        hd.doHd = some (handlerFor write) ∧
        InDrive disks (hd.made slot) hd.moved write drive lba left ∧
        match hd.control with
        | .resting => write = true → hd.Latched (hd.made slot)
        | .polling => write = true
        | .atRepeat => False

structure Steady (disks : Disks) (hd : Hd) : Prop where
  orderly : hd.Orderly disks
  few : hd.moved.length < 2
  coupled : hd.Coupled disks

variable {disks : Disks} {hd : Hd}

theorem steady_idle (orderly : hd.Orderly disks) (few : hd.moved.length < 2)
    (isIdle : hd.work = .idle) : hd.Steady disks where
  orderly := orderly
  few := few
  coupled := by
    unfold Coupled
    rw [isIdle]
    trivial

theorem Steady.idle (steady : hd.Steady disks) (control : hd.control = .atRepeat) :
    hd.work = .idle := by
  have coupled := steady.coupled
  unfold Coupled at coupled
  rw [control] at coupled
  cases isWork : hd.work with
  | idle => rfl
  | positioning =>
      rw [isWork] at coupled
      cases coupled.1
  | transferring write drive lba left =>
      rw [isWork] at coupled
      obtain ⟨_, _, _, _, _, impossible⟩ := coupled
      exact impossible.elim

/-- After an error the driver begins again. -/
theorem Steady.failed {wild : Nat} {next : Hd}
    (ends : (hd.badRwIntr wild).map restart = some next)
    (orderly : hd.Orderly disks) (few : hd.moved.length < 2)
    (isIdle : hd.work = .idle) : next.Steady disks := by
  obtain ⟨failed, isFailed, isNext⟩ := Option.map_eq_some_iff.mp ends
  obtain ⟨orderly, few, work⟩ := orderly.badRwIntr few isFailed
  subst isNext
  exact steady_idle ⟨orderly.nodup, orderly.current, orderly.waiting,
    orderly.fresh, orderly.ended⟩ few (work.trans isIdle)

/-- The registers say where a sector is, as far as they reach. -/
theorem lba_registers {sect head block : Nat} (positive : 0 < sect)
    (narrow : sect < 256) (reach : block < 65536 * (head * sect)) :
    ((block / sect / head / 256 % 256 * 256 + block / sect / head % 256) *
        head + block / sect % head) * sect + ((block % sect + 1) % 256 - 1) =
      block := by
  have below : block / sect / head < 65536 := by
    rw [Nat.div_div_eq_div_mul, Nat.mul_comm sect head]
    exact Nat.div_lt_of_lt_mul (by rwa [Nat.mul_comm])
  have sector : (block % sect + 1) % 256 - 1 = block % sect := by
    have inTrack := Nat.mod_lt block positive
    rw [Nat.mod_eq_of_lt (by omega)]
    rfl
  have cylinder {cyl : Nat} (below : cyl < 65536) :
      cyl / 256 % 256 * 256 + cyl % 256 = cyl := by omega
  have track : block / sect / head * head + block / sect % head =
      block / sect := Nat.div_add_mod' (block / sect) head
  rw [sector, cylinder below, track]
  exact Nat.div_add_mod' block sect

/-- What `hd_out` does when it does not panic. -/
theorem hdOut_some {drive nsect sect head cyl : Nat} {cmd : Win}
    {intrAddr : Handler} {next : Hd}
    (out : hd.hdOut disks drive nsect sect head cyl cmd intrAddr = some next) :
    ∃ command : Command, command.nsector = nsect % 256 ∧
      command.sector = sect % 256 ∧ command.lcyl = cyl % 256 ∧
      command.hcyl = cyl / 256 % 256 ∧ command.drive = drive ∧
      command.head = head ∧ command.cmd = cmd ∧
      next = { hd with
        doHd := some intrAddr
        work := command.work disks
        issued := hd.issued ++ [⟨command, hd.moved.length⟩] } := by
  unfold hdOut at out
  split at out
  · cases out
  · exact ⟨_, rfl, rfl, rfl, rfl, rfl, rfl, rfl, (Option.some.inj out).symm⟩

/-- A command that positions the heads. -/
theorem Steady.positions {drive nsect sect head cyl : Nat} {cmd : Win}
    {next : Hd} (out : hd.hdOut disks drive nsect sect head cyl cmd
      .recalIntr = some next)
    (orderly : hd.Orderly disks) (few : hd.moved.length < 2)
    {slot : Nat} {rest : List Nat} (isQueue : hd.queue = slot :: rest)
    (resting : hd.control = .resting)
    (moves : cmd = .restore ∨ cmd = .specify) : next.Steady disks := by
  obtain ⟨command, _, _, _, _, _, _, isCmd, isNext⟩ := hdOut_some out
  have work : command.work disks = .positioning := by
    unfold Command.work
    rw [isCmd]
    rcases moves with rfl | rfl <;> rfl
  subst isNext
  refine ⟨?_, few, ?_⟩
  · have commanded : (hd.made slot).Commanded disks
        ⟨command, hd.moved.length⟩ := by
      intro transfers
      dsimp only at transfers
      rw [isCmd] at transfers
      rcases moves with rfl | rfl <;> simp at transfers
    exact orderly.issue isQueue (fun _ => commanded) rfl rfl rfl rfl rfl rfl
      rfl rfl
  · unfold Coupled
    rw [work]
    exact ⟨resting, rfl, by simp [isQueue]⟩

/-- The sector of the current request that is next. -/
theorem Orderly.place (orderly : hd.Orderly disks) (few : hd.moved.length < 2)
    {slot : Nat} {rest : List Nat} (isQueue : hd.queue = slot :: rest)
    (addressed : (hd.made slot).Addressed disks) :
    ((hd.requests slot).sector +
        (disks.part (minor ((hd.requests slot).dev.getD 0))).startSect) %
          2 ^ 32 = (hd.made slot).lba disks hd.moved.length ∧
      (hd.made slot).lba disks hd.moved.length <
        65536 * ((disks.info (hd.made slot).drive).head *
          (disks.info (hd.made slot).drive).sect) := by
  have underway := orderly.current slot rest isQueue
  have fields := underway.fields few
  have reach : 65536 * ((disks.info (hd.made slot).drive).head *
      (disks.info (hd.made slot).drive).sect) ≤ 65536 * (255 * 255) := by
    have head := (disks.info (hd.made slot).drive).head_lt
    have sect := (disks.info (hd.made slot).drive).sect_lt
    exact Nat.mul_le_mul_left _ (Nat.mul_le_mul (by omega) (by omega))
  unfold HdRequest.Addressed HdRequest.lba at addressed
  unfold HdRequest.lba
  rw [fields]
  dsimp only
  generalize 65536 * ((disks.info (hd.made slot).drive).head *
    (disks.info (hd.made slot).drive).sect) = limit at *
  refine ⟨?_, by omega⟩
  rw [Nat.mod_eq_of_lt (by omega : (hd.made slot).sector + hd.moved.length <
    2 ^ 32), Nat.mod_eq_of_lt (by omega)]
  omega

/-- A command that transfers is for the rest of the current request. -/
theorem Steady.transfers {write : Bool} {next : Hd}
    (orderly : hd.Orderly disks) (few : hd.moved.length < 2) {slot : Nat}
    {rest : List Nat} (isQueue : hd.queue = slot :: rest)
    (isCmd : (hd.requests slot).cmd = if write then .write else .read)
    (positive : (disks.info (minor ((hd.requests slot).dev.getD 0) / 5)).sect ≠ 0)
    (control : hd.control = if write then .polling else .resting)
    {block : Nat}
    (isBlock : block = ((hd.requests slot).sector +
      (disks.part (minor ((hd.requests slot).dev.getD 0))).startSect) % 2 ^ 32)
    (out :
      let info := disks.info (minor ((hd.requests slot).dev.getD 0) / 5)
      hd.hdOut disks (minor ((hd.requests slot).dev.getD 0) / 5)
        (hd.requests slot).nrSectors (block % info.sect + 1)
        (block / info.sect % info.head) (block / info.sect / info.head)
        (if write then .write else .read) (handlerFor write) = some next) :
    next.Steady disks := by
  have underway := orderly.current slot rest isQueue
  have fields := underway.fields few
  have sameDev : (hd.requests slot).dev = (hd.made slot).dev := by rw [fields]
  have sameCmd : (hd.requests slot).cmd = (hd.made slot).cmd := by rw [fields]
  have nrSectors : (hd.requests slot).nrSectors = 2 - hd.moved.length := by
    rw [fields]
  have place := orderly.place few isQueue
  rw [← isBlock] at place
  obtain ⟨command, isCount, isSector, isLow, isHigh, isDrive, isHead, isWin,
    isNext⟩ := hdOut_some out
  have drive : command.drive = (hd.made slot).drive := by
    rw [isDrive, sameDev]
    rfl
  have count : command.nsector = 2 - hd.moved.length := by
    rw [isCount, nrSectors]
    omega
  have isLba (addressed : (hd.made slot).Addressed disks) :
      command.lba disks = (hd.made slot).lba disks hd.moved.length := by
    obtain ⟨isPlace, reach⟩ := place addressed
    rw [← isPlace] at reach ⊢
    unfold HdRequest.drive at reach
    rw [← sameDev] at reach
    unfold Command.lba
    rw [isDrive, isSector, isLow, isHigh, isHead]
    exact lba_registers (Nat.pos_of_ne_zero positive) (HdInfo.sect_lt _) reach
  have kind : write = true ↔ (hd.made slot).cmd = .write := by
    rw [← sameCmd, isCmd]
    cases write <;> simp
  have commanded (addressed : (hd.made slot).Addressed disks) :
      (hd.made slot).Commanded disks ⟨command, hd.moved.length⟩ := by
    intro _
    refine ⟨?_, few, drive, isLba addressed, count⟩
    rw [← kind]
    dsimp only
    rw [isWin]
    cases write <;> simp
  have work : command.work disks = .transferring write command.drive
      (command.lba disks) command.nsector := by
    unfold Command.work
    rw [isWin]
    cases write <;> rfl
  subst isNext
  refine ⟨orderly.issue isQueue commanded rfl rfl rfl rfl rfl rfl rfl rfl, few,
    ?_⟩
  unfold Coupled
  dsimp only
  rw [work, control]
  refine ⟨slot, rest, isQueue, rfl, ⟨kind, count, fun addressed =>
    ⟨drive, isLba addressed⟩⟩, ?_⟩
  cases write
  · exact nofun
  · rfl

/-! ## The steps -/

theorem Steady.doHdRequest (steady : hd.Steady disks)
    (control : hd.control = .atRepeat) {next : Hd}
    (runs : hd.doHdRequest disks = some next) : next.Steady disks := by
  have isIdle := steady.idle control
  obtain ⟨orderly, few, _⟩ := steady
  obtain ⟨nodup, current, waiting, fresh, ended⟩ := orderly
  have resting (control : Control) : ({ hd with control } : Hd).Orderly disks :=
    ⟨nodup, current, waiting, fresh, ended⟩
  unfold Hd.doHdRequest at runs
  split at runs
  · cases runs
    exact steady_idle (resting _) few isIdle
  · rename_i slot rest isQueue
    dsimp only at runs
    split at runs
    · cases runs
    split at runs
    · -- outside of the partition
      cases runs
      have failed := (resting hd.control).endRequest
        (nofun : false = true → _)
      have idle : (hd.endRequest false).work = .idle := by
        unfold Hd.endRequest
        rw [isQueue]
        exact isIdle
      obtain ⟨⟨nodup, current, waiting, fresh, ended⟩, few⟩ := failed
      exact steady_idle ⟨nodup, current, waiting, fresh, ended⟩ few idle
    split at runs
    · cases runs
    rename_i geometry
    have positive := fun isZero => geometry (.inl isZero)
    split at runs
    · exact Steady.positions runs ⟨nodup, current, waiting, fresh, ended⟩ few
        isQueue rfl (.inr rfl)
    split at runs
    · exact Steady.positions runs ⟨nodup, current, waiting, fresh, ended⟩ few
        isQueue rfl (.inl rfl)
    split at runs
    · rename_i isWrite
      exact @Steady.transfers disks _ true next (resting .polling) few slot
        rest isQueue isWrite positive rfl _ rfl runs
    · rename_i isRead
      exact @Steady.transfers disks _ false next (resting .resting) few slot
        rest isQueue isRead positive rfl _ rfl runs
    · cases runs

theorem Steady.polled (steady : hd.Steady disks)
    (control : hd.control = .polling) {drq : Bool} {wild : Nat} {next : Hd}
    (runs : hd.polled drq wild = some next) : next.Steady disks := by
  obtain ⟨orderly, few, coupled⟩ := steady
  obtain ⟨nodup, current, waiting, fresh, ended⟩ := orderly
  unfold Hd.polled at runs
  split at runs
  · cases runs
  · rename_i slot rest isQueue
    split at runs
    · cases runs
      refine ⟨⟨nodup, current, waiting, fresh, ended⟩, few, ?_⟩
      have buffer : (hd.requests slot).buffer =
          (hd.made slot).address hd.moved.length := by
        rw [(current slot rest isQueue).fields few]
      unfold Coupled at coupled ⊢
      rw [control] at coupled
      dsimp only [portWrite]
      split at coupled
      · trivial
      · cases coupled.1
      · obtain ⟨first, others, isCons, handler, inDrive, _⟩ := coupled
        rw [isQueue] at isCons
        obtain ⟨rfl, rfl⟩ := List.cons.inj isCons
        refine ⟨slot, rest, isQueue, handler, inDrive, fun _ => ?_⟩
        unfold Latched
        rw [← buffer]
    · exact Steady.failed runs ⟨nodup, current, waiting, fresh, ended⟩ few rfl

/-- A sector of the current request has been transferred. -/
theorem Orderly.advance {next : Hd} (orderly : hd.Orderly disks)
    (few : hd.moved.length < 2) {slot : Nat} {rest : List Nat}
    (isQueue : hd.queue = slot :: rest) {move : Moved}
    (isMove : (hd.made slot).Addressed disks →
      move = (hd.made slot).move disks hd.moved.length)
    (copied : (hd.made slot).Addressed disks →
      (hd.made slot).Copied disks (hd.moved.length + 1) next.memory next.disk)
    (fields : hd.moved.length + 1 < 2 → ∃ errors, next.requests slot =
      { hd.requests slot with
        errors
        sector := ((hd.requests slot).sector + 1) % 2 ^ 32
        nrSectors := (hd.requests slot).nrSectors - 1
        buffer := (hd.requests slot).buffer + 512 })
    (others : ∀ other, other ≠ slot → next.requests other = hd.requests other)
    (queue : next.queue = hd.queue) (made : next.made = hd.made)
    (moved : next.moved = hd.moved ++ [move])
    (issued : next.issued = hd.issued) (ended : next.ended = hd.ended) :
    next.Orderly disks := by
  have underway := orderly.current slot rest isQueue
  have nodup := orderly.nodup
  rw [isQueue, List.nodup_cons] at nodup
  have count : next.moved.length = hd.moved.length + 1 := by
    rw [moved, List.length_append]
    rfl
  refine ⟨?_, ?_, ?_, ?_, ?_⟩
  · rw [queue]
    exact orderly.nodup
  · intro first behind isCons
    rw [queue, isQueue] at isCons
    obtain ⟨rfl, rfl⟩ := List.cons.inj isCons
    rw [made]
    refine ⟨underway.whole, underway.fits, ?_, ?_, ?_, ?_⟩
    · intro left
      rw [count] at left ⊢
      obtain ⟨errors, isNext⟩ := fields left
      have before := underway.fields few
      have sector : (((hd.made slot).sector + hd.moved.length) % 2 ^ 32 + 1) %
          2 ^ 32 = ((hd.made slot).sector + (hd.moved.length + 1)) % 2 ^ 32 := by
        omega
      have buffer : (hd.made slot).address hd.moved.length + 512 =
          (hd.made slot).address (hd.moved.length + 1) := by
        unfold HdRequest.address
        omega
      rw [isNext, before]
      dsimp only
      rw [sector, buffer]
      rfl
    · intro addressed
      rw [count, List.range_succ, List.map_append, ← underway.moves addressed,
        moved, isMove addressed]
      rfl
    · intro addressed
      rw [count]
      exact copied addressed
    · intro addressed
      rw [issued]
      exact underway.commands addressed
  · intro first behind isCons other member
    rw [queue, isQueue] at isCons
    obtain ⟨rfl, rfl⟩ := List.cons.inj isCons
    have different : other ≠ slot := by
      rintro rfl
      exact nodup.1 member
    rw [made, others other different]
    exact orderly.waiting slot rest isQueue other member
  · intro isEmpty
    rw [queue, isQueue] at isEmpty
    cases isEmpty
  · rw [ended]
    exact orderly.ended

end Hd

theorem InDrive.next {disks : Disks} {made : HdRequest} {moved : List Moved} {write : Bool}
    {drive lba left : Nat} {move : Moved}
    (inDrive : InDrive disks made moved write drive lba left) :
    InDrive disks made (moved ++ [move]) write drive (lba + 1) (left - 1) where
  cmd := inDrive.cmd
  left := by
    rw [inDrive.left, List.length_append]
    rfl
  place := by
    intro addressed
    obtain ⟨isDrive, isLba⟩ := inDrive.place addressed
    refine ⟨isDrive, ?_⟩
    rw [isLba, List.length_append]
    rfl

section Copies

variable {disks : Disks} {made : HdRequest} {memory : Nat → UInt8}
  {disk : Nat → Nat → Nat → UInt8} {count : Nat}

/-- The next sector is read to its place. -/
theorem HdRequest.Copied.read
    (copied : made.Copied disks count memory disk) :
    made.Copied disks (count + 1)
      (fun other =>
        if made.address count ≤ other ∧ other < made.address count + 512 then
          disk made.drive (made.lba disks count) (other - made.address count)
        else memory other) disk := by
  intro index below offset inSector
  dsimp only
  unfold HdRequest.address
  by_cases isLast : index = count
  · subst isLast
    rw [if_pos ⟨by omega, by omega⟩]
    congr 1
    omega
  · rw [if_neg (by omega)]
    exact copied index (by omega) offset inSector

/-- The next sector is written to its place. -/
theorem HdRequest.Copied.write
    (copied : made.Copied disks count memory disk) :
    made.Copied disks (count + 1) memory
      (fun drive lba =>
        if drive = made.drive ∧ lba = made.lba disks count then
          sectorAt memory (made.address count)
        else disk drive lba) := by
  intro index below offset inSector
  dsimp only
  by_cases isLast : index = count
  · subst isLast
    rw [if_pos ⟨rfl, rfl⟩]
    rfl
  · have elsewhere : made.lba disks index ≠ made.lba disks count := by
      unfold HdRequest.lba
      omega
    rw [if_neg fun same => elsewhere same.2]
    exact copied index (by omega) offset inSector

end Copies

namespace Hd

variable {disks : Disks} {hd : Hd} {slot : Nat} {rest : List Nat}

/-- What remains of a command after a sector of it. -/
def remaining (write : Bool) (drive lba left : Nat) : Work :=
  if left ≤ 1 then .idle else .transferring write drive (lba + 1) (left - 1)

/-- After the last sector the request is ended. -/
theorem Orderly.finished {next : Hd} (orderly : hd.Orderly disks)
    (both : hd.moved.length = 2) (isIdle : hd.work = .idle)
    (isQueue : hd.queue = slot :: rest)
    (ends : some (hd.endRequest true).restart = some next) :
    next.Steady disks := by
  obtain ⟨⟨nodup, current, waiting, fresh, ended⟩, few⟩ :=
    @Orderly.endRequest _ _ orderly true fun _ => both
  have idle : (hd.endRequest true).work = .idle := by
    unfold Hd.endRequest
    rw [isQueue]
    exact isIdle
  cases ends
  exact steady_idle ⟨nodup, current, waiting, fresh, ended⟩ few idle

/-- The drive has no more of a command that has failed. -/
theorem serve_bad : hd.serve false = { hd with work := .idle } := by
  unfold serve
  split <;> rfl

theorem Steady.readIntr {drive lba left wild : Nat} {next : Hd}
    (orderly : hd.Orderly disks) (few : hd.moved.length < 2)
    (isQueue : hd.queue = slot :: rest) (control : hd.control = .resting)
    (inDrive : InDrive disks (hd.made slot) hd.moved false drive lba left)
    (isWork : hd.work = remaining false drive lba left)
    (runs : hd.readIntr (.transferring false drive lba left) true wild =
      some next) : next.Steady disks := by
  have fields := (orderly.current slot rest isQueue).fields few
  have copies := (orderly.current slot rest isQueue).copies
  have nrSectors : (hd.requests slot).nrSectors = 2 - hd.moved.length := by
    rw [fields]
  have buffer : (hd.requests slot).buffer =
      (hd.made slot).address hd.moved.length := by rw [fields]
  unfold Hd.readIntr at runs
  rw [isQueue] at runs
  dsimp only at runs
  rw [if_pos rfl] at runs
  generalize isAfter : setRequest _ slot _ = after at runs
  have moved : after.moved = hd.moved ++
      [⟨false, drive, lba, (hd.requests slot).buffer⟩] := by
    rw [← isAfter]
    rfl
  have memory : after.memory = fun other =>
      if (hd.made slot).address hd.moved.length ≤ other ∧
          other < (hd.made slot).address hd.moved.length + 512 then
        hd.disk drive lba (other - (hd.made slot).address hd.moved.length)
      else hd.memory other := by
    rw [← buffer, ← isAfter]
    rfl
  have disk : after.disk = hd.disk := by
    rw [← isAfter]
    rfl
  have queue : after.queue = hd.queue := by
    rw [← isAfter]
    rfl
  have own : after.requests slot = { hd.requests slot with
      errors := 0
      buffer := (hd.requests slot).buffer + 512
      sector := ((hd.requests slot).sector + 1) % 2 ^ 32
      nrSectors := (hd.requests slot).nrSectors - 1 } := by
    rw [← isAfter]
    exact if_pos rfl
  have later : after.Orderly disks := by
    refine orderly.advance few isQueue ?_ ?_ ?_ ?_ queue ?_ moved ?_ ?_
    · intro addressed
      obtain ⟨isDrive, isLba⟩ := inDrive.place addressed
      unfold HdRequest.move
      rw [buffer, isDrive, isLba]
      have isRead : ((hd.made slot).cmd == .write) = false := by
        rw [beq_eq_false_iff_ne]
        intro isWrite
        cases inDrive.cmd.mpr isWrite
      rw [isRead]
    · intro addressed
      obtain ⟨isDrive, isLba⟩ := inDrive.place addressed
      rw [memory, disk, isDrive, isLba]
      exact (copies addressed).read
    · exact fun _ => ⟨0, own⟩
    · intro other different
      rw [← isAfter]
      exact if_neg different
    all_goals
      rw [← isAfter]
      rfl
  have count : after.moved.length = hd.moved.length + 1 := by
    rw [moved, List.length_append]
    rfl
  have isLeft := inDrive.left
  have work : after.work = hd.work := by
    rw [← isAfter]
    rfl
  have made : after.made = hd.made := by
    rw [← isAfter]
    rfl
  have stillResting : after.control = .resting := by
    rw [← isAfter]
    exact control
  have isNext : InDrive disks (after.made slot) after.moved false drive
      (lba + 1) (left - 1) := by
    rw [moved, made]
    exact inDrive.next
  split at runs <;> rename_i more
  · have goesOn : after.work =
        .transferring false drive (lba + 1) (left - 1) := by
      rw [work, isWork]
      exact if_neg (by omega)
    cases runs
    refine ⟨⟨later.nodup, later.current, later.waiting, later.fresh,
      later.ended⟩, ?_, ?_⟩
    · dsimp only
      omega
    · unfold Coupled
      dsimp only
      rw [goesOn, stillResting]
      exact ⟨slot, rest, queue.trans isQueue, rfl, isNext, nofun⟩
  · refine later.finished ?_ ?_ (queue.trans isQueue) runs
    · omega
    · rw [work, isWork]
      exact if_pos (by omega)

theorem Steady.writeIntr {drive lba left wild : Nat} {served next : Hd}
    (orderly : hd.Orderly disks) (few : hd.moved.length < 2)
    (isQueue : hd.queue = slot :: rest) (control : hd.control = .resting)
    (inDrive : InDrive disks (hd.made slot) hd.moved true drive lba left)
    (latched : hd.Latched (hd.made slot))
    (isServed : served = { hd with
      doHd := none
      work := remaining true drive lba left
      disk := fun otherDrive otherLba =>
        if otherDrive = drive ∧ otherLba = lba then hd.latch.2
        else hd.disk otherDrive otherLba
      moved := hd.moved ++ [⟨true, drive, lba, hd.latch.1⟩] })
    (runs : served.writeIntr true wild = some next) : next.Steady disks := by
  have fields := (orderly.current slot rest isQueue).fields few
  have copies := (orderly.current slot rest isQueue).copies
  have nrSectors : (hd.requests slot).nrSectors = 2 - hd.moved.length := by
    rw [fields]
  have buffer : (hd.requests slot).buffer =
      (hd.made slot).address hd.moved.length := by rw [fields]
  have isLeft := inDrive.left
  have count (move : Moved) :
      (hd.moved ++ [move]).length = hd.moved.length + 1 := by
    rw [List.length_append]
    rfl
  -- with the sector recorded, whatever becomes of the request
  have recorded (request : HdRequest)
      (advanced : hd.moved.length + 1 < 2 → ∃ errors, request =
        { hd.requests slot with
          errors
          sector := ((hd.requests slot).sector + 1) % 2 ^ 32
          nrSectors := (hd.requests slot).nrSectors - 1
          buffer := (hd.requests slot).buffer + 512 }) :
      (served.setRequest slot request).Orderly disks := by
    subst isServed
    refine orderly.advance few isQueue ?_ ?_ ?_ ?_ rfl rfl rfl rfl rfl
    · intro addressed
      obtain ⟨isDrive, isLba⟩ := inDrive.place addressed
      unfold HdRequest.move
      rw [latched, isDrive, isLba, inDrive.cmd.mp rfl]
      rfl
    · intro addressed
      obtain ⟨isDrive, isLba⟩ := inDrive.place addressed
      have written := (copies addressed).write
      rw [latched, isDrive, isLba]
      exact written
    · intro left
      obtain ⟨errors, isRequest⟩ := advanced left
      refine ⟨errors, ?_⟩
      rw [← isRequest]
      exact if_pos rfl
    · exact fun other different => if_neg different
  have request : served.requests slot = hd.requests slot := by rw [isServed]
  have queue : served.queue = slot :: rest := by rw [isServed, isQueue]
  unfold Hd.writeIntr at runs
  split at runs
  · rename_i isEmpty
    rw [queue] at isEmpty
    cases isEmpty
  · rename_i first others isCons
    rw [queue] at isCons
    obtain ⟨rfl, rfl⟩ := List.cons.inj isCons
    dsimp only at runs
    rw [if_pos rfl, request] at runs
    split at runs <;> rename_i more
    · have later := recorded _ fun _ => ⟨(hd.requests slot).errors, rfl⟩
      cases runs
      refine ⟨⟨later.nodup, later.current, later.waiting, later.fresh,
        later.ended⟩, ?_, ?_⟩
      · subst isServed
        show (hd.moved ++ _).length < 2
        rw [count]
        omega
      · subst isServed
        have goesOn : remaining true drive lba left =
            .transferring true drive (lba + 1) (left - 1) := if_neg (by omega)
        unfold Coupled
        dsimp only [portWrite, setRequest]
        rw [goesOn, control]
        refine ⟨slot, rest, isQueue, rfl, inDrive.next, fun _ => ?_⟩
        have address : (hd.requests slot).buffer + 512 =
            (hd.made slot).address (hd.moved.length + 1) := by
          rw [buffer]
          unfold HdRequest.address
          omega
        unfold Latched
        dsimp only
        rw [count, address]
    · have later := recorded
        { hd.requests slot with nrSectors := (hd.requests slot).nrSectors - 1 }
        fun _ => by omega
      refine later.finished ?_ ?_ queue runs
      · subst isServed
        show (hd.moved ++ _).length = 2
        rw [count]
        omega
      · subst isServed
        exact if_pos (by omega)

theorem readIntr_bad (isQueue : hd.queue = slot :: rest) (work : Work)
    (wild : Nat) : hd.readIntr work false wild =
      (hd.badRwIntr wild).map restart := by
  unfold readIntr
  split
  · rename_i isEmpty
    rw [isQueue] at isEmpty
    cases isEmpty
  · rfl

theorem writeIntr_bad (isQueue : hd.queue = slot :: rest) (wild : Nat) :
    hd.writeIntr false wild = (hd.badRwIntr wild).map restart := by
  unfold writeIntr
  split
  · rename_i isEmpty
    rw [isQueue] at isEmpty
    cases isEmpty
  · rfl

theorem Steady.interrupt (steady : hd.Steady disks)
    (control : hd.control = .resting) {good : Bool} {wild : Nat} {next : Hd}
    (runs : hd.interrupt good wild = some next) : next.Steady disks := by
  obtain ⟨orderly, few, coupled⟩ := steady
  obtain ⟨nodup, current, waiting, fresh, ended⟩ := orderly
  have orderly : hd.Orderly disks := ⟨nodup, current, waiting, fresh, ended⟩
  -- a failed command leaves the drive idle
  have failed (ends : (({ hd.serve false with doHd := none } : Hd).badRwIntr
      wild).map restart = some next) : next.Steady disks := by
    rw [serve_bad] at ends
    exact Steady.failed ends ⟨nodup, current, waiting, fresh, ended⟩ few rfl
  unfold Coupled at coupled
  unfold Hd.interrupt at runs
  cases isWork : hd.work with
  | idle =>
      rw [isWork] at runs
      cases runs
  | positioning =>
      rw [isWork] at runs coupled
      obtain ⟨_, handler, _⟩ := coupled
      dsimp only at runs
      rw [handler] at runs
      unfold Hd.recalIntr at runs
      cases good with
      | false => exact failed runs
      | true =>
          have served : hd.serve true = { hd with work := .idle } := by
            unfold serve
            rw [isWork]
          rw [served] at runs
          cases runs
          exact steady_idle ⟨nodup, current, waiting, fresh, ended⟩ few rfl
  | transferring write drive lba left =>
      rw [isWork] at runs coupled
      obtain ⟨slot, rest, isQueue, handler, inDrive, latched⟩ := coupled
      rw [control] at latched
      dsimp only at runs latched
      rw [handler] at runs
      cases good with
      | false =>
          have queue : (hd.serve false).queue = slot :: rest := by
            rw [serve_bad]
            exact isQueue
          apply failed
          cases write with
          | false =>
              exact (@readIntr_bad { hd.serve false with doHd := none } slot
                rest queue _ wild).symm.trans runs
          | true =>
              exact (@writeIntr_bad { hd.serve false with doHd := none } slot
                rest queue wild).symm.trans runs
      | true =>
          cases write with
          | false =>
              have served : hd.serve true =
                  { hd with work := remaining false drive lba left } := by
                unfold serve
                rw [isWork]
                rfl
              rw [served] at runs
              exact @Steady.readIntr disks
                { hd with
                  doHd := none
                  work := remaining false drive lba left } slot rest drive lba
                left wild next ⟨nodup, current, waiting, fresh, ended⟩ few
                isQueue control inDrive rfl runs
          | true =>
              refine Steady.writeIntr orderly few isQueue control inDrive
                (latched rfl) ?_ runs
              unfold serve
              rw [isWork]
              rfl

theorem Steady.addRequest (steady : hd.Steady disks)
    (control : hd.control = .resting) {dev sector bh buffer : Nat} {cmd : Rw}
    (isFree : slot ∉ hd.queue) :
    (hd.addRequest slot (hdRequestOf dev cmd sector bh buffer)).Steady
      disks := by
  obtain ⟨orderly, few, coupled⟩ := steady
  have fits : sector % 2 ^ 32 < 2 ^ 32 := Nat.mod_lt _ (by decide)
  unfold Hd.addRequest
  dsimp only
  split <;> rename_i isQueue
  · have isQueue : hd.queue = [] := isQueue
    have fresh := orderly.fresh isQueue
    have isIdle : hd.work = .idle := by
      unfold Coupled at coupled
      split at coupled
      · assumption
      · exact (coupled.2.2 isQueue).elim
      · obtain ⟨_, _, isCons, _⟩ := coupled
        rw [isQueue] at isCons
        cases isCons
    refine steady_idle ⟨List.nodup_singleton slot, ?_, ?_, nofun,
      orderly.ended⟩ few isIdle
    · intro first others isCons
      obtain ⟨rfl, rfl⟩ := List.cons.inj isCons
      have new := @underway_fresh disks
        (hdRequestOf dev cmd sector bh buffer) hd.memory hd.disk rfl fits
      dsimp only [setRequest, restart]
      rw [if_pos rfl, if_pos rfl, fresh.1, fresh.2]
      exact new
    · intro first others isCons other member
      obtain ⟨rfl, rfl⟩ := List.cons.inj isCons
      cases member
  · rename_i tmp rest
    have isQueue : hd.queue = tmp :: rest := isQueue
    have isOld {other : Nat} (member : other ∈ hd.queue) : other ≠ slot := by
      rintro rfl
      exact isFree member
    have isFirst : tmp ∈ hd.queue := isQueue ▸ List.mem_cons_self
    have nodup := orderly.nodup
    rw [isQueue] at nodup
    generalize isLine : elevator _ slot tmp rest = line
    have perm : line.Perm (slot :: rest) := isLine ▸ elevator_perm _ _ _ _
    have whole : (tmp :: line).Perm (slot :: tmp :: rest) :=
      (perm.cons tmp).trans (List.Perm.swap slot tmp rest)
    refine ⟨⟨?_, ?_, ?_, nofun, orderly.ended⟩, few, ?_⟩
    · rw [whole.nodup_iff, List.nodup_cons]
      exact ⟨isQueue ▸ isFree, nodup⟩
    · intro first others isCons
      obtain ⟨rfl, rfl⟩ := List.cons.inj isCons
      have kept := orderly.current tmp rest isQueue
      dsimp only [setRequest]
      rw [if_neg (isOld isFirst), if_neg (isOld isFirst)]
      exact kept
    · intro first others isCons other member
      obtain ⟨rfl, rfl⟩ := List.cons.inj isCons
      dsimp only [setRequest]
      rcases List.mem_cons.mp (perm.mem_iff.mp member) with rfl | behind
      · rw [if_pos rfl, if_pos rfl]
        exact ⟨rfl, rfl, fits⟩
      · have isBehind : other ∈ hd.queue :=
          isQueue ▸ List.mem_cons_of_mem tmp behind
        rw [if_neg (isOld isBehind), if_neg (isOld isBehind)]
        exact orderly.waiting tmp rest isQueue other behind
    · unfold Coupled at coupled ⊢
      dsimp only [setRequest]
      rw [control] at coupled ⊢
      split at coupled
      · trivial
      · exact ⟨rfl, coupled.2.1, nofun⟩
      · obtain ⟨first, others, isCons, handler, inDrive, latched⟩ := coupled
        rw [isQueue] at isCons
        obtain ⟨rfl, rfl⟩ := List.cons.inj isCons
        refine ⟨tmp, line, rfl, handler, ?_⟩
        rw [if_neg (isOld isFirst)]
        exact ⟨inDrive, latched⟩

end Hd

/-! ## Runs -/

/-- The driver before its first request, with any flags. -/
structure Hd.Begins (hd : Hd) : Prop where
  queue : hd.queue = []
  control : hd.control = .resting
  work : hd.work = .idle
  issued : hd.issued = []
  moved : hd.moved = []
  ended : hd.ended = []

theorem Hd.Begins.steady {disks : Disks} {hd : Hd} (begins : hd.Begins) :
    hd.Steady disks := by
  obtain ⟨queue, control, work, issued, moved, ended⟩ := begins
  refine steady_idle ⟨?_, ?_, ?_, fun _ => ⟨moved, issued⟩, ?_⟩ ?_ work
  · simp [queue]
  · simp [queue]
  · simp [queue]
  · simp [ended]
  · simp [moved]

theorem hardDisk_steady {disks : Disks} {hd next : Hd} {action : HdAction}
    (steady : hd.Steady disks)
    (steps : (hardDisk disks).step hd action = some next) :
    next.Steady disks := by
  dsimp only [hardDisk] at steps
  split at steps <;> rename_i control
  · split at steps
    · cases steps
    · rename_i isFree
      cases steps
      exact steady.addRequest control isFree
  · exact steady.interrupt control steps
  · exact steady.doHdRequest control steps
  · exact steady.polled control steps
  · cases steps

/-- Every request that ends well has had both its sectors transferred to or
from their places, and each command was for the sectors left, as far as the
cylinder registers reach. -/
theorem hardDisk_transfers {disks : Disks} {start hd : Hd}
    (begins : start.Begins)
    (reached : (hardDisk disks).Reachable Machine.anything start hd) :
    (∀ service ∈ hd.ended, service.made.Addressed disks →
      (∀ outgoing ∈ service.issued,
        service.made.Commanded disks outgoing) ∧
      (service.uptodate = true → service.Right disks)) ∧
    ∀ slot rest, hd.queue = slot :: rest →
      (hd.made slot).Addressed disks → ∀ outgoing ∈ hd.issued,
        (hd.made slot).Commanded disks outgoing := by
  have steady : hd.Steady disks :=
    reached.invariant begins.steady fun _ _ _ before _ steps =>
      hardDisk_steady before steps
  refine ⟨steady.orderly.ended, ?_⟩
  intro slot rest isQueue
  exact (steady.orderly.current slot rest isQueue).commands

section Witness

/-- One drive of 16 heads and 63 sectors, with one partition. -/
def oneDisk (startSect : Nat) : Disks where
  info := fun _ =>
    { head := 16, sect := 63, cyl := 1000, wpcom := 0, ctl := 8
      head_lt := by decide, sect_lt := by decide, cyl_lt := by decide }
  nrHd := 1
  part := fun _ => { startSect, nrSects := 10000 }

def idleDisk : Hd where
  requests := fun _ => hdRequestOf 769 .read 0 0 0
  queue := []
  lock := fun _ => false
  uptodate := fun _ => false
  reset := true
  recalibrate := false
  doHd := none
  control := .resting
  work := .idle
  latch := (0, fun _ => 0)
  memory := fun _ => 0
  disk := fun _ _ _ => 0
  made := fun _ => hdRequestOf 769 .read 0 0 0
  issued := []
  moved := []
  ended := []

theorem idleDisk_begins : idleDisk.Begins := ⟨rfl, rfl, rfl, rfl, rfl, rfl⟩

/-- A read of sectors 4 and 5 of the partition after a reset, with an error
before each of them. -/
def badSectors : List HdAction :=
  [.add 31 769 .read 4 1 8192, .proceed, .interrupt true 0, .proceed,
    .interrupt true 0, .proceed, .interrupt false 0, .proceed,
    .interrupt true 0, .interrupt false 0, .proceed, .interrupt true 0]

theorem hardDisk_transfers_retries :
    ∃ hd service, (hardDisk (oneDisk 63)).run Machine.anything idleDisk
        badSectors = some hd ∧ hd.ended = [service] ∧
      service.uptodate = true ∧ service.issued.length = 5 ∧
      service.Right (oneDisk 63) := by
  obtain ⟨hd, service, runs, isEnded, isGood, commands, addressed⟩ :
      ∃ hd service, (hardDisk (oneDisk 63)).run Machine.anything idleDisk
          badSectors = some hd ∧ hd.ended = [service] ∧
        service.uptodate = true ∧ service.issued.length = 5 ∧
        service.made.Addressed (oneDisk 63) := by
    refine ⟨_, _, rfl, rfl, rfl, rfl, ?_⟩
    show 68 < 65536 * (16 * 63)
    decide
  obtain ⟨services, _⟩ := hardDisk_transfers idleDisk_begins
    (Machine.reachable_of_run .start runs)
  have isService : service ∈ hd.ended := by simp [isEnded]
  exact ⟨hd, service, runs, isEnded, isGood, commands,
    (services service isService addressed).2 isGood⟩

/-- A read of sectors 0 and 1 of the partition. -/
def firstSectors : List HdAction :=
  [.add 31 769 .read 0 1 8192, .proceed, .interrupt true 0, .proceed,
    .interrupt true 0, .proceed, .interrupt true 0, .interrupt true 0]

/-- The registers hold 16 bits of a cylinder.  The sectors of a partition
behind the last of them are taken from the beginning of the drive. -/
theorem hardDisk_wraps :
    ∃ hd service, (hardDisk (oneDisk 66060288)).Reachable Machine.anything
        idleDisk hd ∧ service ∈ hd.ended ∧ service.uptodate = true ∧
      service.made = hdRequestOf 769 .read 0 1 8192 ∧
      service.moved = [⟨false, 0, 0, 8192⟩, ⟨false, 0, 1, 8704⟩] ∧
      ¬service.Right (oneDisk 66060288) := by
  obtain ⟨hd, service, runs, isEnded, isGood, made, moved⟩ :
      ∃ hd service, (hardDisk (oneDisk 66060288)).run Machine.anything
          idleDisk firstSectors = some hd ∧ hd.ended = [service] ∧
        service.uptodate = true ∧
        service.made = hdRequestOf 769 .read 0 1 8192 ∧
        service.moved = [⟨false, 0, 0, 8192⟩, ⟨false, 0, 1, 8704⟩] :=
    ⟨_, _, rfl, rfl, rfl, rfl, rfl⟩
  have isService : service ∈ hd.ended := by simp [isEnded]
  refine ⟨hd, service, Machine.reachable_of_run .start runs, isService, isGood,
    made, moved, fun right => ?_⟩
  have places := right.moved
  rw [moved, made] at places
  simp [HdRequest.move, HdRequest.lba, hdRequestOf, oneDisk] at places

end Witness

end Linux011.Fs
