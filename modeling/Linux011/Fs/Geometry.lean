import Linux011.Fs.ErrorHandlers

/-!
# Cylinders, heads and sectors

The place on a disk that `do_hd_request` and `do_fd_request` compute for a
request, and the place that is programmed or stored.
-/

namespace Linux011.Fs

/-! ## Places -/

/-- A cylinder or track, a head and a sector of it, counted from 1. -/
structure ChsPlace where
  cyl : Nat
  head : Nat
  sec : Nat
  deriving DecidableEq

/-- The place of a sector by the two divisions. -/
def placeOf (heads sect number : Nat) : ChsPlace where
  cyl := number / sect / heads
  head := number / sect % heads
  sec := number % sect + 1

/-- The number of the sector at the place. -/
def ChsPlace.number (heads sect : Nat) (place : ChsPlace) : Nat :=
  (place.cyl * heads + place.head) * sect + place.sec - 1

theorem number_placeOf (heads sect number : Nat) :
    (placeOf heads sect number).number heads sect = number := by
  have track := Nat.div_add_mod' (number / sect) heads
  have sector := Nat.div_add_mod' number sect
  unfold ChsPlace.number placeOf
  dsimp only
  rw [track]
  omega

/-- The place lies on the disk. -/
structure ChsPlace.Within (cyls heads sect : Nat) (place : ChsPlace) : Prop where
  cyl : place.cyl < cyls
  head : place.head < heads
  first : 1 ≤ place.sec
  last : place.sec ≤ sect

theorem placeOf_within {cyls heads sect number : Nat} (someHead : 0 < heads)
    (someSect : 0 < sect) (inside : number < cyls * heads * sect) :
    (placeOf heads sect number).Within cyls heads sect := by
  have track : number / sect < cyls * heads :=
    Nat.div_lt_of_lt_mul (by rwa [Nat.mul_comm])
  have cyl : number / sect / heads < cyls :=
    Nat.div_lt_of_lt_mul (by rwa [Nat.mul_comm])
  have sector := Nat.mod_lt number someSect
  exact ⟨cyl, Nat.mod_lt _ someHead, Nat.le_add_left 1 _, sector⟩

/-! ## The hard disk -/

/-- The place that the registers are set to. -/
def Command.place (command : Command) : ChsPlace where
  cyl := command.hcyl * 256 + command.lcyl
  head := command.head
  sec := command.sector

namespace HdRequest

/-- The number of the request's first sector on its drive. -/
def start (disks : Disks) (request : HdRequest) : Nat :=
  (disks.part (minor (request.dev.getD 0))).startSect + request.sector

def info (disks : Disks) (request : HdRequest) : HdInfo :=
  disks.info request.drive

/-- The geometry of the drive and the partition of the request on it. -/
structure Located (disks : Disks) (request : HdRequest) : Prop where
  someSect : 1 ≤ (request.info disks).sect
  someHead : 1 ≤ (request.info disks).head
  fewHeads : (request.info disks).head ≤ 16
  inDrive : (disks.part (minor (request.dev.getD 0))).startSect +
      (disks.part (minor (request.dev.getD 0))).nrSects ≤
    (request.info disks).cyl * (request.info disks).head *
      (request.info disks).sect

/-- The request is for a sector of the block. -/
def OfBlock (request : HdRequest) (block : Nat) : Prop :=
  request.sector = 2 * block ∨ request.sector = 2 * block + 1

end HdRequest

/-- `do_hd_request` takes the request and programs its transfer. -/
def Hd.Programs (disks : Disks) (hd : Hd) (request : HdRequest)
    (command : Command) : Prop :=
  ∃ slot rest next confirmed,
    hd.queue = slot :: rest ∧ hd.requests slot = request ∧
    hd.doHdRequest disks = some next ∧
    next.issued = hd.issued ++ [⟨command, confirmed⟩] ∧
    (command.cmd = .read ∨ command.cmd = .write)

namespace Hd

variable {disks : Disks} {hd : Hd}

theorem hdOut_issues {drive nsect sect head cyl : Nat} {cmd : Win}
    {intrAddr : Handler} {next : Hd} {command : Command} {confirmed : Nat}
    (out : hd.hdOut disks drive nsect sect head cyl cmd intrAddr = some next)
    (issues : next.issued = hd.issued ++ [⟨command, confirmed⟩]) :
    command.sector = sect % 256 ∧ command.lcyl = cyl % 256 ∧
      command.hcyl = cyl / 256 % 256 ∧ command.drive = drive ∧
      command.head = head ∧ command.cmd = cmd := by
  obtain ⟨issued, -, sector, lcyl, hcyl, isDrive, isHead, isCmd, isNext⟩ :=
    hdOut_some out
  subst isNext
  have same := List.append_cancel_left issues
  injection same with outgoing
  injection outgoing with isCommand
  subst isCommand
  exact ⟨sector, lcyl, hcyl, isDrive, isHead, isCmd⟩

/-- A request that is programmed has passed the range check, and the registers
are those of its first sector. -/
theorem Programs.registers {request : HdRequest} {command : Command}
    (programs : hd.Programs disks request command) :
    (request.sector + 2) % 2 ^ 32 ≤
        (disks.part (minor (request.dev.getD 0))).nrSects ∧
      command.drive = request.drive ∧
      let number := (request.sector +
        (disks.part (minor (request.dev.getD 0))).startSect) % 2 ^ 32
      let info := request.info disks
      command.sector = (number % info.sect + 1) % 256 ∧
        command.head = number / info.sect % info.head ∧
        command.lcyl = number / info.sect / info.head % 256 ∧
        command.hcyl = number / info.sect / info.head / 256 % 256 := by
  obtain ⟨slot, rest, next, confirmed, isQueue, isRequest, runs, issues,
    transfers⟩ := programs
  subst isRequest
  unfold Hd.doHdRequest at runs
  rw [isQueue] at runs
  dsimp only at runs
  split at runs
  · cases runs
  split at runs
  · -- a rejected request leaves no command
    cases runs
    have none : (hd.endRequest false).restart.issued = [] := by
      unfold Hd.restart Hd.endRequest
      rw [isQueue]
      rfl
    rw [none] at issues
    exact absurd issues (by simp)
  next accepted =>
    split at runs
    · cases runs
    split at runs
    · have isCmd := (hdOut_issues runs issues).2.2.2.2.2
      rw [isCmd] at transfers
      simp at transfers
    split at runs
    · have isCmd := (hdOut_issues runs issues).2.2.2.2.2
      rw [isCmd] at transfers
      simp at transfers
    have inPartition := Nat.le_of_not_lt fun beyond => accepted (.inr beyond)
    split at runs
    · obtain ⟨sector, lcyl, hcyl, drive, head, -⟩ := hdOut_issues runs issues
      exact ⟨inPartition, drive, sector, head, lcyl, hcyl⟩
    · obtain ⟨sector, lcyl, hcyl, drive, head, -⟩ := hdOut_issues runs issues
      exact ⟨inPartition, drive, sector, head, lcyl, hcyl⟩
    · cases runs

/-- The two bytes of a cylinder. -/
theorem cylinder_bytes {cyl : Nat} (narrow : cyl < 65536) :
    cyl / 256 % 256 * 256 + cyl % 256 = cyl := by omega

/-- Below the last block the range check does not wrap, so both sectors of the
block are in the partition, and the bytes of the registers hold the place. -/
theorem Programs.place {request : HdRequest} {command : Command}
    {block : Nat} (programs : hd.Programs disks request command)
    (located : request.Located disks) (ofBlock : request.OfBlock block)
    (bound : block < 2 ^ 31 - 1) :
    command.place = placeOf (request.info disks).head
        (request.info disks).sect (request.start disks) ∧
      request.start disks + 2 ≤
        (disks.part (minor (request.dev.getD 0))).startSect +
          (disks.part (minor (request.dev.getD 0))).nrSects := by
  obtain ⟨accepted, -, registers⟩ := programs.registers
  obtain ⟨someSect, someHead, fewHeads, inDrive⟩ := located
  have narrow := (request.info disks).sect_lt
  have short := (request.info disks).cyl_lt
  have noWrap : request.sector + 2 < 2 ^ 32 := by
    unfold HdRequest.OfBlock at ofBlock
    omega
  rw [Nat.mod_eq_of_lt noWrap] at accepted
  have inPartition : request.start disks + 2 ≤
      (disks.part (minor (request.dev.getD 0))).startSect +
        (disks.part (minor (request.dev.getD 0))).nrSects := by
    unfold HdRequest.start
    omega
  have cylinders : (request.info disks).cyl * (request.info disks).head *
      (request.info disks).sect ≤
        65535 * ((request.info disks).head * (request.info disks).sect) := by
    rw [Nat.mul_assoc]
    exact Nat.mul_le_mul_right _ (by omega)
  have tracks : (request.info disks).head * (request.info disks).sect ≤
      16 * 255 := Nat.mul_le_mul fewHeads (by omega)
  have isNumber : (request.sector +
      (disks.part (minor (request.dev.getD 0))).startSect) % 2 ^ 32 =
        request.start disks := by
    unfold HdRequest.start at *
    rw [Nat.mod_eq_of_lt (by omega), Nat.add_comm]
  dsimp only at registers
  rw [isNumber] at registers
  obtain ⟨sector, head, lcyl, hcyl⟩ := registers
  have cyl : request.start disks / (request.info disks).sect /
      (request.info disks).head < 65536 := by
    have inside : request.start disks < (request.info disks).cyl *
      (request.info disks).head * (request.info disks).sect := by omega
    have within := (placeOf_within someHead someSect inside).cyl
    exact lt_trans within short
  have inTrack := Nat.mod_lt (request.start disks) someSect
  refine ⟨?_, inPartition⟩
  unfold Command.place placeOf
  rw [sector, head, lcyl, hcyl]
  congr 1
  · exact cylinder_bytes cyl
  · exact Nat.mod_eq_of_lt (by omega)

end Hd

/-! ## The floppy disk -/

/-- `sector`, `head` and `track`. -/
def Fd.place (fd : Fd) : ChsPlace where
  cyl := fd.track
  head := fd.head
  sec := fd.sector

namespace Fd

variable {fd next : Fd}

@[simp] theorem outputByte_place (byte : Nat) :
    (fd.outputByte byte).place = fd.place := by
  unfold outputByte
  split
  · rfl
  · split <;> rfl

@[simp] theorem unlessReset_place : fd.unlessReset.place = fd.place := by
  unfold unlessReset
  split <;> rfl

@[simp] theorem specify_place : fd.specify.place = fd.place := by
  unfold specify
  show Fd.place (if _ then _ else _) = _
  split
  · simp only [outputByte_place]
    rfl
  · rfl

theorem setupRwFloppy_place (ends : fd.setupRwFloppy = some next) :
    next.place = fd.place := by
  unfold setupRwFloppy at ends
  split at ends
  · cases ends
  · cases ends
    simp only [unlessReset_place, outputByte_place]
    rfl

theorem transfer_place (ends : fd.transfer = some next) :
    next.place = fd.place := by
  unfold transfer at ends
  dsimp only at ends
  split at ends
  · cases ends
    exact specify_place
  · split at ends
    · exact (setupRwFloppy_place ends).trans specify_place
    · cases ends
      rw [unlessReset_place]
      split
      · simp only [outputByte_place]
        exact specify_place
      · simp only [outputByte_place]
        exact specify_place

theorem addTimer_place {timer : FdTimer}
    (ends : fd.addTimer timer = some next) : next.place = fd.place := by
  unfold addTimer at ends
  split at ends
  · cases ends
    rfl
  · cases ends

theorem floppyOnInterrupt_place (ends : fd.floppyOnInterrupt = some next) :
    next.place = fd.place := by
  unfold floppyOnInterrupt at ends
  dsimp only at ends
  split at ends
  · have place := addTimer_place ends
    exact place
  · have place := transfer_place ends
    exact place

end Fd

/-- `do_fd_request` takes the request, which is for a disk of the type, and
goes on with its place. -/
def Fd.Programs (beyond : Nat → FloppyStruct) (type : Nat) (fd : Fd)
    (request : HdRequest) (next : Fd) : Prop :=
  ∃ slot rest,
    fd.queue = slot :: rest ∧ fd.requests slot = request ∧
    minor (request.dev.getD 0) / 4 = type ∧
    (request.sector + 2) % 2 ^ 32 ≤ (floppyType beyond type).size ∧
    fd.repeatRequest beyond = some next

theorem Fd.Programs.place {beyond : Nat → FloppyStruct} {type : Nat}
    {fd next : Fd} {request : HdRequest}
    (programs : fd.Programs beyond type request next) :
    next.place.sec =
        (request.sector % (floppyType beyond type).sect + 1) % 256 ∧
      next.place.head = request.sector / (floppyType beyond type).sect %
        (floppyType beyond type).head % 256 ∧
      next.place.cyl = request.sector / (floppyType beyond type).sect /
        (floppyType beyond type).head % 256 := by
  obtain ⟨slot, rest, isQueue, isRequest, isType, accepted, runs⟩ := programs
  subst isRequest isType
  unfold Fd.repeatRequest at runs
  rw [isQueue] at runs
  dsimp only at runs
  split at runs
  · cases runs
  rw [if_neg (Nat.not_lt_of_le accepted)] at runs
  split at runs
  · cases runs
  split at runs
  · cases runs
  split at runs
  · rw [Fd.floppyOnInterrupt_place runs]
    exact ⟨rfl, rfl, rfl⟩
  · rw [Fd.addTimer_place runs]
    exact ⟨rfl, rfl, rfl⟩

/-- The disks of the table have two heads and at most 80 tracks. -/
theorem floppyType_narrow (beyond : Nat → FloppyStruct) {type : Nat}
    (least : 1 ≤ type) (greatest : type ≤ 7) :
    9 ≤ (floppyType beyond type).sect ∧ (floppyType beyond type).sect ≤ 18 ∧
      (floppyType beyond type).head = 2 ∧
      (floppyType beyond type).track ≤ 80 ∧
      (floppyType beyond type).size = (floppyType beyond type).track *
        (floppyType beyond type).head * (floppyType beyond type).sect := by
  match type with
  | 0 => omega
  | 1 | 2 | 3 | 4 | 5 | 6 | 7 => simp [floppyType]
  | type + 8 => omega

theorem Fd.Programs.place_eq {beyond : Nat → FloppyStruct} {type : Nat}
    {fd next : Fd} {request : HdRequest} {block : Nat}
    (programs : fd.Programs beyond type request next) (least : 1 ≤ type)
    (greatest : type ≤ 7) (ofBlock : request.OfBlock block)
    (bound : block < 2 ^ 31 - 1) :
    next.place = placeOf (floppyType beyond type).head
        (floppyType beyond type).sect request.sector ∧
      next.place.Within (floppyType beyond type).track
        (floppyType beyond type).head (floppyType beyond type).sect := by
  obtain ⟨sec, head, cyl⟩ := programs.place
  obtain ⟨-, -, -, -, -, accepted, -⟩ := programs
  obtain ⟨manySects, fewSects, heads, fewTracks, size⟩ :=
    floppyType_narrow beyond least greatest
  have noWrap : request.sector + 2 < 2 ^ 32 := by
    unfold HdRequest.OfBlock at ofBlock
    omega
  rw [Nat.mod_eq_of_lt noWrap, size] at accepted
  have within := placeOf_within (by omega) (by omega)
    (Nat.lt_of_lt_of_le (by omega) accepted : request.sector < _)
  have place : next.place = placeOf (floppyType beyond type).head
      (floppyType beyond type).sect request.sector := by
    have isSec := within.last
    have isHead := within.head
    have isCyl := within.cyl
    unfold placeOf at isSec isHead isCyl ⊢
    dsimp only at isSec isHead isCyl
    rw [Nat.mod_eq_of_lt (by omega)] at sec head cyl
    rw [← sec, ← head, ← cyl]
  rw [place]
  exact ⟨rfl, within⟩

/-! ## Exactness -/

/-- The registers name a place of the drive whose number is that of the
request's first sector, which lies with the next one in the partition; other
sectors of the drive have other places; and the place on a floppy disk has the
number of the request's sector. -/
theorem geometry_exact :
    (∀ disks hd request command block,
      Hd.Programs disks hd request command → request.Located disks →
      request.OfBlock block → block < 2 ^ 31 - 1 →
      command.place.Within (request.info disks).cyl (request.info disks).head
          (request.info disks).sect ∧
        command.place.number (request.info disks).head
          (request.info disks).sect =
            (disks.part (minor (request.dev.getD 0))).startSect +
              request.sector ∧
        ∀ sector, sector = request.start disks ∨
            sector = request.start disks + 1 →
          (disks.part (minor (request.dev.getD 0))).startSect ≤ sector ∧
            sector < (disks.part (minor (request.dev.getD 0))).startSect +
              (disks.part (minor (request.dev.getD 0))).nrSects) ∧
    (∀ disks hd hd' request request' command command' block block',
      Hd.Programs disks hd request command →
      Hd.Programs disks hd' request' command' →
      request.Located disks → request'.Located disks →
      request.OfBlock block → block < 2 ^ 31 - 1 →
      request'.OfBlock block' → block' < 2 ^ 31 - 1 →
      request.drive = request'.drive →
      request.start disks ≠ request'.start disks →
      command.place ≠ command'.place) ∧
    ∀ beyond type fd request next block,
      Fd.Programs beyond type fd request next → 1 ≤ type → type ≤ 7 →
      request.OfBlock block → block < 2 ^ 31 - 1 →
      next.place.Within (floppyType beyond type).track
          (floppyType beyond type).head (floppyType beyond type).sect ∧
        next.place.number (floppyType beyond type).head
          (floppyType beyond type).sect = request.sector := by
  refine ⟨?_, ?_, ?_⟩
  · intro disks hd request command block programs located ofBlock bound
    obtain ⟨place, inPartition⟩ := programs.place located ofBlock bound
    have inside : request.start disks < (request.info disks).cyl *
        (request.info disks).head * (request.info disks).sect := by
      have inDrive := located.inDrive
      omega
    rw [place]
    refine ⟨placeOf_within located.someHead located.someSect inside,
      number_placeOf _ _ _, ?_⟩
    have isStart : request.start disks =
      (disks.part (minor (request.dev.getD 0))).startSect +
        request.sector := rfl
    intro sector isSector
    omega
  · intro disks hd hd' request request' command command' block block' programs
      programs' located located' ofBlock bound ofBlock' bound' sameDrive
      different same
    have place := (programs.place located ofBlock bound).1
    have place' := (programs'.place located' ofBlock' bound').1
    have sameInfo : request.info disks = request'.info disks :=
      congrArg disks.info sameDrive
    apply different
    rw [← number_placeOf (request.info disks).head (request.info disks).sect
      (request.start disks), ← place, same, place', sameInfo, number_placeOf]
  · intro beyond type fd request next block programs least greatest ofBlock
      bound
    obtain ⟨place, within⟩ := programs.place_eq least greatest ofBlock bound
    refine ⟨within, ?_⟩
    rw [place, number_placeOf]

/-- The drivers with a request for a block, on a hard disk of 63 sectors a
track or on a diskette of 1.44 MB. -/
def hdAsked (block : Nat) : Hd :=
  { idleDisk with
    reset := false
    queue := [31]
    lock := fun _ => true
    requests := fun _ => hdRequestOf 769 .read (2 * block) 0 0 }

def fdAsked (block : Nat) : Fd :=
  { idleFloppy with
    queue := [31]
    lock := fun _ => true
    requests := fun _ => hdRequestOf 540 .read (2 * block) 0 0 }

theorem hdAsked_located (block : Nat) :
    (hdRequestOf 769 .read (2 * block) 0 0).Located (oneDisk 63) :=
  ⟨(by decide : 1 ≤ 63), (by decide : 1 ≤ 16), (by decide : 16 ≤ 16),
    (by decide : 63 + 10000 ≤ 1000 * 16 * 63)⟩

theorem geometry_exact_asked :
    (∃ command command', Hd.Programs (oneDisk 63) (hdAsked 100)
        (hdRequestOf 769 .read (2 * 100) 0 0) command ∧
      Hd.Programs (oneDisk 63) (hdAsked 101)
        (hdRequestOf 769 .read (2 * 101) 0 0) command' ∧
      command.place.number 16 63 = 63 + 200 ∧
      command.place ≠ command'.place) ∧
    ∃ next, Fd.Programs (fun _ => idleFloppy.floppy) 7 (fdAsked 1439)
        (hdRequestOf 540 .read (2 * 1439) 0 0) next ∧
      next.place.number 2 18 = 2878 := by
  have first : ∃ command, Hd.Programs (oneDisk 63) (hdAsked 100)
      (hdRequestOf 769 .read (2 * 100) 0 0) command :=
    ⟨_, 31, [], _, _, rfl, rfl, rfl, rfl, .inl rfl⟩
  have second : ∃ command, Hd.Programs (oneDisk 63) (hdAsked 101)
      (hdRequestOf 769 .read (2 * 101) 0 0) command :=
    ⟨_, 31, [], _, _, rfl, rfl, rfl, rfl, .inl rfl⟩
  have third : ∃ next, Fd.Programs (fun _ => idleFloppy.floppy) 7
      (fdAsked 1439) (hdRequestOf 540 .read (2 * 1439) 0 0) next :=
    ⟨_, 31, [], rfl, rfl, rfl, by decide, rfl⟩
  obtain ⟨command, programs⟩ := first
  obtain ⟨command', programs'⟩ := second
  obtain ⟨next, stored⟩ := third
  have located := hdAsked_located
  refine ⟨⟨command, command', programs, programs', ?_, ?_⟩, next, stored, ?_⟩
  · exact (geometry_exact.1 _ _ _ _ 100 programs (located 100) (.inl rfl)
      (by decide)).2.1
  · exact geometry_exact.2.1 _ _ _ _ _ _ _ 100 101 programs programs'
      (located 100) (located 101) (.inl rfl) (by decide) (.inl rfl)
      (by decide) rfl (by decide)
  · exact (geometry_exact.2.2 _ _ _ _ _ 1439 stored (by decide) (by decide)
      (.inl rfl) (by decide)).2

end Linux011.Fs
