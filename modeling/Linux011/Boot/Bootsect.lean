import Mathlib.Data.List.Range
import Mathlib.Tactic.Ring

/-!
# Loading the system

`read_it` and `read_track` of `bootsect.s`.  Registers and words of memory are
numbers below `2^16`.  The BIOS refuses each call of `read_track` a number of
times before it reads.
-/

namespace Linux011.Boot

def sysSize : Nat := 0x3000

def setupLen : Nat := 4

def sysSeg : Nat := 0x1000

def endSeg : Nat := sysSeg + sysSize

/-- A register of 16 bits. -/
def word (value : Nat) : Nat := value % 65536

/-- The registers of an `int $0x13` that reads. -/
structure Int13 where
  ah : Nat
  al : Nat
  ch : Nat
  cl : Nat
  dh : Nat
  dl : Nat
  es : Nat
  bx : Nat

inductive BiosCall where
  | refused (call : Int13)
  | reset
  | read (call : Int13)

/-- `es`, `bx`, `sread`, `head` and `track`; `calls` are those of `read_track`
so far, and `log` those of the BIOS. -/
structure Loader where
  es : Nat
  bx : Nat
  sread : Nat
  head : Nat
  track : Nat
  calls : Nat
  log : List BiosCall

/-! ## The code -/

/-- What `read_track` sets up for `ax` sectors. -/
def trackCall (ax : Nat) (loader : Loader) : Int13 :=
  let cl := word (loader.sread + 1) % 256
  let dl := loader.head % 256
  { ah := 2
    al := ax % 256
    ch := loader.track % 256
    cl
    dh := dl &&& 1
    dl := 0
    es := loader.es
    bx := loader.bx }

/-- `read_track` where the BIOS refuses to read `failures` times.  The
registers are the same at each try. -/
def readTrack (ax : Nat) : Nat → Loader → Loader
  | 0, loader =>
      { loader with log := loader.log ++ [.read (trackCall ax loader)] }
  | failures + 1, loader =>
      readTrack ax failures
        { loader with
          log := loader.log ++ [.refused (trackCall ax loader), .reset] }

/-- `ok1_read`: the sectors left on the track, or to the end of the segment if
they would go behind it. -/
def clipped (sectors : Nat) (loader : Loader) : Nat :=
  let ax := word (sectors + 65536 - loader.sread)
  let cx := word (ax * 512)
  let carry := 65536 ≤ cx + loader.bx
  let cx := word (cx + loader.bx)
  if ¬ carry then ax
  else if cx = 0 then ax
  else word (65536 - loader.bx) / 512

/-- `ok2_read` after its call, down to `ok3_read`. -/
def advanceTrack (sectors ax : Nat) (loader : Loader) : Loader :=
  let sum := word (ax + loader.sread)
  if sum ≠ sectors then { loader with sread := sum }
  else
    let other := word (1 + 65536 - loader.head)
    { loader with
      sread := 0
      head := other
      track := if other ≠ 0 then loader.track else word (loader.track + 1) }

/-- `ok3_read`. -/
def advanceMemory (cx : Nat) (loader : Loader) : Loader :=
  let cx := word (cx * 512)
  if 65536 ≤ cx + loader.bx then
    { loader with es := word (loader.es + 0x1000), bx := 0 }
  else { loader with bx := word (cx + loader.bx) }

/-- One pass from `rp_read` to the jump back. -/
def readPass (sectors : Nat) (failures : Nat → Nat) (loader : Loader) :
    Loader :=
  let ax := clipped sectors loader
  let loader := readTrack ax (failures loader.calls) loader
  let loader := { loader with calls := loader.calls + 1 }
  advanceMemory ax (advanceTrack sectors ax loader)

/-- `rp_read`, at most `fuel` times. -/
def rpRead (sectors : Nat) (failures : Nat → Nat) :
    Nat → Loader → Option Loader
  | 0, _ => none
  | fuel + 1, loader =>
      if loader.es < endSeg then
        rpRead sectors failures fuel (readPass sectors failures loader)
      else some loader

/-- `read_it`; it dies where `es` is not at a 64 KB boundary. -/
def readIt (sectors : Nat) (failures : Nat → Nat) (fuel es : Nat) :
    Option Loader :=
  if es &&& 0x0fff ≠ 0 then none
  else
    rpRead sectors failures fuel
      { es, bx := 0, sread := 1 + setupLen, head := 0, track := 0, calls := 0,
        log := [] }

/-! ## What a call reads -/

namespace Int13

/-- The first sector of the call on a disk with two heads; the upper bits of
`cl` belong to the cylinder. -/
def sector (sectors : Nat) (call : Int13) : Nat :=
  ((call.ch + call.cl / 64 * 256) * 2 + call.dh) * sectors +
    (call.cl % 64 - 1)

def address (call : Int13) : Nat := call.es * 16 + call.bx

/-- Each sector that is read with the address it is put at. -/
def placed (sectors : Nat) (call : Int13) : List (Nat × Nat) :=
  (List.range call.al).map fun i =>
    (call.sector sectors + i, call.address + 512 * i)

/-- The call reads something, from one track of the first drive and into one
64 KB segment. -/
structure Sound (sectors : Nat) (call : Int13) : Prop where
  service : call.ah = 2
  drive : call.dl = 0
  head : call.dh < 2
  some : 1 ≤ call.al
  first : 1 ≤ call.cl % 64
  track : call.cl % 64 - 1 + call.al ≤ sectors
  segment : (call.address + 512 * call.al - 1) / 65536 = call.address / 65536

end Int13

/-- The calls that were read. -/
def reads (log : List BiosCall) : List Int13 :=
  log.filterMap fun
    | .read call => some call
    | _ => none

theorem reads_append (first second : List BiosCall) :
    reads (first ++ second) = reads first ++ reads second :=
  List.filterMap_append

/-- All tries are the same call, and the last one reads. -/
theorem readTrack_eq (ax failures : Nat) (loader : Loader) :
    ∃ tries, readTrack ax failures loader =
        { loader with log := loader.log ++ tries } ∧
      reads tries = [trackCall ax loader] ∧
      ∀ call, .refused call ∈ tries → call = trackCall ax loader := by
  induction failures generalizing loader with
  | zero => exact ⟨[.read (trackCall ax loader)], rfl, rfl, by simp⟩
  | succ failures induction =>
      obtain ⟨tries, isTrack, isRead, same⟩ := induction
        { loader with
          log := loader.log ++ [.refused (trackCall ax loader), .reset] }
      refine ⟨[.refused (trackCall ax loader), .reset] ++ tries, ?_, ?_, ?_⟩
      · rw [readTrack, isTrack, List.append_assoc]
      · rw [reads_append, isRead]
        rfl
      · intro call member
        rw [List.mem_append] at member
        rcases member with first | later
        · simpa using first
        · exact same call later

/-- A pass is one call and the two moves behind it. -/
theorem readPass_eq (sectors : Nat) (failures : Nat → Nat) (loader : Loader) :
    ∃ tries, readPass sectors failures loader =
        advanceMemory (clipped sectors loader)
          (advanceTrack sectors (clipped sectors loader)
            { loader with
              log := loader.log ++ tries
              calls := loader.calls + 1 }) ∧
      reads tries = [trackCall (clipped sectors loader) loader] ∧
      ∀ call, .refused call ∈ tries →
        call = trackCall (clipped sectors loader) loader := by
  obtain ⟨tries, isTrack, isRead, same⟩ :=
    readTrack_eq (clipped sectors loader) (failures loader.calls) loader
  refine ⟨tries, ?_, isRead, same⟩
  unfold readPass
  dsimp only
  rw [isTrack]

/-! ## Where a pass begins -/

/-- The sector of the disk that is the system's `index`-th, and its address. -/
def place (index : Nat) : Nat × Nat :=
  (1 + setupLen + index, 0x10000 + 512 * index)

/-- The first `loaded` sectors of the system have been read: 128 of them fill
a segment, and the disk position is behind the last of them. -/
structure Loaded (sectors loaded : Nat) (loader : Loader) : Prop where
  within : loaded ≤ 384
  es : loader.es = 0x1000 * (loaded / 128 + 1)
  bx : loader.bx = loaded % 128 * 512
  sread : loader.sread < sectors
  head : loader.head < 2
  position : (loader.track * 2 + loader.head) * sectors + loader.sread =
    1 + setupLen + loaded
  placed : (reads loader.log).flatMap (Int13.placed sectors) =
    (List.range loaded).map place
  sound : ∀ call ∈ reads loader.log, call.Sound sectors
  refused : ∀ call, .refused call ∈ loader.log → call ∈ reads loader.log

section Pass

variable {sectors loaded : Nat} {loader : Loader}

/-- Whichever comes first, the end of the track or that of the segment. -/
theorem clipped_eq (large : 6 ≤ sectors) (small : sectors ≤ 63)
    (state : Loaded sectors loaded loader) :
    clipped sectors loader =
      min (sectors - loader.sread) (128 - loaded % 128) := by
  have sread := state.sread
  have bx := state.bx
  unfold clipped word
  dsimp only
  rw [bx]
  split
  · omega
  · split <;> omega

theorem Loaded.track_lt (large : 6 ≤ sectors)
    (state : Loaded sectors loaded loader) : loader.track < 256 := by
  have within := state.within
  have position := state.position
  have tracks : loader.track * 2 * 6 ≤
      (loader.track * 2 + loader.head) * sectors :=
    Nat.mul_le_mul (Nat.le_add_right _ _) large
  unfold setupLen at position
  omega

/-- What `read_track` asks the BIOS for. -/
theorem Loaded.call (large : 6 ≤ sectors) (small : sectors ≤ 63)
    (state : Loaded sectors loaded loader) (unfinished : loaded < 384)
    {ax : Nat} (some : 1 ≤ ax) (inTrack : ax ≤ sectors - loader.sread)
    (inSegment : ax ≤ 128 - loaded % 128) :
    (trackCall ax loader).Sound sectors ∧
      (trackCall ax loader).placed sectors =
        ((List.range ax).map (loaded + ·)).map place := by
  have track := state.track_lt large
  have sread := state.sread
  have head := state.head
  have es := state.es
  have bx := state.bx
  have position := state.position
  have count : ax % 256 = ax := by omega
  have isSector : word (loader.sread + 1) % 256 = loader.sread + 1 := by
    unfold word
    omega
  have isHead : (loader.head % 256) &&& 1 = loader.head := by
    rw [Nat.and_one_is_mod]
    omega
  have address : loader.es * 16 + loader.bx = 0x10000 + 512 * loaded := by
    omega
  refine ⟨⟨rfl, rfl, ?_, ?_, ?_, ?_, ?_⟩, ?_⟩
  · show (loader.head % 256) &&& 1 < 2
    omega
  · show 1 ≤ ax % 256
    omega
  · show 1 ≤ word (loader.sread + 1) % 256 % 64
    omega
  · show word (loader.sread + 1) % 256 % 64 - 1 + ax % 256 ≤ sectors
    omega
  · show (loader.es * 16 + loader.bx + 512 * (ax % 256) - 1) / 65536 =
      (loader.es * 16 + loader.bx) / 65536
    omega
  · have cylinder : (trackCall ax loader).sector sectors =
        1 + setupLen + loaded := by
      show ((loader.track % 256 + word (loader.sread + 1) % 256 / 64 * 256) *
        2 + ((loader.head % 256) &&& 1)) * sectors +
          (word (loader.sread + 1) % 256 % 64 - 1) = _
      rw [isSector, isHead, Nat.mod_eq_of_lt track,
        show (loader.sread + 1) / 64 = 0 by omega, Nat.zero_mul, Nat.add_zero]
      omega
    have isAddress : (trackCall ax loader).address = 0x10000 + 512 * loaded :=
      address
    unfold Int13.placed
    rw [cylinder, isAddress, show (trackCall ax loader).al = ax from count,
      List.map_map]
    refine List.map_congr_left fun i _ => ?_
    show (1 + setupLen + loaded + i, _) = place (loaded + i)
    unfold place
    refine Prod.ext (by dsimp only; omega) (by dsimp only; omega)

/-- The position on the disk moves on by the sectors read. -/
theorem advanceTrack_position {ax : Nat} (large : 6 ≤ sectors)
    (small : sectors ≤ 63) (sread : loader.sread < sectors)
    (head : loader.head < 2) (track : loader.track < 256)
    (inTrack : ax ≤ sectors - loader.sread) :
    let after := advanceTrack sectors ax loader
    after.sread < sectors ∧ after.head < 2 ∧
      (after.track * 2 + after.head) * sectors + after.sread =
        (loader.track * 2 + loader.head) * sectors + loader.sread + ax ∧
      after.es = loader.es ∧ after.bx = loader.bx ∧
      after.log = loader.log := by
  have sum : word (ax + loader.sread) = ax + loader.sread := by
    unfold word
    omega
  unfold advanceTrack
  dsimp only
  rw [sum]
  by_cases whole : ax + loader.sread = sectors
  · rw [if_neg (not_not_intro whole)]
    have ends : loader.sread + ax = sectors := by omega
    refine ⟨?_, ?_, ?_, rfl, rfl, rfl⟩
    · show 0 < sectors
      omega
    · show word (1 + 65536 - loader.head) < 2
      unfold word
      omega
    · dsimp only
      rw [Nat.add_zero, Nat.add_assoc, ends]
      by_cases first : loader.head = 0
      · rw [first, if_pos (by decide)]
        show (loader.track * 2 + 1) * sectors = _
        ring
      · have second : loader.head = 1 := by omega
        rw [second, if_neg (by decide)]
        have next : word (loader.track + 1) = loader.track + 1 := by
          unfold word
          omega
        rw [next]
        show ((loader.track + 1) * 2 + 0) * sectors = _
        ring
  · rw [if_pos whole]
    refine ⟨?_, head, ?_, rfl, rfl, rfl⟩
    · dsimp only
      omega
    · dsimp only
      omega

/-- The address moves on by the sectors read. -/
theorem advanceMemory_address {ax : Nat} (unfinished : loaded < 384)
    (es : loader.es = 0x1000 * (loaded / 128 + 1))
    (bx : loader.bx = loaded % 128 * 512)
    (inSegment : ax ≤ 128 - loaded % 128) (few : ax ≤ 63) :
    let after := advanceMemory ax loader
    after.es = 0x1000 * ((loaded + ax) / 128 + 1) ∧
      after.bx = (loaded + ax) % 128 * 512 ∧
      after.sread = loader.sread ∧ after.head = loader.head ∧
      after.track = loader.track ∧ after.log = loader.log := by
  unfold advanceMemory word
  dsimp only
  rw [Nat.mod_eq_of_lt (by omega : ax * 512 < 65536)]
  split
  · refine ⟨?_, ?_, rfl, rfl, rfl, rfl⟩
    · dsimp only
      omega
    · dsimp only
      omega
  · refine ⟨?_, ?_, rfl, rfl, rfl, rfl⟩
    · dsimp only
      omega
    · dsimp only
      omega

/-- One pass reads at least one more sector. -/
theorem Loaded.pass (large : 6 ≤ sectors) (small : sectors ≤ 63)
    (failures : Nat → Nat) (state : Loaded sectors loaded loader)
    (unfinished : loaded < 384) :
    ∃ count, 1 ≤ count ∧
      Loaded sectors (loaded + count) (readPass sectors failures loader) := by
  obtain ⟨tries, isPass, isRead, same⟩ := readPass_eq sectors failures loader
  have isCount := clipped_eq large small state
  generalize clipped sectors loader = count at isPass isRead same isCount
  have sread := state.sread
  have inTrack : count ≤ sectors - loader.sread := by omega
  have inSegment : count ≤ 128 - loaded % 128 := by omega
  have some : 1 ≤ count := by omega
  obtain ⟨sound, placed⟩ :=
    state.call large small unfinished some inTrack inSegment
  have track := state.track_lt large
  let tried : Loader :=
    { loader with log := loader.log ++ tries, calls := loader.calls + 1 }
  obtain ⟨trackSread, trackHead, position, trackEs, trackBx, trackLog⟩ :=
    @advanceTrack_position sectors tried count large small sread state.head
      track inTrack
  obtain ⟨es, bx, sameSread, sameHead, sameTrack, sameLog⟩ :=
    @advanceMemory_address loaded (advanceTrack sectors count tried) count
      unfinished (trackEs.trans state.es) (trackBx.trans state.bx) inSegment
      (by omega)
  have isLog : (readPass sectors failures loader).log =
      loader.log ++ tries := by
    rw [isPass, sameLog, trackLog]
  have isReads : reads (readPass sectors failures loader).log =
      reads loader.log ++ [trackCall count loader] := by
    rw [isLog, reads_append, isRead]
  refine ⟨count, some, ?_, ?_, ?_, ?_, ?_, ?_, ?_, ?_, ?_⟩
  · omega
  · rw [isPass, es]
  · rw [isPass, bx]
  · rw [isPass, sameSread]
    exact trackSread
  · rw [isPass, sameHead]
    exact trackHead
  · rw [isPass, sameTrack, sameHead, sameSread, position, ← Nat.add_assoc,
      ← state.position]
  · rw [isReads, List.flatMap_append, state.placed, List.flatMap_singleton,
      placed, List.range_add, List.map_append]
  · intro call member
    rw [isReads, List.mem_append, List.mem_singleton] at member
    rcases member with before | rfl
    · exact state.sound call before
    · exact sound
  · intro call member
    rw [isLog, List.mem_append] at member
    rw [isReads, List.mem_append, List.mem_singleton]
    rcases member with before | now
    · exact .inl (state.refused call before)
    · exact .inr (same call now)

end Pass

/-! ## The whole load -/

/-- By induction on the sectors that are left: the loop ends in the state behind
the last one. -/
theorem rpRead_loaded {sectors : Nat} (large : 6 ≤ sectors)
    (small : sectors ≤ 63) (failures : Nat → Nat) (left : Nat)
    {loaded : Nat} {loader : Loader} (state : Loaded sectors loaded loader)
    (isLeft : 384 - loaded ≤ left) :
    ∃ last, Loaded sectors 384 last ∧
      ∀ fuel, left < fuel →
        rpRead sectors failures fuel loader = some last := by
  have es := state.es
  have within := state.within
  induction left generalizing loaded loader with
  | zero =>
      have finished : loaded = 384 := by omega
      subst finished
      refine ⟨loader, state, fun fuel enough => ?_⟩
      obtain ⟨fuel, rfl⟩ := Nat.exists_eq_add_of_lt enough
      rw [rpRead, if_neg (by unfold endSeg sysSeg sysSize; omega)]
  | succ left induction =>
      by_cases unfinished : loaded < 384
      · obtain ⟨count, some, next⟩ :=
          state.pass large small failures unfinished
        obtain ⟨last, finished, run⟩ :=
          induction next (by omega) next.es next.within
        refine ⟨last, finished, fun fuel enough => ?_⟩
        obtain ⟨spare, rfl⟩ := Nat.exists_eq_add_of_lt enough
        rw [rpRead, if_pos (by unfold endSeg sysSeg sysSize; omega)]
        exact run _ (by omega)
      · obtain ⟨last, finished, run⟩ :=
          induction state (by omega) es within
        exact ⟨last, finished, fun fuel enough => run fuel (by omega)⟩

theorem placed_length (sectors : Nat) (call : Int13) :
    (call.placed sectors).length = call.al := by
  unfold Int13.placed
  rw [List.length_map, List.length_range]

/-- However often single reads fail, the loop ends with `es` at `ENDSEG`, each
call is sound, tries included, and the sectors behind the boot and setup
sectors have been read once and in order, to consecutive addresses. -/
theorem readIt_loads {sectors : Nat} (large : 6 ≤ sectors)
    (small : sectors ≤ 63) (failures : Nat → Nat) :
    ∃ loader,
      (∀ fuel, 385 ≤ fuel →
        readIt sectors failures fuel sysSeg = some loader) ∧
      loader.es = endSeg ∧
      (∀ call, .read call ∈ loader.log ∨ .refused call ∈ loader.log →
        call.Sound sectors) ∧
      (reads loader.log).flatMap (Int13.placed sectors) =
        ((List.range (sysSize * 16 / 512)).map fun index =>
          (1 + setupLen + index, 0x10000 + 512 * index)) ∧
      512 * ((reads loader.log).map Int13.al).sum = sysSize * 16 := by
  let first : Loader :=
    { es := sysSeg, bx := 0, sread := 1 + setupLen, head := 0, track := 0,
      calls := 0, log := [] }
  have start : Loaded sectors 0 first :=
    { within := by decide
      es := rfl
      bx := rfl
      sread := by show 5 < sectors; omega
      head := by show 0 < 2; decide
      position := by show (0 * 2 + 0) * sectors + 5 = 5; omega
      placed := rfl
      sound := by intro call member; cases member
      refused := by intro call member; cases member }
  obtain ⟨last, finished, run⟩ :=
    rpRead_loaded large small failures 384 start (by decide)
  have total : ((reads last.log).map Int13.al).sum = 384 := by
    have lengths := congrArg List.length finished.placed
    rw [List.length_flatMap, List.length_map, List.length_range] at lengths
    rw [← lengths]
    congr 1
    exact List.map_congr_left fun call _ => (placed_length sectors call).symm
  refine ⟨last, fun fuel enough => ?_, finished.es, ?_, finished.placed, ?_⟩
  · unfold readIt
    rw [if_neg (by decide)]
    exact run fuel enough
  · rintro call (read | refused)
    · exact finished.sound call
        (List.mem_filterMap.mpr ⟨.read call, read, rfl⟩)
    · exact finished.sound call (finished.refused call refused)
  · rw [total]
    rfl

/-- A disk of 18 sectors a track whose third call is refused twice. -/
theorem readIt_loads_disk :
    ∃ loader, readIt 18 (fun call => if call = 2 then 2 else 0) 400 sysSeg =
        some loader ∧ loader.es = endSeg ∧
      512 * ((reads loader.log).map Int13.al).sum = sysSize * 16 := by
  obtain ⟨loader, run, es, -, -, size⟩ :=
    @readIt_loads 18 (by decide) (by decide)
      (fun call => if call = 2 then 2 else 0)
  exact ⟨loader, run 400 (by decide), es, size⟩

end Linux011.Boot
