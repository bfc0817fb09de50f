import Linux011.Chr.Tty

/-!
# Complete lines

The counter of `secondary` says how many ends of lines are in the queue, as
long as the termios are not changed under it.
-/

namespace Linux011.Chr

open Machines RingQueues

/-! ## Queues -/

def TtyQueue.Valid (queue : TtyQueue) : Prop :=
  queue.toRingQueue.Valid ttyBufSize

section Queue

variable {queue : TtyQueue} {c : Int}

theorem chars_putch (valid : queue.Valid) (room : queue.full = false) :
    (queue.putch c).chars = queue.chars ++ [c] :=
  RingQueue.contents_put valid (by simpa [TtyQueue.full, TtyQueue.room] using room)

theorem chars_getch (valid : queue.Valid) (some : queue.empty = false) :
    queue.chars = queue.buf queue.tail :: queue.getch.chars :=
  RingQueue.contents_get valid (by simpa [TtyQueue.empty] using some)

theorem chars_dec (valid : queue.Valid) (some : queue.empty = false) :
    queue.chars = queue.dec.chars ++ [queue.last ttyBufSize] :=
  RingQueue.contents_back valid (by simpa [TtyQueue.empty] using some)

theorem chars_empty (valid : queue.Valid) :
    queue.chars = [] ↔ queue.empty = true := by
  rw [TtyQueue.empty, beq_iff_eq]
  exact RingQueue.contents_eq_nil valid

theorem chars_length (valid : queue.Valid) : queue.chars.length < 2 ^ 32 := by
  have sum := RingQueue.Valid.left valid
  have length : queue.chars.length = queue.count ttyBufSize :=
    RingQueue.contents_length
  unfold ttyBufSize at *
  omega

theorem boot_valid (data : Nat) : (TtyQueue.boot data).Valid :=
  ⟨Nat.zero_lt_succ _, Nat.zero_lt_succ _⟩

theorem boot_chars (data : Nat) : (TtyQueue.boot data).chars = [] :=
  (chars_empty (boot_valid data)).mpr rfl

end Queue

/-! ## What the counter counts -/

/-- The newlines and `EOF_CHAR`s among some characters. -/
def lineEnds (termios : Termios) (chars : List Int) : Nat :=
  chars.countP fun c => c == 10 || c == (termios.cc vEOF : Int)

theorem lineEnds_append (tty : Tty) (chars : List Int) (c : Int) :
    lineEnds tty.termios (chars ++ [c]) =
      lineEnds tty.termios chars + if tty.ends c then 1 else 0 := by
  rw [lineEnds, List.countP_append, List.countP_singleton]
  rfl

theorem lineEnds_cons (tty : Tty) (chars : List Int) (c : Int) :
    lineEnds tty.termios (c :: chars) =
      lineEnds tty.termios chars + if tty.ends c then 1 else 0 := by
  rw [lineEnds, List.countP_cons]
  rfl

structure Counted (tty : Tty) : Prop where
  valid : tty.secondary.Valid
  data : tty.secondary.data = lineEnds tty.termios tty.secondary.chars

section Echo

variable {tty : Tty} {chars : List Int}

@[simp] theorem write_termios : tty.write.termios = tty.termios := by
  unfold Tty.write
  split <;> rfl

@[simp] theorem write_secondary : tty.write.secondary = tty.secondary := by
  unfold Tty.write
  split <;> rfl

@[simp] theorem echo_termios : (tty.echo chars).termios = tty.termios :=
  write_termios

@[simp] theorem echo_secondary :
    (tty.echo chars).secondary = tty.secondary :=
  write_secondary

@[simp] theorem erase_termios : tty.erase.termios = tty.termios := by
  unfold Tty.erase
  dsimp only
  split
  · simp
  · rfl

theorem erase_secondary : tty.erase.secondary = tty.secondary.dec := by
  unfold Tty.erase
  dsimp only
  split
  · simp
  · rfl

variable {c : Int}

@[simp] theorem accept_termios : (tty.accept c).termios = tty.termios := by
  unfold Tty.accept
  dsimp only
  split <;> split <;> simp

theorem accept_secondary : (tty.accept c).secondary =
    ({ tty.secondary with
      data := if tty.ends c then (tty.secondary.data + 1) % 2 ^ 32
        else tty.secondary.data } : TtyQueue).putch c := by
  unfold Tty.accept
  dsimp only
  split <;> split <;> simp

end Echo

/-- The lines may have grown, by what has been received. -/
structure Grown (tty next : Tty) : Prop where
  termios : next.termios = tty.termios
  counted : Counted next
  ends : lineEnds tty.termios tty.secondary.chars ≤
    lineEnds next.termios next.secondary.chars

/-- Neither the control characters nor the queue change. -/
theorem Counted.same {tty next : Tty} (counted : Counted tty)
    (termios : next.termios = tty.termios)
    (secondary : next.secondary = tty.secondary) : Counted next := by
  refine ⟨?_, ?_⟩
  · rw [secondary]
    exact counted.valid
  · rw [termios, secondary]
    exact counted.data

namespace Grown

variable {tty next : Tty}

theorem of_same (counted : Counted tty) (termios : next.termios = tty.termios)
    (secondary : next.secondary = tty.secondary) : Grown tty next := by
  refine ⟨termios, counted.same termios secondary, ?_⟩
  exact Nat.le_of_eq (by rw [termios, secondary])

/-- What is erased is not the end of a line. -/
theorem erase (counted : Counted tty) (inLine : tty.lineStart = false) :
    Grown tty tty.erase := by
  rw [Tty.lineStart, Bool.or_eq_false_iff] at inLine
  obtain ⟨some, noEnd⟩ := inLine
  have split := chars_dec counted.valid some
  have same : lineEnds tty.termios tty.secondary.chars =
      lineEnds tty.termios tty.secondary.dec.chars := by
    rw [split, lineEnds_append]
    unfold Tty.last at noEnd
    simp [noEnd]
  refine ⟨erase_termios, ⟨?_, ?_⟩, ?_⟩
  · rw [erase_secondary]
    exact RingQueue.Valid.back counted.valid
  · have sameData : tty.secondary.dec.data = tty.secondary.data := by
      simp only [TtyQueue.dec]
    rw [erase_termios, erase_secondary, ← same, sameData]
    exact counted.data
  · exact Nat.le_of_eq (by rw [erase_termios, erase_secondary, same])

/-- The counter goes up before the character is in the queue. -/
theorem accept {c : Int} (counted : Counted tty)
    (room : tty.secondary.full = false) : Grown tty (tty.accept c) := by
  have few := chars_length counted.valid
  have most : lineEnds tty.termios tty.secondary.chars ≤
      tty.secondary.chars.length := List.countP_le_length
  have sum := RingQueue.Valid.left counted.valid
  have isLength : tty.secondary.chars.length =
      tty.secondary.count ttyBufSize := RingQueue.contents_length
  have isChars : (tty.accept c).secondary.chars =
      tty.secondary.chars ++ [c] := by
    rw [accept_secondary]
    exact RingQueue.contents_put counted.valid
      (by simpa [TtyQueue.full, TtyQueue.room] using room)
  have ends : lineEnds (tty.accept c).termios (tty.accept c).secondary.chars =
      lineEnds tty.termios tty.secondary.chars +
        if tty.ends c then 1 else 0 := by
    rw [accept_termios, isChars, lineEnds_append]
  refine ⟨accept_termios, ⟨?_, ?_⟩, ?_⟩
  · rw [accept_secondary]
    exact RingQueue.Valid.put counted.valid
  · rw [ends, accept_secondary]
    unfold TtyQueue.putch ttyBufSize at *
    dsimp only
    rw [counted.data]
    split
    · exact Nat.mod_eq_of_lt (by omega)
    · rfl
  · rw [ends]
    exact Nat.le_add_right _ _

theorem special {c : Int} (counted : Counted tty)
    (room : tty.secondary.full = false) : Grown tty (tty.special c) := by
  unfold Tty.special
  split
  · exact of_same counted rfl rfl
  split
  · split
    · exact of_same counted rfl rfl
    · rename_i inLine
      exact erase counted (by simpa using inLine)
  split
  · exact of_same counted rfl rfl
  split
  · exact of_same counted rfl rfl
  split
  · exact of_same counted rfl rfl
  split
  · exact of_same counted rfl rfl
  · exact accept counted room

theorem cook (counted : Counted tty) (cooks : tty.cook = some next) :
    Grown tty next := by
  unfold Tty.cook at cooks
  split at cooks
  · rw [Option.some.injEq] at cooks
    rw [← cooks]
    split
    · exact of_same counted rfl rfl
    · rename_i inLine
      exact erase counted (by simpa using inLine)
  · split at cooks
    · cases cooks
    · rename_i ready
      have room : tty.secondary.full = false := by
        simp at ready
        exact ready.2
      have taken : Counted { tty with readQ := tty.readQ.getch } :=
        ⟨counted.valid, counted.data⟩
      dsimp only at cooks
      split at cooks
      · rw [Option.some.injEq] at cooks
        rw [← cooks]
        exact of_same counted rfl rfl
      · rw [Option.some.injEq] at cooks
        rw [← cooks]
        rename_i c _
        have grown := @special { tty with readQ := tty.readQ.getch } c taken
          room
        exact ⟨grown.termios, grown.counted, grown.ends⟩

end Grown

/-! ## The reader -/

section Take

variable {tty : Tty}

theorem chars_take (counted : Counted tty)
    (some : tty.secondary.empty = false) :
    tty.secondary.chars = tty.next :: tty.take.secondary.chars := by
  have same : tty.take.secondary.toRingQueue = tty.secondary.getch.toRingQueue := by
    simp only [Tty.take]
  unfold TtyQueue.chars
  rw [same]
  exact chars_getch counted.valid some

/-- The reader takes the end of a line off the counter. -/
theorem Counted.take (counted : Counted tty)
    (some : tty.secondary.empty = false) : Counted tty.take := by
  have few := chars_length counted.valid
  have most : lineEnds tty.termios tty.secondary.chars ≤
      tty.secondary.chars.length := List.countP_le_length
  have split := chars_take counted some
  have ends := lineEnds_cons tty tty.take.secondary.chars tty.next
  rw [← split] at ends
  refine ⟨RingQueue.Valid.get counted.valid, ?_⟩
  have isData : tty.take.secondary.data =
      if tty.ends tty.next then (2 ^ 32 - 1 + tty.secondary.data) % 2 ^ 32
      else tty.secondary.data := by
    simp only [Tty.take]
  have sameTermios : tty.take.termios = tty.termios := rfl
  rw [isData, sameTermios, counted.data]
  split
  · rename_i isEnd
    rw [if_pos isEnd] at ends
    omega
  · rename_i noEnd
    rw [if_neg noEnd] at ends
    omega

end Take

section World

variable {world next : TtyWorld}

@[simp] theorem readOn_tty {reading : Reading} :
    (world.readOn reading).tty = world.tty := by
  unfold TtyWorld.readOn
  split
  · split <;> rfl
  · split <;> rfl

@[simp] theorem readOn_checked {reading : Reading} :
    (world.readOn reading).checked = world.checked := by
  unfold TtyWorld.readOn
  split
  · split <;> rfl
  · split <;> rfl

theorem readCall_same {nr : Nat} (calls : world.readCall nr = some next) :
    next.tty = world.tty ∧ next.checked = world.checked := by
  unfold TtyWorld.readCall at calls
  split at calls
  · cases calls
  · split at calls
    · rw [Option.some.injEq] at calls
      rw [← calls]
      exact ⟨rfl, rfl⟩
    · rw [Option.some.injEq] at calls
      rw [← calls]
      exact ⟨rfl, rfl⟩

theorem readTurn_same (turns : world.readTurn = some next) :
    next.tty = world.tty ∧ next.checked = world.checked := by
  unfold TtyWorld.readTurn at turns
  split at turns
  · cases turns
  · dsimp only at turns
    split at turns
    · cases turns
    · rw [Option.some.injEq] at turns
      rw [← turns]
      exact ⟨rfl, rfl⟩

theorem readSignal_same (signals : world.readSignal = some next) :
    next.tty = world.tty ∧ next.checked = world.checked := by
  unfold TtyWorld.readSignal at signals
  split at signals
  · cases signals
  · split at signals
    · cases signals
    · rw [Option.some.injEq] at signals
      rw [← signals]
      exact ⟨rfl, rfl⟩

theorem readTake_same (takes : world.readTake = some next) :
    next.tty = world.tty.take ∧ next.checked = world.checked := by
  unfold TtyWorld.readTake at takes
  split at takes
  · cases takes
  · split at takes
    · cases takes
    · dsimp only at takes
      split at takes
      · rw [Option.some.injEq] at takes
        rw [← takes]
        exact ⟨rfl, rfl⟩
      · split at takes
        · rw [Option.some.injEq] at takes
          rw [← takes]
          exact ⟨readOn_tty, readOn_checked⟩
        · rw [Option.some.injEq] at takes
          rw [← takes]
          exact ⟨rfl, rfl⟩

/-- Apart from `tty_ioctl` and the `GETCH` of `tty_read`, steps only add to
the lines. -/
theorem Grown.step {action : TtyAction} (counted : Counted world.tty)
    (steps : terminal.step world action = some next)
    (notSet : ∀ command given, action ≠ .ioctl command given)
    (notTake : action ≠ .readTake) : Grown world.tty next.tty := by
  cases action with
  | receive bytes =>
      simp only [terminal, Option.some.injEq] at steps
      rw [← steps]
      exact Grown.of_same counted rfl rfl
  | respond =>
      simp only [terminal, Option.some.injEq] at steps
      rw [← steps]
      apply Grown.of_same counted
      · simp only [Tty.respond]
      · simp only [Tty.respond]
  | cook =>
      obtain ⟨tty, cooks, rfl⟩ := Option.map_eq_some_iff.mp steps
      exact Grown.cook counted cooks
  | transmit =>
      obtain ⟨tty, sends, rfl⟩ := Option.map_eq_some_iff.mp steps
      unfold Tty.transmit at sends
      split at sends
      · cases sends
      · rw [Option.some.injEq] at sends
        rw [← sends]
        exact Grown.of_same counted rfl rfl
  | ioctl command given => exact (notSet command given rfl).elim
  | readCall nr =>
      rw [(readCall_same steps).1]
      exact Grown.of_same counted rfl rfl
  | readTurn =>
      rw [(readTurn_same steps).1]
      exact Grown.of_same counted rfl rfl
  | readTake => exact (notTake rfl).elim
  | readSignal =>
      rw [(readSignal_same steps).1]
      exact Grown.of_same counted rfl rfl
  | writeCheck =>
      simp only [terminal, TtyWorld.writeCheck] at steps
      split at steps
      · cases steps
      · rw [Option.some.injEq] at steps
        rw [← steps]
        exact Grown.of_same counted rfl rfl
  | writePut c =>
      simp only [terminal, TtyWorld.writePut] at steps
      split at steps
      · rw [Option.some.injEq] at steps
        rw [← steps]
        exact Grown.of_same counted rfl rfl
      · cases steps
  | write =>
      simp only [terminal, Option.some.injEq] at steps
      rw [← steps]
      exact Grown.of_same counted write_termios write_secondary

/-- The termios change only where they leave the ends of the lines that are
in the queue, and `GETCH` finds a character. -/
def Matching (world : TtyWorld) : TtyAction → Prop
  | .ioctl command given =>
      lineEnds (command.sets given world.tty.termios)
          world.tty.secondary.chars =
        lineEnds world.tty.termios world.tty.secondary.chars
  | .readTake => world.tty.secondary.empty = false
  | _ => True

theorem Counted.step {action : TtyAction} (counted : Counted world.tty)
    (allowed : Matching world action)
    (steps : terminal.step world action = some next) : Counted next.tty := by
  cases action with
  | ioctl command given =>
      simp only [terminal, Option.some.injEq] at steps
      rw [← steps]
      refine ⟨counted.valid, ?_⟩
      have same : lineEnds (world.tty.ioctl command given).termios
          world.tty.secondary.chars =
            lineEnds world.tty.termios world.tty.secondary.chars := allowed
      exact counted.data.trans same.symm
  | readTake =>
      rw [(readTake_same steps).1]
      exact counted.take allowed
  | receive | respond | cook | transmit | readCall | readTurn | readSignal
  | writeCheck | writePut | write =>
      exact (Grown.step counted steps nofun nofun).counted

end World

theorem boot_counted (driver : Driver) (termios : Termios)
    (stray : Int → Bool) (port : Nat) :
    Counted (TtyWorld.boot driver termios stray port).tty := by
  have noEnds : lineEnds termios (TtyQueue.boot 0).chars = 0 := by
    rw [boot_chars]
    rfl
  exact ⟨boot_valid 0, noEnds.symm⟩

/-- In every run whose steps all match, the counter is the number of the
newlines and `EOF_CHAR`s in the queue. -/
theorem lines_counted {driver : Driver} {termios : Termios}
    {stray : Int → Bool} {port : Nat} {world : TtyWorld}
    (reached : terminal.Reachable Matching
      (TtyWorld.boot driver termios stray port) world) :
    world.tty.secondary.data =
      lineEnds world.tty.termios world.tty.secondary.chars := by
  have counted : Counted world.tty := by
    induction reached with
    | start => exact boot_counted driver termios stray port
    | step action _ allowed steps induction =>
        exact induction.step allowed steps
  exact counted.data

section Witness

/-- `INIT_C_CC`. -/
def initCc (index : Nat) : Nat :=
  [3, 28, 127, 21, 4, 0, 1, 0, 17, 19, 26, 0, 18, 15, 23, 22].getD index 0

/-- The termios of a serial line. -/
def serialTermios : Termios := ⟨0, 0, 0o73, 0, 0, initCc⟩

def serialBoot : TtyWorld := .boot .serial serialTermios (fun _ => false) 0x3f8

/-- The same termios, with `x` for `EOF_CHAR`. -/
def xEnds : Termios :=
  { serialTermios with
    cc := fun index => if index = vEOF then 120 else initCc index }

/-- An `x` is received, and then made the `EOF_CHAR` before it is read. -/
def miscounting : List TtyAction :=
  [.receive [120], .cook, .ioctl .tcsets xEnds, .readCall 1, .readTurn,
    .readTake]

/-- The counter goes below zero. -/
theorem lines_miscounted :
    ∃ world, terminal.run Machine.anything serialBoot miscounting =
        some world ∧
      world.tty.secondary.data = 2 ^ 32 - 1 ∧
      lineEnds world.tty.termios world.tty.secondary.chars = 0 := by
  have ran : (terminal.run Machine.anything serialBoot miscounting).map
      (fun world => (world.tty.secondary.data,
        lineEnds world.tty.termios world.tty.secondary.chars)) =
      some (2 ^ 32 - 1, 0) := by
    decide +kernel
  obtain ⟨world, isWorld, isPair⟩ := Option.map_eq_some_iff.mp ran
  obtain ⟨isData, isEnds⟩ := Prod.mk.inj isPair
  exact ⟨world, isWorld, isData, isEnds⟩

instance (world : TtyWorld) (action : TtyAction) :
    Decidable (Matching world action) :=
  match action with
  | .ioctl _ _ => inferInstanceAs (Decidable (_ = _))
  | .readTake => inferInstanceAs (Decidable (_ = _))
  | .receive _ => .isTrue trivial
  | .respond => .isTrue trivial
  | .cook => .isTrue trivial
  | .transmit => .isTrue trivial
  | .readCall _ => .isTrue trivial
  | .readTurn => .isTrue trivial
  | .readSignal => .isTrue trivial
  | .writeCheck => .isTrue trivial
  | .writePut _ => .isTrue trivial
  | .write => .isTrue trivial

/-- Two lines are received, one of them read, and the termios set. -/
def countedRun : List TtyAction :=
  [.receive [10], .cook, .receive [10], .cook, .ioctl .tcsetaf serialTermios,
    .readCall 1, .readTurn, .readTake]

theorem lines_counted_read :
    ∃ world, terminal.run Matching serialBoot countedRun = some world ∧
      world.tty.secondary.data = 1 ∧
      lineEnds world.tty.termios world.tty.secondary.chars = 1 := by
  have ran : (terminal.run Matching serialBoot countedRun).map
      (fun world => world.tty.secondary.data) = some 1 := by
    decide +kernel
  obtain ⟨world, isWorld, isData⟩ := Option.map_eq_some_iff.mp ran
  have counted := lines_counted (Machine.reachable_of_run .start isWorld)
  exact ⟨world, isWorld, isData, counted.symm.trans isData⟩

end Witness

end Linux011.Chr
