import Mathlib.Logic.Function.Basic
import Linux011.Chr.TtyOverrun

/-!
# Tasks in `tty_write`

Each of some tasks writes to a terminal of its own, and they share `cr_flag`.
A task gives up the processor in `sleep_if_full` and behind `tty->write`.
-/

namespace Linux011.Chr

open Machines RingQueues

/-! ## The translation of a character -/

def oPOST : Nat := 0o1
def oLCUC : Nat := 0o2
def oNLCR : Nat := 0o4
def oCRNL : Nat := 0o10
def oNLRET : Nat := 0o40

namespace Tty

def oFlag (mask : Nat) (tty : Tty) : Bool := flag tty.termios.oflag mask

/-- `\r` and `\n` as `OCRNL` and `ONLRET` map them. -/
def lined (c : Int) (tty : Tty) : Int :=
  if c = 13 ∧ tty.oFlag oCRNL then 10
  else if c = 10 ∧ tty.oFlag oNLRET then 13
  else c

end Tty

/-- `stray` tells which characters below -1 `islower` accepts. -/
def toupper (stray : Int → Bool) (c : Int) : Int :=
  if (if c < -1 then stray c else 97 ≤ c && c ≤ 122) then toChar (c - 32)
  else c

/-- What is meant to be queued for a character. -/
def translation (stray : Int → Bool) (tty : Tty) (c : Int) : List Int :=
  if tty.oFlag oPOST then
    let upper := if tty.oFlag oLCUC then toupper stray (tty.lined c)
      else tty.lined c
    if tty.lined c = 10 ∧ tty.oFlag oNLCR then [13, upper] else [upper]
  else [c]

/-! ## The tasks -/

/-- A task and its terminal.  It has still to write `rest`; `half` tells that
the carriage return before the newline it is at has been put.  `given` is what
calls have been given, `written` what they have written of it, and `taken`
what the driver has taken. -/
structure Writer where
  tty : Tty
  rest : List Int
  asleep : Bool
  half : Bool
  given : List Int
  written : List Int
  taken : List Int

namespace Writer

def putch (c : Int) (writer : Writer) : Writer :=
  { writer with
    tty := { writer.tty with writeQ := writer.tty.writeQ.putch c } }

/-- `b++; nr--;` and the `PUTCH`. -/
def advance (c out : Int) (more : List Int) (writer : Writer) : Writer :=
  { writer with rest := more, half := false
                written := writer.written ++ [c] }.putch out

/-- A turn of the inner loop, and `cr_flag` behind it. -/
def turn (stray : Int → Bool) (crFlag : Bool) (c : Int) (more : List Int)
    (writer : Writer) : Writer × Bool :=
  let tty := writer.tty
  if tty.oFlag oPOST then
    if tty.lined c = 10 ∧ ¬crFlag ∧ tty.oFlag oNLCR then
      ({ writer with half := true }.putch 13, true)
    else
      (writer.advance c (if tty.oFlag oLCUC then toupper stray (tty.lined c)
        else tty.lined c) more, false)
  else (writer.advance c c more, false)

/-- `tty->write`. -/
def driverWrite (writer : Writer) : Writer :=
  match writer.tty.driver with
  | .console =>
      { writer with
        tty := writer.tty.write
        taken := writer.taken ++ writer.tty.writeQ.chars }
  | .serial => { writer with tty := writer.tty.write }

/-- `write_char`. -/
def transmit (writer : Writer) : Option Writer :=
  writer.tty.transmit.map fun tty =>
    { writer with
      tty
      taken := writer.taken ++
        [writer.tty.writeQ.buf writer.tty.writeQ.tail] }

end Writer

/-- The tasks; one of them may be in its inner loop. -/
structure Writers (ι : Type) where
  writer : ι → Writer
  running : Option ι
  crFlag : Bool

namespace Writers

variable {ι : Type} [DecidableEq ι]

def set (task : ι) (writer : Writer) (world : Writers ι) : Writers ι :=
  { world with writer := Function.update world.writer task writer }

/-- A call, by a task that is not in another one. -/
def call (task : ι) (buf : List Int) (world : Writers ι) :
    Option (Writers ι) :=
  let writer := world.writer task
  if world.running.isSome ∨ writer.rest ≠ [] then none
  else some (world.set task { writer with
    rest := buf, given := writer.given ++ buf })

/-- `sleep_if_full`: the task goes to sleep, or on to its inner loop. -/
def sleepIfFull (task : ι) (world : Writers ι) : Option (Writers ι) :=
  let writer := world.writer task
  if world.running.isSome ∨ writer.rest = [] then none
  else if writer.asleep then
    if writer.tty.writeQ.room < 128 then none
    else some { world.set task { writer with asleep := false } with
      running := some task }
  else if writer.tty.writeQ.full then
    some (world.set task { writer with asleep := true })
  else some { world with running := some task }

/-- A turn of the inner loop. -/
def turn (stray : Int → Bool) (task : ι) (world : Writers ι) :
    Option (Writers ι) :=
  let writer := world.writer task
  if world.running = some task then
    match writer.rest with
    | [] => none
    | c :: more =>
        if writer.tty.writeQ.full then none
        else
          let next := writer.turn stray world.crFlag c more
          some { world.set task next.1 with crFlag := next.2 }
  else none

/-- Behind the inner loop: `tty->write`, and then `schedule` or the return. -/
def leave (task : ι) (world : Writers ι) : Option (Writers ι) :=
  let writer := world.writer task
  if world.running = some task ∧
      (writer.rest = [] ∨ writer.tty.writeQ.full) then
    some { world.set task writer.driverWrite with running := none }
  else none

/-- A transmit interrupt, at any time. -/
def transmit (task : ι) (world : Writers ι) : Option (Writers ι) :=
  (world.writer task).transmit.map fun writer => world.set task writer

end Writers

inductive WriteAction (ι : Type) where
  | call (task : ι) (buf : List Int)
  | sleepIfFull (task : ι)
  | turn (task : ι)
  | leave (task : ι)
  | transmit (task : ι)

def writing (ι : Type) [DecidableEq ι] (stray : Int → Bool) :
    Machine (Writers ι) (WriteAction ι) where
  step := fun world action =>
    match action with
    | .call task buf => world.call task buf
    | .sleepIfFull task => world.sleepIfFull task
    | .turn task => world.turn stray task
    | .leave task => world.leave task
    | .transmit task => world.transmit task

/-- Terminals, the queues of which are empty, and no calls. -/
def Writers.boot {ι : Type} (driver : ι → Driver) (termios : ι → Termios) :
    Writers ι where
  writer := fun task =>
    { tty := (TtyWorld.boot (driver task) (termios task) (fun _ => false)
        0).tty
      rest := []
      asleep := false
      half := false
      given := []
      written := []
      taken := [] }
  running := none
  crFlag := false

/-- A task goes on to its inner loop only when no other one is within a
newline. -/
def Apart {ι : Type} (world : Writers ι) : WriteAction ι → Prop
  | .sleepIfFull task =>
      let writer := world.writer task
      world.crFlag = true →
        writer.half = true ∨ writer.asleep = false ∧
          writer.tty.writeQ.full = true
  | _ => True

/-! ## One task -/

/-- What the task has put, whether or not the driver has taken it. -/
def Writer.sent (writer : Writer) : List Int :=
  writer.taken ++ writer.tty.writeQ.chars

/-- The carriage return before the newline that the task is at. -/
def Writer.pending (writer : Writer) : List Int :=
  if writer.half then [13] else []

/-- The task has put what the characters that it has written are translated
to. -/
structure Faithful (stray : Int → Bool) (writer : Writer) : Prop where
  intact : Intact writer.tty.writeQ
  given : writer.given = writer.written ++ writer.rest
  sent : writer.sent =
    writer.written.flatMap (translation stray writer.tty) ++ writer.pending
  half : writer.half = true → ∃ c more, writer.rest = c :: more ∧
    writer.tty.oFlag oPOST = true ∧ writer.tty.lined c = 10 ∧
    writer.tty.oFlag oNLCR = true

namespace Faithful

variable {stray : Int → Bool} {writer : Writer} {c out : Int} {more : List Int}

theorem sent_putch (faithful : Faithful stray writer)
    (room : writer.tty.writeQ.full = false) :
    (writer.putch out).sent = writer.sent ++ [out] := by
  have more := @chars_putch _ out faithful.intact.valid room
  unfold Writer.sent Writer.putch
  dsimp only
  rw [more, List.append_assoc]

theorem advance (faithful : Faithful stray writer)
    (isRest : writer.rest = c :: more)
    (room : writer.tty.writeQ.full = false)
    (isOut : writer.pending ++ [out] = translation stray writer.tty c) :
    Faithful stray (writer.advance c out more) where
  intact := faithful.intact.putch room
  given := by
    have given := faithful.given
    rw [isRest] at given
    simp [Writer.advance, Writer.putch, given]
  sent := by
    have isSent : (writer.advance c out more).sent = writer.sent ++ [out] :=
      faithful.sent_putch room
    have isWritten : (writer.advance c out more).written =
        writer.written ++ [c] := rfl
    have noneHalf : (writer.advance c out more).pending = [] := rfl
    have same : translation stray (writer.advance c out more).tty =
        translation stray writer.tty := rfl
    rw [isSent, isWritten, noneHalf, same, faithful.sent, List.append_assoc,
      isOut]
    simp
  half := nofun

theorem turn {crFlag : Bool} (faithful : Faithful stray writer)
    (isRest : writer.rest = c :: more)
    (room : writer.tty.writeQ.full = false) (own : crFlag = writer.half) :
    Faithful stray (writer.turn stray crFlag c more).1 ∧
      (writer.turn stray crFlag c more).2 =
        (writer.turn stray crFlag c more).1.half := by
  unfold Writer.turn
  dsimp only
  split
  · rename_i post
    split
    · rename_i isLine
      obtain ⟨isNewline, noFlag, adds⟩ := isLine
      have noneHalf : writer.pending = [] := by
        rw [Writer.pending, ← own]
        simp [noFlag]
      have sent := faithful.sent
      rw [noneHalf, List.append_nil] at sent
      refine ⟨⟨faithful.intact.putch room, faithful.given, ?_, ?_⟩, rfl⟩
      · have isSent : (Writer.putch 13 { writer with half := true }).sent =
            writer.sent ++ [13] := faithful.sent_putch room
        rw [isSent, sent]
        rfl
      · exact fun _ => ⟨c, more, isRest, post, isNewline, adds⟩
    · rename_i isOther
      refine ⟨faithful.advance isRest room ?_, rfl⟩
      cases isHalf : writer.half with
      | true =>
          obtain ⟨c, rest, isRest', _, isNewline, adds⟩ := faithful.half isHalf
          obtain ⟨rfl, rfl⟩ := List.cons.inj (isRest.symm.trans isRest')
          simp [translation, Writer.pending, isHalf, post, isNewline, adds]
      | false =>
          have notBoth : ¬(writer.tty.lined c = 10 ∧
              writer.tty.oFlag oNLCR = true) := by
            rintro ⟨isNewline, adds⟩
            exact isOther ⟨isNewline, by simp [own, isHalf], adds⟩
          simp [translation, Writer.pending, isHalf, post, notBoth]
  · rename_i raw
    refine ⟨faithful.advance isRest room ?_, rfl⟩
    cases isHalf : writer.half with
    | true =>
        obtain ⟨_, _, _, post, _⟩ := faithful.half isHalf
        exact (raw post).elim
    | false => simp [translation, Writer.pending, isHalf, raw]

/-- What the driver takes has been sent before. -/
theorem driver {next : Writer} (faithful : Faithful stray writer)
    (intact : Intact next.tty.writeQ) (isSent : next.sent = writer.sent)
    (termios : next.tty.termios = writer.tty.termios)
    (same : next.rest = writer.rest ∧ next.half = writer.half ∧
      next.given = writer.given ∧ next.written = writer.written) :
    Faithful stray next := by
  obtain ⟨isRest, isHalf, isGiven, isWritten⟩ := same
  refine ⟨intact, ?_, ?_, ?_⟩
  · rw [isGiven, isWritten, isRest]
    exact faithful.given
  · have same : translation stray next.tty = translation stray writer.tty := by
      unfold translation Tty.lined Tty.oFlag
      rw [termios]
    have samePending : next.pending = writer.pending := by
      unfold Writer.pending
      rw [isHalf]
    rw [isSent, isWritten, same, samePending]
    exact faithful.sent
  · simp only [isHalf, isRest, Tty.lined, Tty.oFlag, termios]
    exact faithful.half

theorem driverWrite (faithful : Faithful stray writer) :
    Faithful stray writer.driverWrite := by
  have valid := faithful.intact.valid
  unfold Writer.driverWrite
  cases isDriver : writer.tty.driver with
  | console =>
      have isQueue : writer.tty.write.writeQ =
          { writer.tty.writeQ with tail := writer.tty.writeQ.head } := by
        simp [Tty.write, isDriver]
      have intact : Intact writer.tty.write.writeQ := by
        rw [isQueue]
        exact ⟨⟨valid.1, valid.1⟩, faithful.intact.sound⟩
      have none : writer.tty.write.writeQ.chars = [] := by
        rw [chars_empty intact.valid, isQueue]
        simp [TtyQueue.empty]
      refine faithful.driver intact ?_ write_termios ⟨rfl, rfl, rfl, rfl⟩
      simp [Writer.sent, none]
  | serial =>
      have same : writer.tty.write = writer.tty := by
        simp [Tty.write, isDriver]
      simp only [same]
      exact faithful

theorem transmit {next : Writer} (faithful : Faithful stray writer)
    (sends : writer.transmit = some next) : Faithful stray next := by
  obtain ⟨tty, takes, rfl⟩ := Option.map_eq_some_iff.mp sends
  unfold Tty.transmit at takes
  split at takes
  · cases takes
  · rename_i some
    have split := chars_getch faithful.intact.valid (by simpa using some)
    rw [← Option.some.inj takes]
    refine faithful.driver faithful.intact.getch ?_ rfl ⟨rfl, rfl, rfl, rfl⟩
    simp [Writer.sent, split]

end Faithful

/-! ## All tasks -/

/-- Each task is faithful; `cr_flag` is that of the task in its inner loop,
and of the one that is within a newline. -/
structure FaithfulAll {ι : Type} (stray : Int → Bool) (world : Writers ι) :
    Prop where
  faithful : ∀ task, Faithful stray (world.writer task)
  half : ∀ task, (world.writer task).half = true → world.crFlag = true ∧
    ∀ other, (world.writer other).half = true → other = task
  running : ∀ task, world.running = some task →
    world.crFlag = (world.writer task).half

namespace FaithfulAll

variable {ι : Type} {stray : Int → Bool} {world next : Writers ι} {task : ι}

/-- A task may go on if `cr_flag` is its own. -/
theorem run (all : FaithfulAll stray world)
    (own : world.crFlag = true → (world.writer task).half = true) :
    FaithfulAll stray { world with running := some task } := by
  refine ⟨all.faithful, all.half, ?_⟩
  intro other isOther
  obtain rfl := Option.some.inj isOther
  cases isHalf : (world.writer task).half with
  | true => exact (all.half task isHalf).1
  | false =>
      apply Bool.eq_false_iff.mpr
      intro isFlag
      rw [own isFlag] at isHalf
      cases isHalf

variable [DecidableEq ι]

theorem faithful_set {writer : Writer} (all : FaithfulAll stray world)
    (faithful : Faithful stray writer) (other : ι) :
    Faithful stray ((world.set task writer).writer other) := by
  unfold Writers.set
  dsimp only
  by_cases same : other = task
  · rw [same, Function.update_self]
    exact faithful
  · rw [Function.update_of_ne same]
    exact all.faithful other

/-- A step of one task outside its inner loop. -/
theorem set {writer : Writer} (all : FaithfulAll stray world)
    (faithful : Faithful stray writer)
    (half : writer.half = (world.writer task).half) :
    FaithfulAll stray (world.set task writer) := by
  have sameHalf (other : ι) :
      ((world.set task writer).writer other).half =
        (world.writer other).half := by
    unfold Writers.set
    dsimp only
    by_cases same : other = task
    · rw [same, Function.update_self, half]
    · rw [Function.update_of_ne same]
  refine ⟨all.faithful_set faithful, ?_, ?_⟩
  · intro other isHalf
    rw [sameHalf] at isHalf
    obtain ⟨isFlag, unique⟩ := all.half other isHalf
    refine ⟨isFlag, ?_⟩
    intro third isHalf
    rw [sameHalf] at isHalf
    exact unique third isHalf
  · intro other running
    rw [sameHalf]
    exact all.running other running

theorem call {buf : List Int} (all : FaithfulAll stray world)
    (steps : world.call task buf = some next) : FaithfulAll stray next := by
  unfold Writers.call at steps
  dsimp only at steps
  split at steps
  · cases steps
  · rename_i ready
    simp only [not_or, not_not] at ready
    have faithful := all.faithful task
    have given := faithful.given
    rw [ready.2, List.append_nil] at given
    have noneHalf : (world.writer task).half ≠ true := by
      intro isHalf
      obtain ⟨c, more, isRest, _⟩ := faithful.half isHalf
      rw [ready.2] at isRest
      cases isRest
    rw [← Option.some.inj steps]
    refine all.set ⟨faithful.intact, ?_, faithful.sent, ?_⟩ rfl
    · dsimp only
      rw [given]
    · exact fun isHalf => (noneHalf isHalf).elim

theorem sleepIfFull (all : FaithfulAll stray world)
    (allowed : Apart world (.sleepIfFull task))
    (steps : world.sleepIfFull task = some next) : FaithfulAll stray next := by
  have faithful := all.faithful task
  unfold Writers.sleepIfFull at steps
  dsimp only at steps
  split at steps
  · cases steps
  split at steps
  · rename_i asleep
    split at steps
    · cases steps
    · rw [← Option.some.inj steps]
      have awake := @set ι stray world task _
        { world.writer task with asleep := false } all
        ⟨faithful.intact, faithful.given, faithful.sent, faithful.half⟩ rfl
      apply awake.run
      intro isFlag
      rcases allowed isFlag with isHalf | ⟨notAsleep, _⟩
      · simp [Writers.set, isHalf]
      · rw [asleep] at notAsleep
        cases notAsleep
  · split at steps
    · rw [← Option.some.inj steps]
      exact all.set
        ⟨faithful.intact, faithful.given, faithful.sent, faithful.half⟩ rfl
    · rename_i room
      rw [← Option.some.inj steps]
      apply all.run
      intro isFlag
      rcases allowed isFlag with isHalf | ⟨_, full⟩
      · exact isHalf
      · exact (room full).elim

/-- The flag is that of the running task before and after the turn, and no
other task is within a newline. -/
theorem turn (all : FaithfulAll stray world)
    (steps : world.turn stray task = some next) : FaithfulAll stray next := by
  unfold Writers.turn at steps
  dsimp only at steps
  split at steps
  · rename_i running
    split at steps
    · cases steps
    · rename_i c more isRest
      split at steps
      · cases steps
      · rename_i room
        have own := all.running task running
        obtain ⟨faithful, isFlag⟩ := (all.faithful task).turn isRest
          (by simpa using room) own
        rw [← Option.some.inj steps]
        generalize (world.writer task).turn stray world.crFlag c more = turned
          at faithful isFlag
        have noOther (other : ι) (distinct : other ≠ task) :
            (world.writer other).half = false := by
          apply Bool.eq_false_iff.mpr
          intro isHalf
          obtain ⟨isFlag, unique⟩ := all.half other isHalf
          exact distinct (unique task (own.symm.trans isFlag)).symm
        have unique (other : ι)
            (isHalf : ((world.set task turned.1).writer other).half = true) :
            other = task := by
          by_contra distinct
          unfold Writers.set at isHalf
          dsimp only at isHalf
          rw [Function.update_of_ne distinct, noOther other distinct] at isHalf
          cases isHalf
        have isTask : (world.set task turned.1).writer task = turned.1 := by
          simp [Writers.set]
        refine ⟨all.faithful_set faithful, ?_, ?_⟩
        · intro other isHalf
          obtain rfl := unique other isHalf
          rw [isTask] at isHalf
          exact ⟨isFlag.trans isHalf, unique⟩
        · intro other isOther
          obtain rfl := Option.some.inj (running.symm.trans isOther)
          rw [isTask]
          exact isFlag
  · cases steps

theorem leave (all : FaithfulAll stray world)
    (steps : world.leave task = some next) : FaithfulAll stray next := by
  unfold Writers.leave at steps
  dsimp only at steps
  split at steps
  · rw [← Option.some.inj steps]
    have half : (world.writer task).driverWrite.half =
        (world.writer task).half := by
      unfold Writer.driverWrite
      split <;> rfl
    have left := all.set (all.faithful task).driverWrite half
    exact ⟨left.faithful, left.half, nofun⟩
  · cases steps

theorem transmit (all : FaithfulAll stray world)
    (steps : world.transmit task = some next) : FaithfulAll stray next := by
  obtain ⟨writer, sends, rfl⟩ := Option.map_eq_some_iff.mp steps
  have half : writer.half = (world.writer task).half := by
    obtain ⟨tty, _, rfl⟩ := Option.map_eq_some_iff.mp sends
    rfl
  exact all.set ((all.faithful task).transmit sends) half

theorem step {action : WriteAction ι} (all : FaithfulAll stray world)
    (allowed : Apart world action)
    (steps : (writing ι stray).step world action = some next) :
    FaithfulAll stray next := by
  cases action with
  | call task buf => exact all.call steps
  | sleepIfFull task => exact all.sleepIfFull allowed steps
  | turn task => exact all.turn steps
  | leave task => exact all.leave steps
  | transmit task => exact all.transmit steps

end FaithfulAll

theorem boot_faithful {ι : Type} (stray : Int → Bool) (driver : ι → Driver)
    (termios : ι → Termios) :
    FaithfulAll stray (Writers.boot driver termios) where
  faithful := by
    intro task
    refine ⟨⟨boot_valid 0, rfl⟩, rfl, ?_, nofun⟩
    have isSent : ((Writers.boot driver termios).writer task).sent =
        (TtyQueue.boot 0).chars := List.nil_append _
    rw [isSent, boot_chars]
    rfl
  half := nofun
  running := nofun

/-- In every run in which no task goes on within another one's newline, each
task has put the translation of what it has written, and the carriage return
of the newline it is at; after its calls that is all it has been given. -/
theorem writes_translated {ι : Type} [DecidableEq ι] {stray : Int → Bool}
    {driver : ι → Driver} {termios : ι → Termios} {world : Writers ι}
    (reached : (writing ι stray).Reachable Apart
      (Writers.boot driver termios) world) (task : ι) :
    let writer := world.writer task
    writer.given = writer.written ++ writer.rest ∧
      writer.sent = writer.written.flatMap (translation stray writer.tty) ++
        writer.pending ∧
      (writer.rest = [] → writer.sent =
        writer.given.flatMap (translation stray writer.tty)) := by
  have all : FaithfulAll stray world := reached.invariant
    (boot_faithful stray driver termios)
    (fun _ _ _ all allowed steps => all.step allowed steps)
  have faithful := all.faithful task
  refine ⟨faithful.given, faithful.sent, ?_⟩
  intro finished
  have given := faithful.given
  have sent := faithful.sent
  have nonePending : (world.writer task).pending = [] := by
    apply if_neg
    intro isHalf
    obtain ⟨c, more, isRest, _⟩ := faithful.half isHalf
    rw [finished] at isRest
    cases isRest
  rw [finished, List.append_nil] at given
  rw [nonePending, List.append_nil] at sent
  rw [given]
  exact sent

section Witness

def newlineTermios : Termios := { serialTermios with oflag := oPOST + oNLCR }

/-- Two tasks on two serial lines with `ONLCR`. -/
def writersBoot : Writers Bool :=
  .boot (fun _ => .serial) (fun _ => newlineTermios)

/-- The carriage return of the first task fills its queue, and the second one
writes a newline. -/
def splitting : List (WriteAction Bool) :=
  [.call true (List.replicate 1022 120 ++ [10]), .sleepIfFull true] ++
    List.replicate 1023 (.turn true) ++
    [.leave true, .call false [10], .sleepIfFull false, .turn false,
      .leave false]

/-- There is no carriage return before the newline of the second task. -/
theorem writes_mixed :
    ∃ world, (writing Bool fun _ => false).run Machine.anything writersBoot
        splitting = some world ∧
      (world.writer false).rest = [] ∧ (world.writer false).given = [10] ∧
      (world.writer false).sent = [10] ∧
      translation (fun _ => false) (world.writer false).tty 10 = [13, 10] := by
  have ran : ((writing Bool fun _ => false).run Machine.anything writersBoot
      splitting).map (fun world =>
        let writer := world.writer false
        (writer.rest, writer.given, writer.sent,
          translation (fun _ => false) writer.tty 10)) =
      some ([], [10], [10], [13, 10]) := by
    decide +kernel
  obtain ⟨world, isWorld, isTuple⟩ := Option.map_eq_some_iff.mp ran
  simp only [Prod.mk.injEq] at isTuple
  exact ⟨world, isWorld, isTuple⟩

instance {ι : Type} (world : Writers ι) (action : WriteAction ι) :
    Decidable (Apart world action) :=
  match action with
  | .sleepIfFull _ => inferInstanceAs (Decidable (_ → _ ∨ _ ∧ _))
  | .call _ _ => .isTrue trivial
  | .turn _ => .isTrue trivial
  | .leave _ => .isTrue trivial
  | .transmit _ => .isTrue trivial

/-- The first task sleeps within its newline, and finishes it before the
second one goes on. -/
def apartRun : List (WriteAction Bool) :=
  [.call true (List.replicate 1022 120 ++ [10]), .sleepIfFull true] ++
    List.replicate 1023 (.turn true) ++
    [.leave true, .call false [10], .sleepIfFull true] ++
    List.replicate 128 (.transmit true) ++
    [.sleepIfFull true, .turn true, .leave true, .sleepIfFull false,
      .turn false, .turn false, .leave false]

theorem writes_translated_apart :
    ∃ world, (writing Bool fun _ => false).run Apart writersBoot apartRun =
        some world ∧
      (world.writer false).given = [10] ∧
      (world.writer false).sent = [13, 10] ∧
      (world.writer true).sent = (world.writer true).given.flatMap
        (translation (fun _ => false) (world.writer true).tty) := by
  have ran : ((writing Bool fun _ => false).run Apart writersBoot
      apartRun).map (fun world =>
        ((world.writer true).rest, (world.writer false).rest,
          (world.writer false).given,
          translation (fun _ => false) (world.writer false).tty 10)) =
      some ([], [], [10], [13, 10]) := by
    decide +kernel
  obtain ⟨world, isWorld, isTuple⟩ := Option.map_eq_some_iff.mp ran
  simp only [Prod.mk.injEq] at isTuple
  obtain ⟨firstDone, secondDone, isGiven, isTranslation⟩ := isTuple
  have first := writes_translated (Machine.reachable_of_run .start isWorld)
    true
  have second := writes_translated (Machine.reachable_of_run .start isWorld)
    false
  refine ⟨world, isWorld, isGiven, ?_, first.2.2 firstDone⟩
  rw [second.2.2 secondDone, isGiven]
  simp [isTranslation]

end Witness

end Linux011.Chr
