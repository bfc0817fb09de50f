import Linux011.Chr.Tty
import Linux011.Sched.Schedule

/-!
# The alarm during `tty_read`

For `VTIME` the alarm of the task is borrowed.  A call goes on until it may
sleep; then other tasks run and call `schedule()`, which makes signals of
alarms.  Storing a character may sleep too, for the page it belongs to.
-/

namespace Linux011.Chr

open Machines Sched

/-- Where `tty_read` is: at the head of its loop, at that of `sleep_if_empty`,
asleep there, at the head of its inner loop, or in `put_fs_byte`. -/
inductive ReadPlace where
  | turn
  | waiting
  | sleeping
  | taking
  | storing
  deriving DecidableEq

/-- A call of `tty_read` that has got `got` characters.  `armed` says that the
alarm is the one for `VTIME`, and `expired` that the one of the caller has run
out; a pending `SIGALRM` comes from the former or from something else. -/
structure AlarmedRead where
  place : ReadPlace
  nr : Nat
  got : Nat
  minimum : Nat
  time : Int
  flag : Bool
  oldalarm : Int
  armed : Bool
  expired : Bool
  own : Bool
  others : Bool

/-- A call that has returned. -/
structure ReadReturn where
  value : Int
  oldalarm : Int
  alarm : Int
  expired : Bool
  pending : Bool
  own : Bool
  others : Bool

/-- A terminal and a task that reads from it, with what its calls have
returned, the last one first. -/
structure Reader where
  tty : Tty
  task : Task
  jiffies : Int
  reading : Option AlarmedRead
  returned : List ReadReturn

/-- `ALRMMASK`. -/
def alrmMask : BitVec 32 := signalBit sigalrm

def alarmPending (task : Task) : Bool := task.signal &&& alrmMask != 0

/-- `!oldalarm || time+jiffies<oldalarm`. -/
def borrows (time oldalarm jiffies : Int) : Bool :=
  oldalarm == 0 || decide (long (time + jiffies) < oldalarm)

namespace Reader

/-! ## `tty_read` -/

def goTo (place : ReadPlace) (read : AlarmedRead) (reader : Reader) : Reader :=
  { reader with reading := some { read with place } }

/-- The call returns. -/
def answer (value : Int) (read : AlarmedRead) (reader : Reader) : Reader :=
  { reader with
    reading := none
    returned :=
      { value
        oldalarm := read.oldalarm
        alarm := reader.task.alarm
        expired := read.expired
        pending := alarmPending reader.task
        own := read.own
        others := read.others } :: reader.returned }

/-- Up to the loop. -/
def call (nr : Int) (reader : Reader) : Option Reader :=
  match reader.reading with
  | some _ => none
  | none =>
      let task := reader.task
      let read : AlarmedRead := {
        place := .turn
        nr := nr.toNat
        got := 0
        minimum := reader.tty.termios.cc vMIN
        time := 10 * reader.tty.termios.cc vTIME
        flag := false
        oldalarm := task.alarm
        armed := false
        expired := false
        own := false
        others := alarmPending task }
      if nr < 0 then some (reader.answer (-1) read)
      else
        let flag := read.time ≠ 0 ∧ read.minimum = 0 ∧
          borrows read.time read.oldalarm reader.jiffies
        let least := if read.time ≠ 0 ∧ read.minimum = 0 then 1
          else read.minimum
        some { reader with
          task := if flag then
            { task with alarm := long (read.time + reader.jiffies) } else task
          reading := some { read with
            flag
            armed := flag
            minimum := if least > read.nr then read.nr else least } }

/-- Behind the loop. -/
def finish (read : AlarmedRead) (reader : Reader) : Reader :=
  let reader := { reader with
    task := { reader.task with alarm := read.oldalarm } }
  if reader.task.signal ≠ 0 ∧ read.got = 0 then reader.answer (-4) read
  else reader.answer read.got read

/-- From the head of the loop to `sleep_if_empty` or the inner loop. -/
def turn (read : AlarmedRead) (reader : Reader) : Reader :=
  let secondary := reader.tty.secondary
  if read.nr = 0 then reader.finish read
  else if read.flag ∧ alarmPending reader.task then
    { reader with
      task := { reader.task with
        signal := reader.task.signal &&& ~~~alrmMask } }.finish
      { read with own := false, others := false }
  else if reader.task.signal ≠ 0 then reader.finish read
  else if secondary.empty ∨ (reader.tty.lFlag iCANON ∧ secondary.data = 0 ∧
      secondary.room > 20) then
    reader.goTo .waiting read
  else reader.goTo .taking read

/-- `schedule()`, also that of another task, with what becomes of the alarm. -/
def schedule (read : AlarmedRead) (reader : Reader) : Reader :=
  let runsOut := reader.task.alarm ≠ 0 ∧ reader.task.alarm < reader.jiffies
  { reader with
    task := checkSignals reader.jiffies reader.task
    reading := some { read with
      expired := read.expired || (runsOut && !read.armed)
      own := read.own || (runsOut && read.armed)
      others := read.others || (runsOut && !read.armed) } }

/-- `interruptible_sleep_on` up to its return from `schedule()`. -/
def sleep (read : AlarmedRead) (reader : Reader) : Reader :=
  { reader with
    task := { reader.task with state := .interruptible } }.schedule
      { read with place := .sleeping }

/-- The head of `sleep_if_empty`. -/
def wait (read : AlarmedRead) (reader : Reader) : Reader :=
  if reader.task.signal = 0 ∧ reader.tty.secondary.empty then
    reader.sleep read
  else reader.goTo .turn read

/-- The inner loop up to `put_fs_byte`. -/
def take (read : AlarmedRead) (reader : Reader) : Reader :=
  let c := reader.tty.next
  let reader := { reader with tty := reader.tty.take }
  if c = reader.tty.cc vEOF ∧ reader.tty.lFlag iCANON then
    reader.answer read.got read
  else reader.goTo .storing read

/-- The end of the loop. -/
def turnEnd (read : AlarmedRead) (reader : Reader) : Reader :=
  if reader.tty.lFlag iCANON then
    if read.got ≠ 0 then reader.finish read else reader.goTo .turn read
  else if read.got ≥ read.minimum then reader.finish read
  else reader.goTo .turn read

/-- Behind the inner loop. -/
def afterLoop (read : AlarmedRead) (reader : Reader) : Reader :=
  if read.time ≠ 0 ∧ reader.tty.lFlag iCANON = false then
    let flag := borrows read.time read.oldalarm reader.jiffies
    let alarm :=
      if flag then long (read.time + reader.jiffies) else read.oldalarm
    { reader with task := { reader.task with alarm } }.turnEnd
      { read with flag, armed := flag }
  else reader.turnEnd read

/-- From the return of `put_fs_byte` on. -/
def stored (read : AlarmedRead) (reader : Reader) : Reader :=
  let read := { read with got := read.got + 1, nr := read.nr - 1 }
  if read.nr = 0 ∨ reader.tty.secondary.empty then reader.afterLoop read
  else reader.goTo .taking read

/-- The call goes on; none while it is asleep. -/
def goOn (reader : Reader) : Option Reader :=
  match reader.reading with
  | none => none
  | some read =>
      match read.place with
      | .turn => some (reader.turn read)
      | .waiting => some (reader.wait read)
      | .sleeping =>
          if reader.task.state = .running then some (reader.goTo .waiting read)
          else none
      | .taking => some (reader.take read)
      | .storing => some (reader.stored read)

/-! ## The rest of the kernel -/

/-- `interruptible_sleep_on` finds another task at the head of the queue. -/
def again (reader : Reader) : Option Reader :=
  match reader.reading with
  | none => none
  | some read =>
      if read.place = .sleeping ∧ reader.task.state = .running then
        some (reader.sleep read)
      else none

/-- Another task calls `schedule()`, which it can while this one sleeps. -/
def elsewhere (reader : Reader) : Option Reader :=
  match reader.reading with
  | none => none
  | some read =>
      if read.place = .sleeping ∨ read.place = .storing then
        some (reader.schedule read)
      else none

/-- `wake_up`, for the queue of the terminal. -/
def wake (reader : Reader) : Reader :=
  { reader with task := { reader.task with state := .running } }

/-- `kill` or `tty_intr`. -/
def post (bits : BitVec 32) (reader : Reader) : Reader :=
  { reader with
    task := { reader.task with signal := reader.task.signal ||| bits }
    reading := reader.reading.map fun read =>
      { read with others := read.others || (bits &&& alrmMask != 0) } }

/-- What the task does between two calls. -/
def outside (task : Task) (reader : Reader) : Option Reader :=
  match reader.reading with
  | some _ => none
  | none => some { reader with task }

end Reader

/-- What may happen: a call, which goes on, and what others do to the task, to
the clock and to the terminal meanwhile. -/
inductive ReadAction where
  | call (nr : Int)
  | goOn
  | again
  | elsewhere
  | wake
  | post (bits : BitVec 32)
  | tick
  | terminal (action : TtyAction)
  | outside (task : Task)

def alarmedReader : Machine Reader ReadAction where
  step := fun reader action =>
    match action with
    | .call nr => reader.call nr
    | .goOn => reader.goOn
    | .again => reader.again
    | .elsewhere => reader.elsewhere
    | .wake => some reader.wake
    | .post bits => some (reader.post bits)
    | .tick => some { reader with jiffies := long (reader.jiffies + 1) }
    | .terminal action =>
        (terminal.step ⟨reader.tty, none, [], false⟩ action).map fun world =>
          { reader with tty := world.tty }
    | .outside task => reader.outside task

/-! ## What is given back -/

/-- The alarm is that of the caller, unless that one has run out, and no
`SIGALRM` is left that only comes from the call. -/
structure ReadReturn.GivenBack (done : ReadReturn) : Prop where
  alarm : done.alarm = done.oldalarm ∨ done.expired = true
  signal : ¬(done.pending = true ∧ done.own = true ∧ done.others = false)

/-- No `EOF_CHAR` ends the call while the alarm is borrowed, and the borrowed
alarm does not run out in `put_fs_byte`. -/
def Restoring (reader : Reader) : ReadAction → Prop
  | .goOn => ∀ read ∈ reader.reading, read.place = .taking →
      reader.tty.next = reader.tty.cc vEOF →
        reader.tty.lFlag iCANON = true → read.flag = false
  | .elsewhere => ∀ read ∈ reader.reading, read.place = .storing →
      read.flag = true →
        ¬(reader.task.alarm ≠ 0 ∧ reader.task.alarm < reader.jiffies)
  | _ => True

theorem pending_or {signal bits : BitVec 32}
    (pending : signal &&& alrmMask ≠ 0) :
    (signal ||| bits) &&& alrmMask ≠ 0 := by
  intro none
  apply pending
  rw [BitVec.and_or_distrib_right] at none
  exact (BitVec.or_eq_zero_iff.mp none).1

theorem pending_mask (signal : BitVec 32) :
    (signal ||| alrmMask) &&& alrmMask ≠ 0 := by
  rw [BitVec.and_or_distrib_right, BitVec.and_self]
  intro none
  exact absurd (BitVec.or_eq_zero_iff.mp none).2 (by decide)

theorem checkSignals_late {jiffies : Int} {task : Task}
    (late : task.alarm ≠ 0 ∧ task.alarm < jiffies) :
    (checkSignals jiffies task).alarm = 0 ∧
      (checkSignals jiffies task).signal = task.signal ||| alrmMask := by
  unfold checkSignals checkAlarm
  rw [if_pos late]
  dsimp only
  split <;> exact ⟨rfl, rfl⟩

theorem checkSignals_early {jiffies : Int} {task : Task}
    (early : ¬(task.alarm ≠ 0 ∧ task.alarm < jiffies)) :
    (checkSignals jiffies task).alarm = task.alarm ∧
      (checkSignals jiffies task).signal = task.signal := by
  unfold checkSignals checkAlarm
  rw [if_neg early]
  dsimp only
  split <;> exact ⟨rfl, rfl⟩

/-- What holds of a call. -/
structure Lent (reader : Reader) (read : AlarmedRead) : Prop where
  armed : read.armed = read.flag
  alarm : read.flag = false →
    reader.task.alarm = read.oldalarm ∨ read.expired = true
  asleep : read.place = .waiting ∨ read.place = .sleeping → read.nr ≠ 0
  own : read.own = true → read.flag = true ∧
    alarmPending reader.task = true ∧ read.nr ≠ 0 ∧
    read.place ≠ .taking ∧ read.place ≠ .storing

/-- What holds of the calls that have returned. -/
def Given (reader : Reader) : Prop :=
  ∀ done ∈ reader.returned, done.GivenBack

structure Giving (reader : Reader) : Prop where
  reading : ∀ read ∈ reader.reading, Lent reader read
  returned : Given reader

namespace Given

variable {reader next : Reader} {read : AlarmedRead}

/-- The call goes on. -/
theorem still (given : Given reader) (isReading : next.reading = some read)
    (returned : next.returned = reader.returned) (lent : Lent next read) :
    Giving next where
  reading := by
    intro other member
    rw [isReading] at member
    obtain rfl := Option.some.inj member
    exact lent
  returned := by
    intro done member
    rw [returned] at member
    exact given done member

theorem answer (given : Given reader) {value : Int}
    (alarm : reader.task.alarm = read.oldalarm ∨ read.expired = true)
    (own : read.own = false) : Giving (reader.answer value read) where
  reading := nofun
  returned := by
    refine List.forall_mem_cons.mpr ⟨⟨alarm, ?_⟩, given⟩
    rintro ⟨_, isOwn, _⟩
    dsimp only at isOwn
    rw [own] at isOwn
    cases isOwn

theorem finish (given : Given reader) (own : read.own = false) :
    Giving (reader.finish read) := by
  have restored : Given { reader with
      task := { reader.task with alarm := read.oldalarm } } := given
  unfold Reader.finish
  dsimp only
  split
  · exact restored.answer (.inl rfl) own
  · exact restored.answer (.inl rfl) own

theorem call (given : Given reader) {nr : Int}
    (steps : reader.call nr = some next) : Giving next := by
  unfold Reader.call at steps
  split at steps
  · cases steps
  · dsimp only at steps
    split at steps
    · rw [Option.some.injEq] at steps
      rw [← steps]
      exact given.answer (.inl rfl) rfl
    · rw [Option.some.injEq] at steps
      subst steps
      refine given.still rfl rfl ⟨rfl, ?_, ?_, nofun⟩
      · intro notFlag
        left
        have notFlag := of_decide_eq_false notFlag
        exact congrArg Task.alarm (if_neg notFlag)
      · rintro (isWaiting | isSleeping)
        · cases isWaiting
        · cases isSleeping

theorem turn (given : Given reader) (lent : Lent reader read) :
    Giving (reader.turn read) := by
  unfold Reader.turn
  dsimp only
  split <;> rename_i left
  · -- a SIGALRM of the call is only pending while there is room
    apply given.finish
    rw [← Bool.not_eq_true]
    intro isOwn
    exact (lent.own isOwn).2.2.1 left
  split <;> rename_i timedOut
  · have cleared : Given { reader with
        task := { reader.task with
          signal := reader.task.signal &&& ~~~alrmMask } } := given
    exact cleared.finish rfl
  have notOwn : read.own = false := by
    rw [← Bool.not_eq_true]
    intro isOwn
    obtain ⟨flag, pending, _⟩ := lent.own isOwn
    exact timedOut ⟨flag, pending⟩
  split
  · exact given.finish notOwn
  split
  · refine given.still rfl rfl ⟨lent.armed, lent.alarm, fun _ => left, ?_⟩
    intro isOwn
    rw [notOwn] at isOwn
    cases isOwn
  · refine given.still rfl rfl ⟨lent.armed, lent.alarm, ?_, ?_⟩
    · rintro (isWaiting | isSleeping)
      · cases isWaiting
      · cases isSleeping
    · intro isOwn
      rw [notOwn] at isOwn
      cases isOwn

/-- In `schedule()` the alarm runs out or not; a borrowed one only in
`sleep_if_empty`. -/
theorem schedule (given : Given reader) (lent : Lent reader read)
    (safe : read.place = .sleeping ∨ (read.place = .storing ∧
      (read.flag = true → ¬(reader.task.alarm ≠ 0 ∧
        reader.task.alarm < reader.jiffies)))) :
    Giving (reader.schedule read) := by
  have task : (reader.schedule read).task =
      checkSignals reader.jiffies reader.task := rfl
  by_cases late : reader.task.alarm ≠ 0 ∧ reader.task.alarm < reader.jiffies
  · obtain ⟨alarm, signal⟩ := checkSignals_late late
    have isLate : decide (reader.task.alarm ≠ 0 ∧
        reader.task.alarm < reader.jiffies) = true := decide_eq_true late
    refine given.still rfl rfl ⟨lent.armed, ?_, lent.asleep, ?_⟩
    · intro notFlag
      dsimp only at notFlag ⊢
      right
      rw [lent.armed, notFlag, isLate]
      simp
    · intro isOwn
      dsimp only at isOwn ⊢
      have notStoring : read.flag = true → read.place = .sleeping := by
        intro flag
        rcases safe with sleeping | ⟨_, early⟩
        · exact sleeping
        · exact absurd late (early flag)
      have flag : read.flag = true := by
        rcases Bool.or_eq_true_iff.mp isOwn with already | now
        · exact (lent.own already).1
        · rw [← lent.armed]
          exact (Bool.and_eq_true_iff.mp now).2
      have sleeping := notStoring flag
      refine ⟨flag, ?_, lent.asleep (.inr sleeping), ?_, ?_⟩
      · unfold alarmPending
        rw [task, signal]
        exact bne_iff_ne.mpr (pending_mask _)
      · rw [sleeping]
        exact nofun
      · rw [sleeping]
        exact nofun
  · obtain ⟨alarm, signal⟩ := checkSignals_early late
    have isEarly : decide (reader.task.alarm ≠ 0 ∧
        reader.task.alarm < reader.jiffies) = false := decide_eq_false late
    refine given.still rfl rfl ⟨lent.armed, ?_, lent.asleep, ?_⟩
    · intro notFlag
      dsimp only at notFlag ⊢
      rw [task, alarm, isEarly, Bool.false_and, Bool.or_false]
      exact lent.alarm notFlag
    · intro isOwn
      dsimp only at isOwn ⊢
      rw [isEarly, Bool.false_and, Bool.or_false] at isOwn
      obtain ⟨flag, pending, more⟩ := lent.own isOwn
      refine ⟨flag, ?_, more⟩
      unfold alarmPending at pending ⊢
      rw [task, signal]
      exact pending

/-- The call falls asleep again. -/
theorem sleep (given : Given reader) (lent : Lent reader read)
    (place : read.place = .waiting ∨ read.place = .sleeping) :
    Giving (reader.sleep read) := by
  have nr := lent.asleep place
  have falling : Given { reader with
      task := { reader.task with state := .interruptible } } := given
  refine falling.schedule ⟨lent.armed, lent.alarm, fun _ => nr, ?_⟩ (.inl rfl)
  intro isOwn
  obtain ⟨flag, pending, _⟩ := lent.own isOwn
  exact ⟨flag, pending, nr, nofun, nofun⟩

theorem wait (given : Given reader) (lent : Lent reader read)
    (place : read.place = .waiting) : Giving (reader.wait read) := by
  unfold Reader.wait
  split
  · exact given.sleep lent (.inl place)
  · refine given.still rfl rfl ⟨lent.armed, lent.alarm, ?_, ?_⟩
    · intro _
      exact lent.asleep (.inl place)
    · intro isOwn
      obtain ⟨flag, pending, nr, _⟩ := lent.own isOwn
      exact ⟨flag, pending, nr, nofun, nofun⟩

/-- Where no `SIGALRM` comes from the call. -/
theorem notOwn (lent : Lent reader read)
    (place : read.place = .taking ∨ read.place = .storing) :
    read.own = false := by
  rw [← Bool.not_eq_true]
  intro isOwn
  obtain ⟨_, _, _, notTaking, notStoring⟩ := lent.own isOwn
  rcases place with taking | storing
  · exact notTaking taking
  · exact notStoring storing

theorem take (given : Given reader) (lent : Lent reader read)
    (place : read.place = .taking)
    (restores : reader.tty.next = reader.tty.cc vEOF →
      reader.tty.lFlag iCANON = true → read.flag = false) :
    Giving (reader.take read) := by
  have own := notOwn lent (.inl place)
  have taken : Given { reader with tty := reader.tty.take } := given
  unfold Reader.take
  dsimp only
  split <;> rename_i isEof
  · exact taken.answer (lent.alarm (restores isEof.1 isEof.2)) own
  · refine taken.still rfl rfl ⟨lent.armed, lent.alarm, ?_, ?_⟩
    · rintro (isWaiting | isSleeping)
      · cases isWaiting
      · cases isSleeping
    · intro isOwn
      rw [own] at isOwn
      cases isOwn

/-- The call goes to a place where it is awake. -/
theorem goTo (given : Given reader) {place : ReadPlace}
    (awake : place = .turn ∨ place = .taking) (armed : read.armed = read.flag)
    (alarm : read.flag = false →
      reader.task.alarm = read.oldalarm ∨ read.expired = true)
    (own : read.own = false) : Giving (reader.goTo place read) := by
  refine given.still rfl rfl ⟨armed, alarm, ?_, ?_⟩
  · intro asleep
    dsimp only at asleep
    rcases awake with rfl | rfl
    · rcases asleep with isWaiting | isSleeping
      · cases isWaiting
      · cases isSleeping
    · rcases asleep with isWaiting | isSleeping
      · cases isWaiting
      · cases isSleeping
  · intro isOwn
    dsimp only at isOwn
    rw [own] at isOwn
    cases isOwn

theorem turnEnd (given : Given reader) (armed : read.armed = read.flag)
    (alarm : read.flag = false →
      reader.task.alarm = read.oldalarm ∨ read.expired = true)
    (own : read.own = false) : Giving (reader.turnEnd read) := by
  unfold Reader.turnEnd
  split
  · split
    · exact given.finish own
    · exact given.goTo (.inl rfl) armed alarm own
  · split
    · exact given.finish own
    · exact given.goTo (.inl rfl) armed alarm own

theorem afterLoop (given : Given reader) (armed : read.armed = read.flag)
    (alarm : read.flag = false →
      reader.task.alarm = read.oldalarm ∨ read.expired = true)
    (own : read.own = false) : Giving (reader.afterLoop read) := by
  unfold Reader.afterLoop
  split
  · dsimp only
    generalize isFlag : borrows read.time read.oldalarm reader.jiffies = flag
    refine @turnEnd _ { read with flag, armed := flag } given rfl ?_ own
    intro notFlag
    left
    dsimp only at notFlag ⊢
    rw [notFlag]
    rfl
  · exact given.turnEnd armed alarm own

theorem stored (given : Given reader) (lent : Lent reader read)
    (place : read.place = .storing) : Giving (reader.stored read) := by
  have own := notOwn lent (.inr place)
  unfold Reader.stored
  dsimp only
  split
  · exact given.afterLoop lent.armed lent.alarm own
  · exact given.goTo (.inr rfl) lent.armed lent.alarm own

end Given

namespace Giving

variable {reader next : Reader}

/-- The call stays as it is, and so does the alarm. -/
theorem same (giving : Giving reader) (reading : next.reading = reader.reading)
    (returned : next.returned = reader.returned)
    (alarm : next.task.alarm = reader.task.alarm)
    (signal : next.task.signal = reader.task.signal) : Giving next where
  reading := by
    intro read member
    rw [reading] at member
    have lent := giving.reading read member
    refine ⟨lent.armed, ?_, lent.asleep, ?_⟩
    · rw [alarm]
      exact lent.alarm
    · unfold alarmPending
      rw [signal]
      exact lent.own
  returned := by
    intro done member
    rw [returned] at member
    exact giving.returned done member

theorem goOn (giving : Giving reader) (allowed : Restoring reader .goOn)
    (steps : reader.goOn = some next) : Giving next := by
  have given := giving.returned
  unfold Reader.goOn at steps
  split at steps
  · cases steps
  rename_i read isReading
  have lent := giving.reading read isReading
  split at steps <;> rename_i place
  · cases steps
    exact given.turn lent
  · cases steps
    exact given.wait lent place
  · split at steps
    · cases steps
      refine given.still rfl rfl ⟨lent.armed, lent.alarm, ?_, ?_⟩
      · intro _
        exact lent.asleep (.inr place)
      · intro isOwn
        obtain ⟨flag, pending, nr, _⟩ := lent.own isOwn
        exact ⟨flag, pending, nr, nofun, nofun⟩
    · cases steps
  · cases steps
    exact given.take lent place (allowed read isReading place)
  · cases steps
    exact given.stored lent place

theorem again (giving : Giving reader) (steps : reader.again = some next) :
    Giving next := by
  unfold Reader.again at steps
  split at steps
  · cases steps
  rename_i read isReading
  split at steps <;> rename_i ready
  · cases steps
    exact giving.returned.sleep (giving.reading read isReading) (.inr ready.1)
  · cases steps

theorem elsewhere (giving : Giving reader)
    (allowed : Restoring reader .elsewhere)
    (steps : reader.elsewhere = some next) : Giving next := by
  unfold Reader.elsewhere at steps
  split at steps
  · cases steps
  rename_i read isReading
  split at steps <;> rename_i place
  · cases steps
    apply giving.returned.schedule (giving.reading read isReading)
    rcases place with sleeping | storing
    · exact .inl sleeping
    · exact .inr ⟨storing, allowed read isReading storing⟩
  · cases steps

theorem post (giving : Giving reader) (bits : BitVec 32) :
    Giving (reader.post bits) where
  reading := by
    intro read member
    obtain ⟨before, isReading, rfl⟩ := Option.map_eq_some_iff.mp member
    have lent := giving.reading before isReading
    refine ⟨lent.armed, lent.alarm, lent.asleep, ?_⟩
    intro isOwn
    obtain ⟨flag, pending, more⟩ := lent.own isOwn
    exact ⟨flag, bne_iff_ne.mpr (pending_or (bne_iff_ne.mp pending)), more⟩
  returned := giving.returned

theorem step {action : ReadAction} (giving : Giving reader)
    (allowed : Restoring reader action)
    (steps : alarmedReader.step reader action = some next) : Giving next := by
  cases action with
  | call nr => exact giving.returned.call steps
  | goOn => exact giving.goOn allowed steps
  | again => exact giving.again steps
  | elsewhere => exact giving.elsewhere allowed steps
  | wake =>
      cases steps
      exact giving.same rfl rfl rfl rfl
  | post bits =>
      cases steps
      exact giving.post bits
  | tick =>
      cases steps
      exact giving.same rfl rfl rfl rfl
  | terminal action =>
      obtain ⟨world, _, rfl⟩ := Option.map_eq_some_iff.mp steps
      exact giving.same rfl rfl rfl rfl
  | outside task =>
      have steps : reader.outside task = some next := steps
      unfold Reader.outside at steps
      split at steps <;> rename_i isReading
      · cases steps
      · cases steps
        refine ⟨?_, giving.returned⟩
        intro read member
        have member : read ∈ reader.reading := member
        rw [isReading] at member
        cases member

end Giving

/-- A call of `tty_read` gives the alarm back and leaves no `SIGALRM` of its
own pending, where it does not meet an `EOF_CHAR`, and its time does not run
out in `put_fs_byte`, while the alarm is borrowed. -/
theorem read_givesBack {start reader : Reader} (idle : start.reading = none)
    (new : start.returned = [])
    (reached : alarmedReader.Reachable Restoring start reader) :
    ∀ done ∈ reader.returned, done.GivenBack := by
  have initial : Giving start := by
    refine ⟨?_, ?_⟩
    · intro read member
      rw [idle] at member
      cases member
    · intro done member
      rw [new] at member
      cases member
  have giving := reached.invariant initial fun _ _ _ before allowed steps =>
    before.step allowed steps
  exact giving.returned

section Witness

instance (reader : Reader) (action : ReadAction) :
    Decidable (Restoring reader action) :=
  match action with
  | .goOn => inferInstanceAs (Decidable (∀ read ∈ reader.reading,
      read.place = .taking → reader.tty.next = reader.tty.cc vEOF →
        reader.tty.lFlag iCANON = true → read.flag = false))
  | .elsewhere => inferInstanceAs (Decidable (∀ read ∈ reader.reading,
      read.place = .storing → read.flag = true →
        ¬(reader.task.alarm ≠ 0 ∧ reader.task.alarm < reader.jiffies)))
  | .call _ => .isTrue trivial
  | .again => .isTrue trivial
  | .wake => .isTrue trivial
  | .post _ => .isTrue trivial
  | .tick => .isTrue trivial
  | .terminal _ => .isTrue trivial
  | .outside _ => .isTrue trivial

/-- A reader on the console, where `VTIME` is a tenth of a second and `VMIN`
is 0, and the alarm of its task. -/
def timedReader (lflag : Nat) (alarm : Int) : Reader where
  tty := ⟨.console,
    ⟨0o400, 0o5, 0, lflag, 0, fun index =>
      if index = vEOF then 4 else if index = vTIME then 1 else 0⟩, false,
    .boot 0, .boot 0, .boot 0, fun _ => false, false⟩
  task :=
    { state := .running
      counter := 15
      priority := 15
      signal := 0
      blocked := 0
      alarm }
  jiffies := 100
  reading := none
  returned := []

/-- A read of what is not typed in time. -/
def timesOut : List ReadAction :=
  [.call 9, .goOn, .goOn] ++ List.replicate 11 .tick ++
    [.elsewhere, .goOn, .goOn, .goOn]

/-- The time of a read runs out before the alarm of the task. -/
theorem read_givesBack_timesOut :
    ∃ reader done, alarmedReader.run Restoring (timedReader 0 500) timesOut =
        some reader ∧
      reader.returned = [done] ∧ done.value = 0 ∧ done.oldalarm = 500 ∧
      done.GivenBack := by
  have ran : (alarmedReader.run Restoring (timedReader 0 500) timesOut).map
      (fun reader => reader.returned.map fun done =>
        (done.value, done.oldalarm)) = some [(0, 500)] := by decide +kernel
  obtain ⟨reader, runs, isReturned⟩ := Option.map_eq_some_iff.mp ran
  obtain ⟨done, returned, isDone⟩ := List.map_eq_singleton_iff.mp isReturned
  obtain ⟨value, oldalarm⟩ := Prod.mk.inj isDone
  have back := read_givesBack rfl rfl (Machine.reachable_of_run .start runs)
  exact ⟨reader, done, runs, returned, value, oldalarm,
    back done (by simp [returned])⟩

/-- A read of a line that is only an `EOF_CHAR`. -/
def endOfFile : List ReadAction :=
  [.terminal (.receive [4]), .terminal .cook, .call 9, .goOn, .goOn]

/-- A read that waits for its buffer until its time has run out. -/
def slowBuffer : List ReadAction :=
  [.terminal (.receive [97]), .terminal .cook, .call 9, .goOn, .goOn] ++
    List.replicate 11 .tick ++ [.elsewhere, .goOn]

/-- With `ICANON` the former returns with its own alarm in the place of none.
Without, the latter leaves a `SIGALRM` that only comes from it. -/
theorem read_keepsAlarm :
    (∃ reader done, alarmedReader.Reachable Machine.anything
        (timedReader iCANON 0) reader ∧
      done ∈ reader.returned ∧ done.oldalarm = 0 ∧ done.alarm = 110 ∧
      ¬done.GivenBack) ∧
    ∃ reader done, alarmedReader.Reachable Machine.anything
        (timedReader 0 0) reader ∧
      done ∈ reader.returned ∧ done.value = 1 ∧ done.pending = true ∧
      ¬done.GivenBack := by
  constructor
  · have ran : (alarmedReader.run Machine.anything (timedReader iCANON 0)
        endOfFile).map (fun reader => reader.returned.map fun done =>
          (done.oldalarm, done.alarm, done.expired)) =
        some [(0, 110, false)] := by decide +kernel
    obtain ⟨reader, runs, isReturned⟩ := Option.map_eq_some_iff.mp ran
    obtain ⟨done, returned, isDone⟩ := List.map_eq_singleton_iff.mp isReturned
    obtain ⟨oldalarm, alarm, notExpired⟩ : done.oldalarm = 0 ∧
        done.alarm = 110 ∧ done.expired = false := by simpa using isDone
    refine ⟨reader, done, Machine.reachable_of_run .start runs,
      by simp [returned], oldalarm, alarm, ?_⟩
    rintro ⟨same | expired, _⟩
    · rw [oldalarm, alarm] at same
      cases same
    · rw [notExpired] at expired
      cases expired
  · have ran : (alarmedReader.run Machine.anything (timedReader 0 0)
        slowBuffer).map (fun reader => reader.returned.map fun done =>
          (done.value, done.pending, done.own, done.others)) =
        some [(1, true, true, false)] := by decide +kernel
    obtain ⟨reader, runs, isReturned⟩ := Option.map_eq_some_iff.mp ran
    obtain ⟨done, returned, isDone⟩ := List.map_eq_singleton_iff.mp isReturned
    obtain ⟨value, pending, own, noOthers⟩ : done.value = 1 ∧
        done.pending = true ∧ done.own = true ∧ done.others = false := by
      simpa using isDone
    refine ⟨reader, done, Machine.reachable_of_run .start runs,
      by simp [returned], value, pending, ?_⟩
    intro back
    exact back.signal ⟨pending, own, noOthers⟩

end Witness

end Linux011.Chr
