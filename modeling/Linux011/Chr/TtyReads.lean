import Mathlib.Data.List.Nodup
import Linux011.Chr.TtyLines

/-!
# Lines that `tty_read` delivers

A call delivers characters of one complete line, unless its inner loop goes
on behind a newline.
-/

namespace Linux011.Chr

open Machines RingQueues

/-- The characters belong to one line, which was complete when they were
delivered; its `EOF_CHAR` is not among them. -/
structure OneLine (termios : Termios) (got : List Delivered) : Prop where
  finished : ∀ delivered ∈ got, delivered.finished = true
  notEof : ∀ delivered ∈ got, delivered.char ≠ (termios.cc vEOF : Int)
  single : ∀ delivered ∈ got.dropLast, delivered.char ≠ 10

/-- The last character so far is not a newline. -/
def InLine (got : List Delivered) : Prop :=
  ∀ delivered ∈ got.getLast?, delivered.char ≠ 10

/-- The termios stay as they are, the queue has room, and the inner loop does
not go on behind a newline, unless it takes an `EOF_CHAR`. -/
def Finishing (world : TtyWorld) (action : TtyAction) : Prop :=
  20 < world.tty.secondary.room ∧
    match action with
    | .ioctl _ _ => False
    | .readTake => ∀ reading ∈ world.reading, InLine reading.got ∨
        world.tty.secondary.empty = false ∧
          world.tty.next = world.tty.cc vEOF
    | _ => True

theorem OneLine.nil (termios : Termios) : OneLine termios [] :=
  ⟨nofun, nofun, nofun⟩

theorem OneLine.append {termios : Termios} {got : List Delivered}
    {delivered : Delivered} (line : OneLine termios got)
    (inLine : InLine got) (finished : delivered.finished = true)
    (notEof : delivered.char ≠ (termios.cc vEOF : Int)) :
    OneLine termios (got ++ [delivered]) where
  finished := by
    intro other member
    rcases List.mem_append.mp member with old | new
    · exact line.finished other old
    · rw [List.mem_singleton] at new
      rw [new]
      exact finished
  notEof := by
    intro other member
    rcases List.mem_append.mp member with old | new
    · exact line.notEof other old
    · rw [List.mem_singleton] at new
      rw [new]
      exact notEof
  single := by
    rw [List.dropLast_concat]
    intro other member
    rcases List.eq_nil_or_concat' got with rfl | ⟨front, last, rfl⟩
    · cases member
    · rcases List.mem_append.mp member with old | isLast
      · apply line.single
        rw [List.dropLast_concat]
        exact old
      · rw [List.mem_singleton] at isLast
        rw [isLast]
        apply inLine
        simp

/-- What holds of a call in a run. -/
structure Reads (tty : Tty) (reading : Reading) : Prop where
  line : OneLine tty.termios reading.got
  fresh : reading.looping = false → reading.got = []
  pending : reading.looping = true → InLine reading.got →
    0 < lineEnds tty.termios tty.secondary.chars

structure ReadsLines (world : TtyWorld) : Prop where
  counted : Counted world.tty
  canon : world.tty.lFlag iCANON = true
  results : ∀ got ∈ world.results, OneLine world.tty.termios got
  reading : ∀ reading ∈ world.reading, Reads world.tty reading

namespace ReadsLines

variable {world next : TtyWorld}

/-- The call stays as it is, and the lines only grow. -/
theorem grown (lines : ReadsLines world) (grown : Grown world.tty next.tty)
    (sameReading : next.reading = world.reading)
    (sameResults : next.results = world.results) : ReadsLines next := by
  have sameFlags : next.tty.lFlag iCANON = world.tty.lFlag iCANON := by
    unfold Tty.lFlag
    rw [grown.termios]
  refine ⟨grown.counted, ?_, ?_, ?_⟩
  · rw [sameFlags]
    exact lines.canon
  · rw [sameResults, grown.termios]
    exact lines.results
  · intro reading member
    rw [sameReading] at member
    have reads := lines.reading reading member
    refine ⟨?_, reads.fresh, ?_⟩
    · rw [grown.termios]
      exact reads.line
    · intro looping inLine
      exact Nat.lt_of_lt_of_le (reads.pending looping inLine) grown.ends

/-- The call ends with what it has got. -/
theorem answer (lines : ReadsLines world) {got : List Delivered}
    (line : OneLine world.tty.termios got) : ReadsLines (world.answer got) where
  counted := lines.counted
  canon := lines.canon
  results := List.forall_mem_cons.mpr ⟨line, lines.results⟩
  reading := nofun

theorem readCall {nr : Nat} (lines : ReadsLines world)
    (steps : world.readCall nr = some next) : ReadsLines next := by
  unfold TtyWorld.readCall at steps
  split at steps
  · cases steps
  · split at steps
    · rw [Option.some.injEq] at steps
      rw [← steps]
      exact lines.answer (OneLine.nil _)
    · rw [Option.some.injEq] at steps
      rw [← steps]
      refine ⟨lines.counted, lines.canon, lines.results, ?_⟩
      intro reading member
      obtain rfl := Option.some.inj member
      exact ⟨OneLine.nil _, fun _ => rfl, nofun⟩

/-- The inner loop starts when there is a complete line. -/
theorem readTurn (lines : ReadsLines world)
    (room : 20 < world.tty.secondary.room)
    (steps : world.readTurn = some next) : ReadsLines next := by
  unfold TtyWorld.readTurn at steps
  split at steps
  · cases steps
  · rename_i reading isReading
    have reads := lines.reading reading isReading
    dsimp only at steps
    split at steps
    · cases steps
    · rename_i ready
      rw [Option.some.injEq] at steps
      rw [← steps]
      simp only [not_or, Bool.not_eq_true] at ready
      obtain ⟨notLooping, _, some⟩ := ready
      refine ⟨lines.counted, lines.canon, lines.results, ?_⟩
      intro other member
      obtain rfl := Option.some.inj member
      refine ⟨reads.line, nofun, ?_⟩
      intro _ _
      dsimp only
      rw [← lines.counted.data]
      apply Nat.pos_of_ne_zero
      intro none
      exact some ⟨lines.canon, none, room⟩

theorem readSignal (lines : ReadsLines world)
    (steps : world.readSignal = some next) : ReadsLines next := by
  unfold TtyWorld.readSignal at steps
  split at steps
  · cases steps
  · rename_i reading isReading
    split at steps
    · cases steps
    · rw [Option.some.injEq] at steps
      rw [← steps]
      exact lines.answer (lines.reading reading isReading).line

theorem readOn_canon {reading : Reading}
    (canon : world.tty.lFlag iCANON = true) (some : reading.got ≠ []) :
    world.readOn reading = world.answer reading.got := by
  unfold TtyWorld.readOn
  rw [if_pos canon, if_pos some]

theorem readTake (lines : ReadsLines world)
    (allowed : Finishing world .readTake)
    (steps : world.readTake = some next) : ReadsLines next := by
  unfold TtyWorld.readTake at steps
  split at steps
  · cases steps
  · rename_i reading isReading
    have reads := lines.reading reading isReading
    split at steps
    · cases steps
    · rename_i looping
      have looping : reading.looping = true := by simpa using looping
      have pending := reads.pending looping
      have some : world.tty.secondary.empty = false := by
        rcases allowed.2 reading isReading with inLine | isEof
        · by_contra none
          have empty := (chars_empty lines.counted.valid).mpr
            (Bool.not_eq_false _ ▸ none)
          have more := pending inLine
          rw [empty] at more
          exact Nat.lt_irrefl 0 more
        · exact isEof.1
      have takenCounted := lines.counted.take some
      have split := chars_take lines.counted some
      have ends := lineEnds_cons world.tty world.tty.take.secondary.chars
        world.tty.next
      rw [← split] at ends
      have taken : ReadsLines { world with
          tty := world.tty.take, reading := none } :=
        ⟨takenCounted, lines.canon, lines.results, nofun⟩
      dsimp only at steps
      by_cases isEof : world.tty.next = world.tty.cc vEOF
      · rw [if_pos ⟨isEof, lines.canon⟩, Option.some.injEq] at steps
        rw [← steps]
        exact taken.answer reads.line
      · have inLine : InLine reading.got := by
          rcases allowed.2 reading isReading with inLine | ⟨_, isEof'⟩
          · exact inLine
          · exact (isEof isEof').elim
        have finished : (world.tty.secondary.chars.any fun c =>
            world.tty.ends c) = true := by
          have more := pending inLine
          unfold lineEnds at more
          rw [List.countP_pos_iff] at more
          exact List.any_eq_true.mpr more
        have line := @OneLine.append _ _ ⟨world.tty.next,
          world.tty.secondary.chars.any fun c => world.tty.ends c⟩
          reads.line inLine finished isEof
        rw [if_neg fun both => isEof both.1] at steps
        split at steps
        · rw [Option.some.injEq] at steps
          have isAnswer := @readOn_canon { world with tty := world.tty.take }
            ⟨reading.nr - 1, reading.minimum, reading.got ++
              [⟨world.tty.next, world.tty.secondary.chars.any fun c =>
                world.tty.ends c⟩], reading.looping⟩ lines.canon (by simp)
          rw [← steps, isAnswer]
          exact taken.answer line
        · rw [Option.some.injEq] at steps
          rw [← steps]
          refine ⟨takenCounted, lines.canon, lines.results, ?_⟩
          intro other member
          obtain rfl := Option.some.inj member
          refine ⟨line, ?_, ?_⟩
          · intro notLooping
            dsimp only at notLooping
            rw [looping] at notLooping
            cases notLooping
          · intro _ stillInLine
            have notNewline : world.tty.next ≠ 10 :=
              stillInLine ⟨world.tty.next, world.tty.secondary.chars.any
                fun c => world.tty.ends c⟩ (by simp)
            have noEnd : world.tty.ends world.tty.next = false := by
              simp [Tty.ends, notNewline, isEof]
            rw [noEnd, if_neg Bool.false_ne_true, Nat.add_zero] at ends
            have more := pending inLine
            rw [ends] at more
            exact more

theorem step {action : TtyAction} (lines : ReadsLines world)
    (allowed : Finishing world action)
    (steps : terminal.step world action = some next) : ReadsLines next := by
  cases action with
  | ioctl command given => exact allowed.2.elim
  | readCall nr => exact lines.readCall steps
  | readTurn => exact lines.readTurn allowed.1 steps
  | readTake => exact lines.readTake allowed steps
  | readSignal => exact lines.readSignal steps
  | receive bytes =>
      have grown := Grown.step lines.counted steps (by simp) (by simp)
      simp only [terminal, Option.some.injEq] at steps
      exact lines.grown grown (by rw [← steps]) (by rw [← steps])
  | respond =>
      have grown := Grown.step lines.counted steps (by simp) (by simp)
      simp only [terminal, Option.some.injEq] at steps
      exact lines.grown grown (by rw [← steps]) (by rw [← steps])
  | cook =>
      have grown := Grown.step lines.counted steps (by simp) (by simp)
      obtain ⟨tty, _, rfl⟩ := Option.map_eq_some_iff.mp steps
      exact lines.grown grown rfl rfl
  | transmit =>
      have grown := Grown.step lines.counted steps (by simp) (by simp)
      obtain ⟨tty, _, rfl⟩ := Option.map_eq_some_iff.mp steps
      exact lines.grown grown rfl rfl
  | writeCheck =>
      have grown := Grown.step lines.counted steps (by simp) (by simp)
      simp only [terminal, TtyWorld.writeCheck] at steps
      split at steps
      · cases steps
      · rw [Option.some.injEq] at steps
        exact lines.grown grown (by rw [← steps]) (by rw [← steps])
  | writePut c =>
      have grown := Grown.step lines.counted steps (by simp) (by simp)
      simp only [terminal, TtyWorld.writePut] at steps
      split at steps
      · rw [Option.some.injEq] at steps
        exact lines.grown grown (by rw [← steps]) (by rw [← steps])
      · cases steps
  | write =>
      have grown := Grown.step lines.counted steps (by simp) (by simp)
      simp only [terminal, Option.some.injEq] at steps
      exact lines.grown grown (by rw [← steps]) (by rw [← steps])

end ReadsLines

/-- In every run of a terminal with `ICANON` whose steps all finish lines,
calls of `tty_read`, also one that is not over yet, deliver characters of one
complete line. -/
theorem reads_oneLine {driver : Driver} {termios : Termios}
    (canon : flag termios.lflag iCANON = true) {stray : Int → Bool}
    {port : Nat} {world : TtyWorld}
    (reached : terminal.Reachable Finishing
      (TtyWorld.boot driver termios stray port) world) :
    (∀ got ∈ world.results, OneLine world.tty.termios got) ∧
      ∀ reading ∈ world.reading, OneLine world.tty.termios reading.got := by
  have lines : ReadsLines world := by
    induction reached with
    | start =>
        exact ⟨boot_counted driver termios stray port, canon, nofun, nofun⟩
    | step action _ allowed steps induction =>
        exact induction.step allowed steps
  exact ⟨lines.results, fun reading member =>
    (lines.reading reading member).line⟩

section Witness

/-- The termios of the console. -/
def consoleTermios : Termios := ⟨0o400, 0o5, 0, 0o5013, 0, initCc⟩

def consoleBoot : TtyWorld :=
  .boot .console consoleTermios (fun _ => false) 0

/-- A line is typed, and the start of another one. -/
def typed : List TtyAction :=
  [.receive [97], .cook, .receive [13], .cook, .receive [98], .cook]

/-- A long read delivers the start of a line that is not complete. -/
theorem reads_twoLines :
    ∃ world, terminal.run Machine.anything consoleBoot
        (typed ++ [.readCall 9, .readTurn, .readTake, .readTake, .readTake]) =
          some world ∧
      world.tty.lFlag iCANON = true ∧
      world.results = [[⟨97, true⟩, ⟨10, true⟩, ⟨98, false⟩]] := by
  have ran : (terminal.run Machine.anything consoleBoot
      (typed ++ [.readCall 9, .readTurn, .readTake, .readTake,
        .readTake])).map (fun world =>
          (world.tty.lFlag iCANON, world.results)) =
      some (true, [[⟨97, true⟩, ⟨10, true⟩, ⟨98, false⟩]]) := by
    decide +kernel
  obtain ⟨world, isWorld, isPair⟩ := Option.map_eq_some_iff.mp ran
  obtain ⟨isCanon, isResults⟩ := Prod.mk.inj isPair
  exact ⟨world, isWorld, isCanon, isResults⟩

instance (got : List Delivered) : Decidable (InLine got) :=
  inferInstanceAs (Decidable (∀ delivered ∈ got.getLast?, _))

instance (world : TtyWorld) (action : TtyAction) :
    Decidable (Finishing world action) :=
  match action with
  | .ioctl _ _ => inferInstanceAs (Decidable (_ ∧ False))
  | .readTake => inferInstanceAs (Decidable (_ ∧ ∀ reading ∈ world.reading,
      InLine reading.got ∨ _ ∧ _))
  | .receive _ => inferInstanceAs (Decidable (_ ∧ True))
  | .respond => inferInstanceAs (Decidable (_ ∧ True))
  | .cook => inferInstanceAs (Decidable (_ ∧ True))
  | .transmit => inferInstanceAs (Decidable (_ ∧ True))
  | .readCall _ => inferInstanceAs (Decidable (_ ∧ True))
  | .readTurn => inferInstanceAs (Decidable (_ ∧ True))
  | .readSignal => inferInstanceAs (Decidable (_ ∧ True))
  | .writeCheck => inferInstanceAs (Decidable (_ ∧ True))
  | .writePut _ => inferInstanceAs (Decidable (_ ∧ True))
  | .write => inferInstanceAs (Decidable (_ ∧ True))

/-- A read of two characters delivers the line. -/
theorem reads_oneLine_typed :
    ∃ world, terminal.run Finishing consoleBoot
        (typed ++ [.readCall 2, .readTurn, .readTake, .readTake]) =
          some world ∧
      world.results = [[⟨97, true⟩, ⟨10, true⟩]] ∧
      OneLine world.tty.termios [⟨97, true⟩, ⟨10, true⟩] := by
  have ran : (terminal.run Finishing consoleBoot
      (typed ++ [.readCall 2, .readTurn, .readTake, .readTake])).map
        TtyWorld.results = some [[⟨97, true⟩, ⟨10, true⟩]] := by
    decide +kernel
  obtain ⟨world, isWorld, isResults⟩ := Option.map_eq_some_iff.mp ran
  have canon : flag consoleTermios.lflag iCANON = true := by decide
  have lines := reads_oneLine canon
    (Machine.reachable_of_run .start isWorld)
  exact ⟨world, isWorld, isResults, lines.1 _ (by simp [isResults])⟩

end Witness

end Linux011.Chr
