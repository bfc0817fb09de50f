import Linux011.Fs.Pipe

/-!
# Copying to and from a pipe

`read_pipe` and `write_pipe` move the counter of the pipe before they copy
the chunk, and a page fault at any byte of the copy lets the other side run.
Here a step is one pass of a loop up to the copy, or the copy of one byte.
-/

namespace Linux011.Fs

open Machines

/-- Where one side of the pipe is: in no call; at the test of its loop;
asleep there; in a copy, with the ring position of the next byte and `chars`
bytes to go. -/
inductive CopyPhase where
  | outside
  | loop (count : Nat)
  | asleep (count : Nat)
  | copying (count size chars : Nat)

/-- The bytes of the current chunk that are not copied yet. -/
def CopyPhase.left : CopyPhase → Nat
  | .copying _ _ chars => chars
  | _ => 0

/-- A pipe with one reader and one writer.  `announced` and `released` count
the bytes the two counters have moved over; `stored` and `copied` are the
bytes put into and taken out of the page.  `early` records whether a byte was
taken out before it was stored, `overtaken` whether one was stored over a byte
that had not been taken out. -/
structure PipeCopy where
  pipe : Pipe
  iCount : Nat
  reader : CopyPhase
  writer : CopyPhase
  announced : Nat
  released : Nat
  stored : List UInt8
  copied : List UInt8
  early : Bool
  overtaken : Bool

inductive CopyAction where
  | readPipe (count : Int)
  | readPass
  | readByte
  | readAwake
  | writePipe (count : Int)
  | writePass
  | writeByte (byte : UInt8)
  | writeAwake
  | setCount (iCount : Nat)

namespace PipeCopy

def fresh (page : Nat → UInt8) : PipeCopy where
  pipe := { page, head := 0, tail := 0 }
  iCount := 2
  reader := .outside
  writer := .outside
  announced := 0
  released := 0
  stored := []
  copied := []
  early := false
  overtaken := false

/-- A pass of the loop of `read_pipe`, up to the copy. -/
def readPass (state : PipeCopy) (count : Nat) : PipeCopy :=
  if count = 0 then { state with reader := .outside }
  else if state.pipe.size = 0 then
    if state.iCount ≠ 2 then { state with reader := .outside }
    else { state with reader := .asleep count }
  else
    let chars := state.pipe.readChars count
    { state with
      pipe := state.pipe.advanceTail chars
      reader := .copying (count - chars) state.pipe.tail chars
      released := state.released + chars }

/-- `put_fs_byte(((char *)inode->i_size)[size++],buf++)`; the byte is loaded
before the fault can happen. -/
def readByte (state : PipeCopy) (count size chars : Nat) : PipeCopy :=
  { state with
    reader := .copying count (size + 1) chars
    copied := state.copied ++ [state.pipe.page size]
    early := state.early || state.stored.length ≤ state.copied.length }

/-- A pass of the loop of `write_pipe`, up to the copy. -/
def writePass (state : PipeCopy) (count : Nat) : PipeCopy :=
  if count = 0 then { state with writer := .outside }
  else if state.pipe.room = 0 then
    if state.iCount ≠ 2 then { state with writer := .outside }
    else { state with writer := .asleep count }
  else
    let chars := state.pipe.writeChars count
    { state with
      pipe := state.pipe.advanceHead chars
      writer := .copying (count - chars) state.pipe.head chars
      announced := state.announced + chars }

/-- `((char *)inode->i_size)[size++]=get_fs_byte(buf++)`; the byte is stored
after the fault. -/
def writeByte (state : PipeCopy) (count size chars : Nat) (byte : UInt8) :
    PipeCopy :=
  { state with
    pipe := { state.pipe with
      page := fun cell => if cell = size then byte else state.pipe.page cell }
    writer := .copying count (size + 1) chars
    stored := state.stored ++ [byte]
    overtaken := state.overtaken ||
      state.copied.length + pipePageSize ≤ state.stored.length }

end PipeCopy

/-- One reader and one writer, each making call after call. -/
def pipeCopier : Machine PipeCopy CopyAction where
  step := fun state action =>
    match action, state.reader, state.writer with
    | .readPipe count, .outside, _ =>
        some { state with reader := .loop count.toNat }
    | .readPass, .loop count, _ => some (state.readPass count)
    | .readByte, .copying count _ 0, _ =>
        some { state with reader := .loop count }
    | .readByte, .copying count size (chars + 1), _ =>
        some (state.readByte count size chars)
    | .readAwake, .asleep count, _ => some { state with reader := .loop count }
    | .writePipe count, _, .outside =>
        some { state with writer := .loop count.toNat }
    | .writePass, _, .loop count => some (state.writePass count)
    | .writeByte _, _, .copying count _ 0 =>
        some { state with writer := .loop count }
    | .writeByte byte, _, .copying count size (chars + 1) =>
        some (state.writeByte count size chars byte)
    | .writeAwake, _, .asleep count =>
        some { state with writer := .loop count }
    | .setCount iCount, _, _ => some { state with iCount }
    | _, _, _ => none

/-- Whether a phase agrees with the ring position and the number of bytes its
side still has to copy. -/
def CopyPhase.At (position left : Nat) : CopyPhase → Prop
  | .copying _ size chars =>
      left = chars ∧ (0 < chars → size = position % pipePageSize ∧
        size + chars ≤ pipePageSize)
  | _ => left = 0

theorem CopyPhase.At.left {position left : Nat} {phase : CopyPhase}
    (isAt : CopyPhase.At position left phase) : phase.left = left := by
  cases phase with
  | copying count size chars => exact isAt.1.symm
  | outside => exact isAt.symm
  | loop count => exact isAt.symm
  | asleep count => exact isAt.symm

namespace PipeCopy

/-- A chunk is started only where the other side, if it is in the middle of a
copy, has no byte of the chunk left to copy. -/
def Clear (state : PipeCopy) : CopyAction → Prop
  | .readPass =>
      match state.reader with
      | .loop count =>
          state.pipe.readChars count = 0 ∨
            state.pipe.readChars count + state.writer.left ≤ state.pipe.size
      | _ => True
  | .writePass =>
      match state.writer with
      | .loop count =>
          state.pipe.writeChars count = 0 ∨
            state.pipe.size + state.pipe.writeChars count + state.reader.left ≤
              pipePageSize
      | _ => True
  | _ => True

instance (state : PipeCopy) (action : CopyAction) :
    Decidable (state.Clear action) := by
  unfold Clear
  split
  · split <;> infer_instance
  · split <;> infer_instance
  · infer_instance

/-- Every byte is announced, stored, released and copied in this order, and a
cell is announced anew only after it has been copied. -/
structure Ordered (state : PipeCopy) : Prop where
  head : state.pipe.head = state.announced % pipePageSize
  tail : state.pipe.tail = state.released % pipePageSize
  size : state.announced = state.released + state.pipe.size
  copied : state.copied.length ≤ state.released
  released : state.released ≤ state.stored.length
  stored : state.stored.length ≤ state.announced
  room : state.announced ≤ state.copied.length + pipePageSize
  reader : CopyPhase.At state.copied.length
    (state.released - state.copied.length) state.reader
  writer : CopyPhase.At state.stored.length
    (state.announced - state.stored.length) state.writer
  page : ∀ index (inside : index < state.stored.length),
    state.copied.length ≤ index →
      state.pipe.page (index % pipePageSize) = state.stored[index]
  fifo : state.copied <+: state.stored
  punctual : state.early = false ∧ state.overtaken = false

theorem ordered_fresh (page : Nat → UInt8) : (fresh page).Ordered where
  head := rfl
  tail := rfl
  size := rfl
  copied := Nat.le_refl 0
  released := Nat.le_refl 0
  stored := Nat.le_refl 0
  room := Nat.zero_le _
  reader := rfl
  writer := rfl
  page := fun _ inside => absurd inside (Nat.not_lt_zero _)
  fifo := List.prefix_refl []
  punctual := ⟨rfl, rfl⟩

section Steps

variable {state : PipeCopy} {count size chars : Nat}

theorem Ordered.bounded (ordered : state.Ordered) : state.pipe.Bounded := by
  constructor
  · rw [ordered.head]
    exact Nat.mod_lt _ (by decide)
  · rw [ordered.tail]
    exact Nat.mod_lt _ (by decide)

/-- Changing the phase of the reader between two copies. -/
theorem Ordered.setReader (ordered : state.Ordered)
    (idle : state.released - state.copied.length = 0) {reader : CopyPhase}
    (isAt : CopyPhase.At state.copied.length 0 reader) :
    ({ state with reader } : PipeCopy).Ordered := by
  have moved : CopyPhase.At state.copied.length
      (state.released - state.copied.length) reader := by
    rw [idle]
    exact isAt
  exact { ordered with reader := moved }

theorem Ordered.setWriter (ordered : state.Ordered)
    (idle : state.announced - state.stored.length = 0) {writer : CopyPhase}
    (isAt : CopyPhase.At state.stored.length 0 writer) :
    ({ state with writer } : PipeCopy).Ordered := by
  have moved : CopyPhase.At state.stored.length
      (state.announced - state.stored.length) writer := by
    rw [idle]
    exact isAt
  exact { ordered with writer := moved }

theorem Ordered.readPass (ordered : state.Ordered)
    (idle : state.released - state.copied.length = 0)
    (clear : state.pipe.readChars count = 0 ∨
      state.pipe.readChars count + state.writer.left ≤ state.pipe.size) :
    (state.readPass count).Ordered := by
  unfold PipeCopy.readPass
  split
  · exact ordered.setReader idle rfl
  · split
    · split
      · exact ordered.setReader idle rfl
      · exact ordered.setReader idle rfl
    · obtain ⟨_, available, fits⟩ := state.pipe.readChars_le count
      have bounded := ordered.bounded
      have below := bounded.tail
      have shrunk := Pipe.advanceTail_size bounded available
      have unstored := CopyPhase.At.left ordered.writer
      rw [unstored] at clear
      obtain ⟨head, tail, total, copied, released, stored, room, _, writer,
        page, fifo, punctual⟩ := ordered
      generalize state.pipe.readChars count = chars at *
      refine ⟨head, ?_, ?_, ?_, ?_, stored, room, ?_, writer, page, fifo,
        punctual⟩ <;> dsimp only
      · show (state.pipe.tail + chars) % pipePageSize = _
        rw [tail, Nat.mod_add_mod]
      · omega
      · omega
      · omega
      · refine ⟨by omega, fun _ => ⟨?_, by omega⟩⟩
        have same : state.released = state.copied.length := by omega
        rw [tail, same]

theorem Ordered.writePass (ordered : state.Ordered)
    (idle : state.announced - state.stored.length = 0)
    (clear : state.pipe.writeChars count = 0 ∨
      state.pipe.size + state.pipe.writeChars count + state.reader.left ≤
        pipePageSize) :
    (state.writePass count).Ordered := by
  unfold PipeCopy.writePass
  split
  · exact ordered.setWriter idle rfl
  · split
    · split
      · exact ordered.setWriter idle rfl
      · exact ordered.setWriter idle rfl
    · obtain ⟨_, available, fits⟩ := state.pipe.writeChars_le count
      have bounded := ordered.bounded
      have below := bounded.head
      have grown := Pipe.advanceHead_size bounded available
      have uncopied := CopyPhase.At.left ordered.reader
      rw [uncopied] at clear
      obtain ⟨head, tail, total, copied, released, stored, room, reader, _,
        page, fifo, punctual⟩ := ordered
      generalize state.pipe.writeChars count = chars at *
      refine ⟨?_, tail, ?_, copied, released, ?_, ?_, reader, ?_, page, fifo,
        punctual⟩ <;> dsimp only
      · show (state.pipe.head + chars) % pipePageSize = _
        rw [head, Nat.mod_add_mod]
      · omega
      · omega
      · omega
      · refine ⟨by omega, fun _ => ⟨?_, by omega⟩⟩
        have same : state.announced = state.stored.length := by omega
        rw [head, same]

/-- The next position of a copy that goes on. -/
theorem next_position {size position chars : Nat}
    (here : size = position % pipePageSize)
    (fits : size + (chars + 1) ≤ pipePageSize) (more : 0 < chars) :
    size + 1 = (position + 1) % pipePageSize := by
  unfold pipePageSize at *
  omega

theorem Ordered.readByte (ordered : state.Ordered)
    (isAt : CopyPhase.At state.copied.length
      (state.released - state.copied.length)
      (.copying count size (chars + 1))) :
    (state.readByte count size chars).Ordered := by
  obtain ⟨left, position⟩ := isAt
  obtain ⟨here, fits⟩ := position (Nat.succ_pos chars)
  obtain ⟨head, tail, total, copied, released, stored, room, _, writer, page,
    fifo, early, overtaken⟩ := ordered
  have inside : state.copied.length < state.stored.length := by omega
  have one : (state.copied ++ [state.pipe.page size]).length =
      state.copied.length + 1 := List.length_append
  refine ⟨head, tail, total, ?_, released, stored, ?_, ?_, writer, ?_, ?_, ?_⟩
    <;> unfold PipeCopy.readByte <;> dsimp only
  · omega
  · omega
  · rw [one]
    exact ⟨by omega, fun more => ⟨next_position here fits more, by omega⟩⟩
  · intro index isStored notCopied
    exact page index isStored (by omega)
  · rw [here, page _ inside (Nat.le_refl _)]
    have taken := List.prefix_iff_eq_take.mp fifo
    calc state.copied ++ [state.stored[state.copied.length]]
        = state.stored.take state.copied.length ++
            [state.stored[state.copied.length]] := by rw [← taken]
      _ = state.stored.take (state.copied.length + 1) :=
          List.take_append_getElem inside
      _ <+: state.stored := List.take_prefix _ _
  · refine ⟨?_, overtaken⟩
    rw [early, decide_eq_false (by omega)]
    rfl

theorem Ordered.writeByte (ordered : state.Ordered)
    (isAt : CopyPhase.At state.stored.length
      (state.announced - state.stored.length)
      (.copying count size (chars + 1))) (byte : UInt8) :
    (state.writeByte count size chars byte).Ordered := by
  obtain ⟨left, position⟩ := isAt
  obtain ⟨here, fits⟩ := position (Nat.succ_pos chars)
  obtain ⟨head, tail, total, copied, released, stored, room, reader, _, page,
    fifo, early, overtaken⟩ := ordered
  have one : (state.stored ++ [byte]).length = state.stored.length + 1 :=
    List.length_append
  refine ⟨head, tail, total, copied, ?_, ?_, room, reader, ?_, ?_, ?_, ?_⟩
    <;> unfold PipeCopy.writeByte <;> dsimp only
  · omega
  · omega
  · rw [one]
    exact ⟨by omega, fun more => ⟨next_position here fits more, by omega⟩⟩
  · intro index isStored notCopied
    by_cases isNew : index = state.stored.length
    · subst isNew
      rw [if_pos here.symm]
      exact (List.getElem_concat_length rfl _).symm
    · have wasStored : index < state.stored.length := by omega
      have apart : index % pipePageSize ≠ size := by
        unfold pipePageSize at *
        omega
      rw [if_neg apart, List.getElem_append_left wasStored]
      exact page index wasStored notCopied
  · exact fifo.trans (List.prefix_append _ _)
  · refine ⟨early, ?_⟩
    rw [overtaken, decide_eq_false (by omega)]
    rfl

end Steps

theorem Ordered.step {state next : PipeCopy} {action : CopyAction}
    (ordered : state.Ordered) (clear : state.Clear action)
    (steps : pipeCopier.step state action = some next) : next.Ordered := by
  have reader := ordered.reader
  have writer := ordered.writer
  unfold pipeCopier at steps
  dsimp only at steps
  split at steps
  case h_1 count isReader =>
    rw [isReader] at reader
    rw [← Option.some.inj steps]
    exact ordered.setReader reader rfl
  case h_2 count isReader =>
    rw [isReader] at reader
    rw [← Option.some.inj steps]
    unfold Clear at clear
    dsimp only at clear
    rw [isReader] at clear
    exact ordered.readPass reader clear
  case h_3 count size isReader =>
    rw [isReader] at reader
    rw [← Option.some.inj steps]
    exact ordered.setReader reader.1 rfl
  case h_4 count size chars isReader =>
    rw [isReader] at reader
    rw [← Option.some.inj steps]
    exact ordered.readByte reader
  case h_5 count isReader =>
    rw [isReader] at reader
    rw [← Option.some.inj steps]
    exact ordered.setReader reader rfl
  case h_6 count isWriter =>
    rw [isWriter] at writer
    rw [← Option.some.inj steps]
    exact ordered.setWriter writer rfl
  case h_7 count isWriter =>
    rw [isWriter] at writer
    rw [← Option.some.inj steps]
    unfold Clear at clear
    dsimp only at clear
    rw [isWriter] at clear
    exact ordered.writePass writer clear
  case h_8 byte count size isWriter =>
    rw [isWriter] at writer
    rw [← Option.some.inj steps]
    exact ordered.setWriter writer.1 rfl
  case h_9 byte count size chars isWriter =>
    rw [isWriter] at writer
    rw [← Option.some.inj steps]
    exact ordered.writeByte writer byte
  case h_10 count isWriter =>
    rw [isWriter] at writer
    rw [← Option.some.inj steps]
    exact ordered.setWriter writer rfl
  case h_11 iCount =>
    rw [← Option.some.inj steps]
    exact { ordered with }
  case h_12 => cases steps

end PipeCopy

/-- As long as no chunk is started over bytes that the other side still has to
copy, every byte is taken out after it was stored and stored over only after
it was taken out, and the bytes come out in order. -/
theorem pipeCopy_ordered {page : Nat → UInt8} {state : PipeCopy}
    (reached : pipeCopier.Reachable PipeCopy.Clear (.fresh page) state) :
    state.early = false ∧ state.overtaken = false ∧
      state.copied <+: state.stored := by
  have ordered : state.Ordered :=
    reached.invariant (PipeCopy.ordered_fresh page) fun _ _ _ ordered clear
      steps => ordered.step clear steps
  exact ⟨ordered.punctual.1, ordered.punctual.2, ordered.fifo⟩

/-- Two bytes written, of which the reader takes one and then another. -/
theorem pipeCopy_ordered_two :
    ∃ state : PipeCopy,
      pipeCopier.run PipeCopy.Clear (.fresh fun _ => 0)
        [.writePipe 2, .writePass, .writeByte 7, .writeByte 8, .readPipe 1,
          .readPass, .writeByte 0, .readByte, .writePass] = some state ∧
      state.copied = [7] ∧ state.copied <+: state.stored := by
  refine ⟨_, rfl, rfl, ?_⟩
  have runs : pipeCopier.run PipeCopy.Clear (.fresh fun _ => 0)
      [.writePipe 2, .writePass, .writeByte 7, .writeByte 8, .readPipe 1,
        .readPass, .writeByte 0, .readByte, .writePass] = some _ := rfl
  exact (pipeCopy_ordered (Machine.reachable_of_run .start runs)).2.2

/-- A fault at the first byte of a write: the reader takes a byte that is not
there. -/
theorem pipeCopy_early :
    ∃ state : PipeCopy,
      pipeCopier.run Machine.anything (.fresh fun _ => 0)
        [.writePipe 1, .writePass, .readPipe 1, .readPass, .readByte] =
        some state ∧
      state.early = true :=
  ⟨_, rfl, rfl⟩

end Linux011.Fs
