import Linux011.Library.Machine
import Linux011.Library.RingBuffer

/-!
# Pipes

`read_pipe` and `write_pipe` on one pipe inode.  A pass of their loop, which
copies at most one chunk, is one step of a task.
-/

namespace Linux011.Fs

open Machines
open RingBuffers

def pipePageSize : Nat := 4096

/-- The fields of a pipe inode: the page at `i_size`, and `PIPE_HEAD` and
`PIPE_TAIL` in the first two zones. -/
structure Pipe where
  page : Nat → UInt8
  head : Nat
  tail : Nat

namespace Pipe

/-- `PIPE_SIZE`. -/
def size (pipe : Pipe) : Nat :=
  ((pipe.head - pipe.tail : Int) % pipePageSize).toNat

/-- The chunk a pass of `read_pipe` takes. -/
def readChars (pipe : Pipe) (count : Nat) : Nat :=
  min (min (pipePageSize - pipe.tail) count) pipe.size

/-- The room `write_pipe` finds. -/
def room (pipe : Pipe) : Nat := pipePageSize - 1 - pipe.size

/-- The chunk a pass of `write_pipe` stores. -/
def writeChars (pipe : Pipe) (count : Nat) : Nat :=
  min (min (pipePageSize - pipe.head) count) pipe.room

def advanceTail (pipe : Pipe) (chars : Nat) : Pipe :=
  { pipe with tail := (pipe.tail + chars) % pipePageSize }

def advanceHead (pipe : Pipe) (chars : Nat) : Pipe :=
  { pipe with head := (pipe.head + chars) % pipePageSize }

/-- The pipe after a chunk has been written. -/
def put (pipe : Pipe) (chars : Nat) (values : Nat → UInt8) : Pipe :=
  { (pipe.advanceHead chars) with
    page := store pipe.page pipe.head chars values }

/-- The page and the counters are within bounds. -/
structure Bounded (pipe : Pipe) : Prop where
  head : pipe.head < pipePageSize
  tail : pipe.tail < pipePageSize

/-- The bytes from tail to head. -/
def content (pipe : Pipe) : List UInt8 :=
  slice pipePageSize pipe.page pipe.tail pipe.size

section Arithmetic

variable {pipe : Pipe}

theorem size_lt (pipe : Pipe) : pipe.size < pipePageSize := by
  unfold size pipePageSize
  omega

theorem tail_add_size (bounded : pipe.Bounded) :
    (pipe.tail + pipe.size) % pipePageSize = pipe.head := by
  have head := bounded.head
  have tail := bounded.tail
  unfold pipePageSize at *
  unfold size pipePageSize
  omega

theorem advanceTail_size (bounded : pipe.Bounded) {chars : Nat}
    (atMost : chars ≤ pipe.size) :
    (pipe.advanceTail chars).size = pipe.size - chars := by
  have head := bounded.head
  have tail := bounded.tail
  unfold size advanceTail pipePageSize at *
  dsimp only
  omega

theorem advanceHead_size (bounded : pipe.Bounded) {chars : Nat}
    (atMost : chars ≤ pipe.room) :
    (pipe.advanceHead chars).size = pipe.size + chars := by
  have head := bounded.head
  have tail := bounded.tail
  unfold room size advanceHead pipePageSize at *
  dsimp only
  omega

theorem readChars_le (pipe : Pipe) (count : Nat) :
    pipe.readChars count ≤ count ∧ pipe.readChars count ≤ pipe.size ∧
      pipe.tail + pipe.readChars count ≤ max pipe.tail pipePageSize := by
  unfold readChars
  omega

theorem writeChars_le (pipe : Pipe) (count : Nat) :
    pipe.writeChars count ≤ count ∧ pipe.writeChars count ≤ pipe.room ∧
      pipe.head + pipe.writeChars count ≤ max pipe.head pipePageSize := by
  unfold writeChars
  omega

theorem Bounded.advanceTail (bounded : pipe.Bounded) (chars : Nat) :
    (pipe.advanceTail chars).Bounded :=
  ⟨bounded.head, Nat.mod_lt _ (by decide)⟩

theorem Bounded.put (bounded : pipe.Bounded) (chars : Nat)
    (values : Nat → UInt8) : (pipe.put chars values).Bounded :=
  ⟨Nat.mod_lt _ (by decide), bounded.tail⟩

/-- A read takes the front of the content. -/
theorem content_read (bounded : pipe.Bounded) {chars : Nat}
    (atMost : chars ≤ pipe.size) :
    pipe.content =
      slice pipePageSize pipe.page pipe.tail chars ++
        (pipe.advanceTail chars).content := by
  unfold content
  rw [advanceTail_size bounded atMost]
  have whole : pipe.size = chars + (pipe.size - chars) := by omega
  calc slice pipePageSize pipe.page pipe.tail pipe.size
      = slice pipePageSize pipe.page pipe.tail
          (chars + (pipe.size - chars)) := by rw [← whole]
    _ = slice pipePageSize pipe.page pipe.tail chars ++
          slice pipePageSize pipe.page (pipe.tail + chars)
            (pipe.size - chars) := slice_add chars _
    _ = slice pipePageSize pipe.page pipe.tail chars ++
          slice pipePageSize pipe.page ((pipe.tail + chars) % pipePageSize)
            (pipe.size - chars) := by rw [slice_mod]

/-- A write adds to the end of the content. -/
theorem content_put (bounded : pipe.Bounded) {chars : Nat}
    {values : Nat → UInt8} (atMost : chars ≤ pipe.room)
    (fits : pipe.head + chars ≤ pipePageSize) :
    (pipe.put chars values).content =
      pipe.content ++ (List.range chars).map values := by
  have head := tail_add_size bounded
  have below := size_lt pipe
  have grown : (pipe.put chars values).size = pipe.size + chars :=
    advanceHead_size bounded atMost
  have wholeRoom : pipe.size + chars ≤ pipePageSize := by
    unfold room at atMost
    omega
  have behind := @slice_store_behind _ _ pipe.page pipe.tail chars values
    pipe.size wholeRoom bounded.tail
  rw [head] at behind
  unfold content
  rw [grown, slice_add]
  congr 1
  rw [← slice_mod]
  show slice pipePageSize (store pipe.page pipe.head chars values)
    ((pipe.tail + pipe.size) % pipePageSize) chars = _
  rw [head, slice_store fits]

end Arithmetic

end Pipe

/-- A call under way.  `source` is the buffer of a `write_pipe`; `count` is
what is left to move and `done` is `read` or `written`; `moved` records the
bytes moved. -/
structure PipeCall where
  source : Option (Nat → UInt8)
  count : Nat
  done : Nat
  moved : List UInt8
  asleep : Bool

/-- A call that has returned; `broken` says that it posted `SIGPIPE`. -/
structure PipeReturn where
  value : Int
  moved : List UInt8
  broken : Bool

/-- A pipe inode and the calls on it.  `accepted` and `delivered` record the
bytes that writes have stored and reads have taken. -/
structure PipeUse (τ : Type) where
  pipe : Pipe
  iCount : Nat
  call : τ → Option PipeCall
  accepted : List UInt8
  delivered : List UInt8
  returned : List PipeReturn

inductive PipeAction (τ : Type) where
  | readPipe (task : τ) (count : Int)
  | writePipe (task : τ) (buf : Nat → UInt8) (count : Int)
  | pass (task : τ)
  | awake (task : τ)
  | setCount (iCount : Nat)

namespace PipeUse

variable {τ : Type} [DecidableEq τ]

/-- A pipe as `get_pipe_inode` makes it, on a page of any contents. -/
def fresh (page : Nat → UInt8) : PipeUse τ where
  pipe := { page, head := 0, tail := 0 }
  iCount := 2
  call := fun _ => none
  accepted := []
  delivered := []
  returned := []

def setCall (use : PipeUse τ) (task : τ) (call : Option PipeCall) :
    PipeUse τ :=
  { use with
    call := fun other => if other = task then call else use.call other }

def leave (use : PipeUse τ) (task : τ) (result : PipeReturn) : PipeUse τ :=
  { (use.setCall task none) with returned := result :: use.returned }

/-- A pass of the loop of `read_pipe`. -/
def readPass (use : PipeUse τ) (task : τ) (call : PipeCall) : PipeUse τ :=
  if call.count = 0 then use.leave task ⟨call.done, call.moved, false⟩
  else if use.pipe.size = 0 then
    if use.iCount ≠ 2 then use.leave task ⟨call.done, call.moved, false⟩
    else use.setCall task (some { call with asleep := true })
  else
    let chars := use.pipe.readChars call.count
    let bytes := slice pipePageSize use.pipe.page use.pipe.tail chars
    { (use.setCall task (some { call with
          count := call.count - chars
          done := call.done + chars
          moved := call.moved ++ bytes })) with
      pipe := use.pipe.advanceTail chars
      delivered := use.delivered ++ bytes }

/-- A pass of the loop of `write_pipe`. -/
def writePass (use : PipeUse τ) (task : τ) (buf : Nat → UInt8)
    (call : PipeCall) : PipeUse τ :=
  if call.count = 0 then use.leave task ⟨call.done, call.moved, false⟩
  else if use.pipe.room = 0 then
    if use.iCount ≠ 2 then
      use.leave task
        ⟨if call.done ≠ 0 then call.done else -1, call.moved, true⟩
    else use.setCall task (some { call with asleep := true })
  else
    let chars := use.pipe.writeChars call.count
    let bytes := (List.range chars).map fun index => buf (call.done + index)
    { (use.setCall task (some { call with
          count := call.count - chars
          done := call.done + chars
          moved := call.moved ++ bytes })) with
      pipe := use.pipe.put chars fun index => buf (call.done + index)
      accepted := use.accepted ++ bytes }

def pass (use : PipeUse τ) (task : τ) (call : PipeCall) : PipeUse τ :=
  match call.source with
  | none => use.readPass task call
  | some buf => use.writePass task buf call

end PipeUse

/-- The pipe under any number of tasks.  Tasks may change at every pass, and
sleepers may wake at any time; `iCount` changes as descriptors are closed. -/
def pipeMachine (τ : Type) [DecidableEq τ] :
    Machine (PipeUse τ) (PipeAction τ) where
  step := fun use action =>
    match action with
    | .readPipe task count =>
        if (use.call task).isSome then none
        else some (use.setCall task (some
          { source := none
            count := count.toNat
            done := 0
            moved := []
            asleep := false }))
    | .writePipe task buf count =>
        if (use.call task).isSome then none
        else some (use.setCall task (some
          { source := some buf
            count := count.toNat
            done := 0
            moved := []
            asleep := false }))
    | .pass task =>
        match use.call task with
        | none => none
        | some call => if call.asleep then none else some (use.pass task call)
    | .awake task =>
        match use.call task with
        | none => none
        | some call => some (use.setCall task (some { call with asleep := false }))
    | .setCount iCount => some { use with iCount }

/-- What a call may return. -/
def PipeReturn.Honest (result : PipeReturn) : Prop :=
  result.value =
    if result.broken ∧ result.moved = [] then (-1 : Int)
    else result.moved.length

namespace PipeUse

variable {τ : Type} [DecidableEq τ]

/-- The pipe holds what was accepted and not yet delivered, and every call
knows how much it moved. -/
structure Fifo (use : PipeUse τ) : Prop where
  bounded : use.pipe.Bounded
  conserved : use.accepted = use.delivered ++ use.pipe.content
  counted : ∀ task call, use.call task = some call →
    call.done = call.moved.length
  honest : ∀ result ∈ use.returned, PipeReturn.Honest result

omit [DecidableEq τ] in
theorem fifo_fresh (page : Nat → UInt8) :
    (fresh page : PipeUse τ).Fifo where
  bounded := ⟨Nat.zero_lt_succ 4095, Nat.zero_lt_succ 4095⟩
  conserved := rfl
  counted := fun _ _ isCall => nomatch isCall
  honest := fun _ isMember => nomatch isMember

variable {use next : PipeUse τ} {task : τ} {call : PipeCall}

theorem honest_whole (counted : call.done = call.moved.length) :
    PipeReturn.Honest ⟨call.done, call.moved, false⟩ := by
  unfold PipeReturn.Honest
  dsimp only
  rw [counted, if_neg (fun both => Bool.noConfusion both.1)]

theorem Fifo.setCall (fifo : use.Fifo) {call : Option PipeCall}
    (counted : ∀ new, call = some new → new.done = new.moved.length) :
    (use.setCall task call).Fifo := by
  refine ⟨fifo.bounded, fifo.conserved, ?_, fifo.honest⟩
  intro other new isCall
  have found : (if other = task then call else use.call other) = some new :=
    isCall
  split at found
  · exact counted new found
  · exact fifo.counted other new found

theorem Fifo.leave (fifo : use.Fifo) {result : PipeReturn}
    (honest : PipeReturn.Honest result) : (use.leave task result).Fifo := by
  have cleared : (use.setCall task none).Fifo :=
    fifo.setCall fun _ isNew => nomatch isNew
  obtain ⟨bounded, conserved, counted, _⟩ := cleared
  refine ⟨bounded, conserved, counted, ?_⟩
  intro other isMember
  have found : other ∈ result :: use.returned := isMember
  rw [List.mem_cons] at found
  rcases found with rfl | isMember
  · exact honest
  · exact fifo.honest other isMember

theorem Fifo.asleep (fifo : use.Fifo) (isCall : use.call task = some call)
    (asleep : Bool) :
    (use.setCall task (some { call with asleep })).Fifo := by
  apply fifo.setCall
  intro new isNew
  rw [← Option.some.inj isNew]
  exact fifo.counted task call isCall

theorem Fifo.readPass (fifo : use.Fifo) (isCall : use.call task = some call) :
    (use.readPass task call).Fifo := by
  have counted := fifo.counted task call isCall
  have honest := honest_whole counted
  unfold PipeUse.readPass
  split
  · exact fifo.leave honest
  · split
    · split
      · exact fifo.leave honest
      · exact fifo.asleep isCall true
    · obtain ⟨_, available, _⟩ := use.pipe.readChars_le call.count
      dsimp only
      refine ⟨fifo.bounded.advanceTail _, ?_, ?_, fifo.honest⟩
      · show use.accepted = _
        rw [List.append_assoc, ← Pipe.content_read fifo.bounded available]
        exact fifo.conserved
      · apply (fifo.setCall _).counted
        intro new isNew
        rw [← Option.some.inj isNew]
        dsimp only
        rw [List.length_append, slice_length, counted]

theorem Fifo.writePass (fifo : use.Fifo) (isCall : use.call task = some call)
    (buf : Nat → UInt8) : (use.writePass task buf call).Fifo := by
  have counted := fifo.counted task call isCall
  unfold PipeUse.writePass
  split
  · exact fifo.leave (honest_whole counted)
  · split
    · split
      · apply fifo.leave
        unfold PipeReturn.Honest
        dsimp only
        rw [counted]
        cases call.moved with
        | nil => rfl
        | cons byte rest => rfl
      · exact fifo.asleep isCall true
    · obtain ⟨_, available, fits⟩ := use.pipe.writeChars_le call.count
      have head := fifo.bounded.head
      rw [Nat.max_eq_right (Nat.le_of_lt head)] at fits
      dsimp only
      refine ⟨fifo.bounded.put _ _, ?_, ?_, fifo.honest⟩
      · show use.accepted ++ _ = use.delivered ++ _
        rw [Pipe.content_put fifo.bounded available fits, ← List.append_assoc,
          ← fifo.conserved]
      · apply (fifo.setCall _).counted
        intro new isNew
        rw [← Option.some.inj isNew]
        dsimp only
        rw [List.length_append, List.length_map, List.length_range, counted]

theorem Fifo.step {action : PipeAction τ} (fifo : use.Fifo)
    (steps : (pipeMachine τ).step use action = some next) : next.Fifo := by
  have entered {task : τ} (source : Option (Nat → UInt8)) (count : Nat) :
      (use.setCall task (some ⟨source, count, 0, [], false⟩)).Fifo := by
    apply fifo.setCall
    intro new isNew
    rw [← Option.some.inj isNew]
    rfl
  cases action with
  | readPipe task count =>
      rw [pipeMachine] at steps
      dsimp only at steps
      split at steps
      · cases steps
      · rw [← Option.some.inj steps]
        exact entered none count.toNat
  | writePipe task buf count =>
      rw [pipeMachine] at steps
      dsimp only at steps
      split at steps
      · cases steps
      · rw [← Option.some.inj steps]
        exact entered (some buf) count.toNat
  | pass task =>
      rw [pipeMachine] at steps
      dsimp only at steps
      cases isCall : use.call task with
      | none =>
          rw [isCall] at steps
          cases steps
      | some call =>
          rw [isCall] at steps
          dsimp only at steps
          split at steps
          · cases steps
          · rw [← Option.some.inj steps]
            unfold pass
            split
            · exact fifo.readPass isCall
            · exact fifo.writePass isCall _
  | awake task =>
      rw [pipeMachine] at steps
      dsimp only at steps
      cases isCall : use.call task with
      | none =>
          rw [isCall] at steps
          cases steps
      | some call =>
          rw [isCall] at steps
          rw [← Option.some.inj steps]
          exact fifo.asleep isCall false
  | setCount iCount =>
      rw [← Option.some.inj steps]
      exact ⟨fifo.bounded, fifo.conserved, fifo.counted, fifo.honest⟩

end PipeUse

variable {τ : Type} [DecidableEq τ]

/-- Pipes are first in, first out; a call returns how much it moved, or -1
where a write into a full pipe without readers moved nothing. -/
theorem pipe_fifo {page : Nat → UInt8} {use : PipeUse τ}
    (reached : (pipeMachine τ).Reachable Machine.anything (.fresh page) use) :
    use.delivered <+: use.accepted ∧
      use.accepted = use.delivered ++
        slice pipePageSize use.pipe.page use.pipe.tail use.pipe.size ∧
      use.pipe.size ≤ 4095 ∧
      ∀ result ∈ use.returned, result.value =
        if result.broken ∧ result.moved = [] then -1
        else (result.moved.length : Int) := by
  have fifo : use.Fifo :=
    reached.invariant (PipeUse.fifo_fresh page) fun _ _ _ fifo _ steps =>
      fifo.step steps
  refine ⟨?_, fifo.conserved, Nat.le_of_lt_succ use.pipe.size_lt, fifo.honest⟩
  rw [fifo.conserved]
  exact List.prefix_append _ _

/-- Two bytes written, of which a reader takes one. -/
theorem pipe_fifo_two :
    ∃ use : PipeUse Nat,
      (pipeMachine Nat).run Machine.anything (.fresh fun _ => 0)
        [.writePipe 1 (fun _ => 7) 2, .readPipe 2 1, .pass 1, .pass 2] =
        some use ∧
      use.delivered = [7] ∧ use.delivered <+: use.accepted := by
  refine ⟨_, rfl, rfl, ?_⟩
  have runs : (pipeMachine Nat).run Machine.anything (.fresh fun _ => 0)
      [.writePipe 1 (fun _ => 7) 2, .readPipe 2 1, .pass 1, .pass 2] =
      some _ := rfl
  exact (pipe_fifo (Machine.reachable_of_run .start runs)).1

/-- Filling the pipe and then writing once more without a reader. -/
theorem pipe_returnsError :
    ∃ (use : PipeUse Nat) (result : PipeReturn),
      (pipeMachine Nat).run Machine.anything (.fresh fun _ => 0)
        [.writePipe 1 (fun _ => 7) 4095, .pass 1, .pass 1, .setCount 1,
          .writePipe 1 (fun _ => 7) 1, .pass 1] = some use ∧
      result ∈ use.returned ∧ result.value ≠ result.moved.length := by
  refine ⟨_, ⟨-1, [], true⟩, rfl, List.mem_cons_self .., ?_⟩
  decide

end Linux011.Fs
