import Linux011.Chr.TtyLines

/-!
# Full queues

`tty_write` and the loop of `copy_to_cooked` look for a place before a
`PUTCH`.  The echo and `respond` do not, and nothing is lost where there is
room for what they put.
-/

namespace Linux011.Chr

open Machines RingQueues

/-! ## What a turn of `copy_to_cooked` echoes -/

namespace Tty

/-- The echo of a received character. -/
def specialEcho (c : Int) (tty : Tty) : List Int :=
  if tty.lFlag iCANON ∧ c = tty.cc vKILL then []
  else if tty.lFlag iCANON ∧ c = tty.cc vERASE then
    if tty.lineStart then [] else rubout tty.last
  else if tty.lFlag iCANON ∧ c = tty.cc vSTOP then []
  else if tty.lFlag iCANON ∧ c = tty.cc vSTART then []
  else if tty.lFlag iSIG ∧ c = tty.cc vINTR then []
  else if tty.lFlag iSIG ∧ c = tty.cc vQUIT then []
  else tty.echoOf c

/-- The echo of the next turn, if there is an echo. -/
def turnEcho (tty : Tty) : List Int :=
  if tty.killing then if tty.lineStart then [] else rubout tty.last
  else if tty.readQ.empty ∨ tty.secondary.full then []
  else
    match tty.translated (tty.readQ.buf tty.readQ.tail) with
    | none => []
    | some c => tty.specialEcho c

/-- How many of these characters are echoed. -/
def echoed (chars : List Int) (tty : Tty) : Nat :=
  if tty.lFlag eCHO then chars.length else 0

end Tty

/-- There is room for the echo, and behind it for the character that
`tty_write` has found a place for, and for the answer of the console. -/
def Roomy (world : TtyWorld) : TtyAction → Prop
  | .cook =>
      let place := if world.checked ∧ world.tty.driver = .serial then 1 else 0
      world.tty.echoed world.tty.turnEcho + place ≤ world.tty.writeQ.room
  | .respond => 7 ≤ world.tty.readQ.room
  | _ => True

/-! ## Queues -/

/-- No `PUTCH` has found the queue full. -/
structure Intact (queue : TtyQueue) : Prop where
  valid : queue.Valid
  sound : queue.overrun = false

namespace Intact

variable {queue : TtyQueue} {c : Int}

theorem room_putch (intact : Intact queue) (room : queue.full = false) :
    (queue.putch c).room + 1 = queue.room := by
  have before := RingQueue.Valid.left intact.valid
  have after : (queue.putch c).count ttyBufSize + (queue.putch c).room + 1 =
      ttyBufSize := RingQueue.Valid.left (RingQueue.Valid.put intact.valid)
  have more := congrArg List.length (@chars_putch queue c intact.valid room)
  have isOld : queue.chars.length = queue.count ttyBufSize :=
    RingQueue.contents_length
  have isNew : (queue.putch c).chars.length =
      (queue.putch c).count ttyBufSize := RingQueue.contents_length
  rw [List.length_append, List.length_singleton] at more
  unfold TtyQueue.room at *
  omega

theorem putch (intact : Intact queue) (room : queue.full = false) :
    Intact (queue.putch c) where
  valid := RingQueue.Valid.put intact.valid
  sound := by simp [TtyQueue.putch, intact.sound, room]

/-- A whole string fits. -/
theorem puts {chars : List Int} (intact : Intact queue)
    (fits : chars.length ≤ queue.room) :
    let next := chars.foldl (fun queue c => queue.putch c) queue
    Intact next ∧ next.chars = queue.chars ++ chars ∧
      next.room + chars.length = queue.room := by
  induction chars generalizing queue with
  | nil => exact ⟨intact, (List.append_nil _).symm, rfl⟩
  | cons c rest induction =>
      rw [List.length_cons] at fits
      have room : queue.full = false := by
        rw [TtyQueue.full, beq_eq_false_iff_ne]
        omega
      have less := @room_putch queue c intact room
      obtain ⟨isIntact, isChars, isRoom⟩ :=
        induction (@putch queue c intact room) (by omega)
      refine ⟨isIntact, ?_, ?_⟩
      · rw [List.foldl_cons, isChars, chars_putch intact.valid room,
          List.append_assoc, List.singleton_append]
      · rw [List.foldl_cons, List.length_cons]
        omega

theorem getch (intact : Intact queue) : Intact queue.getch :=
  ⟨RingQueue.Valid.get intact.valid, intact.sound⟩

theorem room_getch (intact : Intact queue) (some : queue.empty = false) :
    queue.getch.room = queue.room + 1 := by
  have before := RingQueue.Valid.left intact.valid
  have after : queue.getch.count ttyBufSize + queue.getch.room + 1 =
      ttyBufSize := RingQueue.Valid.left (RingQueue.Valid.get intact.valid)
  have less := congrArg List.length (chars_getch intact.valid some)
  have isOld : queue.chars.length = queue.count ttyBufSize :=
    RingQueue.contents_length
  have isNew : queue.getch.chars.length = queue.getch.count ttyBufSize :=
    RingQueue.contents_length
  rw [List.length_cons] at less
  unfold TtyQueue.room at *
  omega

theorem dec (intact : Intact queue) : Intact queue.dec where
  valid := RingQueue.Valid.back intact.valid
  sound := by
    simp only [TtyQueue.dec]
    exact intact.sound

theorem flush (intact : Intact queue) : Intact queue.flush :=
  ⟨⟨intact.valid.2, intact.valid.2⟩, intact.sound⟩

/-- Received characters go behind those that are there, if at all. -/
theorem offer {chars : List Int} {place : Nat} (intact : Intact queue)
    (inside : place < ttyBufSize)
    (further : queue.count ttyBufSize ≤
      ({ queue.toRingQueue with head := place } : RingQueue Int).count ttyBufSize) :
    Intact (queue.offer chars place) ∧
      queue.chars <+: (queue.offer chars place).chars := by
  induction chars generalizing queue place with
  | nil =>
      exact ⟨⟨⟨inside, intact.valid.2⟩, intact.sound⟩,
        RingQueue.contents_prefix further⟩
  | cons c rest induction =>
      have same : ({ queue with
          buf := fun cell => if cell = place then c else queue.buf cell } :
          TtyQueue).chars = queue.chars :=
        RingQueue.contents_store intact.valid inside further
      have stored : Intact { queue with
          buf := fun cell => if cell = place then c else queue.buf cell } :=
        ⟨intact.valid, intact.sound⟩
      rw [← same]
      simp only [TtyQueue.offer]
      split
      · exact ⟨stored, List.prefix_rfl⟩
      · rename_i room
        have next := RingQueue.count_next inside intact.valid.2 room
        have reaches := Nat.le_trans (Nat.le_succ_of_le further)
          (Nat.le_of_eq next.symm)
        exact induction stored (Nat.mod_lt _ (by decide)) reaches

end Intact

/-! ## The echo -/

/-- An echo puts `count` characters, which stay in the queue of a serial
line. -/
structure Echoes (count : Nat) (tty next : Tty) : Prop where
  intact : Intact next.writeQ
  driver : next.driver = tty.driver
  kept : tty.driver = .serial → tty.writeQ.chars <+: next.writeQ.chars
  room : tty.writeQ.room ≤
    next.writeQ.room + if tty.driver = .serial then count else 0

namespace Echoes

variable {tty next : Tty}

theorem of_same (intact : Intact tty.writeQ) (driver : next.driver = tty.driver)
    (writeQ : next.writeQ = tty.writeQ) : Echoes 0 tty next where
  intact := writeQ ▸ intact
  driver := driver
  kept := by
    intro _
    simp [writeQ]
  room := by
    rw [writeQ]
    exact Nat.le_add_right _ _

/-- `con_write` empties the queue, so that there is as much room as ever. -/
theorem room_le {queue taken : TtyQueue} (valid : queue.Valid)
    (empty : taken.tail = taken.head) :
    queue.room ≤ taken.room := by
  have before := RingQueue.Valid.left valid
  have isRoom : taken.room =
      (taken.tail + ttyBufSize - taken.head - 1) % ttyBufSize := rfl
  have isLeft : queue.room = queue.left ttyBufSize := rfl
  unfold ttyBufSize at *
  omega

theorem echo {chars : List Int} (intact : Intact tty.writeQ)
    (fits : chars.length ≤ tty.writeQ.room) :
    Echoes chars.length tty (tty.echo chars) := by
  obtain ⟨isIntact, isChars, isRoom⟩ := intact.puts fits
  cases isDriver : tty.driver with
  | console =>
      have isEcho : (tty.echo chars).writeQ =
          let queue := chars.foldl (fun queue c => queue.putch c) tty.writeQ
          { queue with tail := queue.head } := by
        simp [Tty.echo, Tty.write, isDriver]
      have sameDriver : (tty.echo chars).driver = tty.driver := by
        simp [Tty.echo, Tty.write, isDriver]
      refine ⟨?_, sameDriver, ?_, ?_⟩
      · rw [isEcho]
        exact ⟨⟨isIntact.valid.1, isIntact.valid.1⟩, isIntact.sound⟩
      · rw [isDriver]
        nofun
      · rw [isEcho]
        exact Nat.le_add_right_of_le
          (room_le intact.valid rfl)
  | serial =>
      have isEcho : tty.echo chars = { tty with
          writeQ := chars.foldl (fun queue c => queue.putch c)
            tty.writeQ } := by
        simp [Tty.echo, Tty.write, isDriver]
      rw [isEcho]
      refine ⟨isIntact, rfl, ?_, ?_⟩
      · intro _
        rw [isChars]
        exact List.prefix_append _ _
      · rw [if_pos isDriver]
        exact Nat.le_of_eq isRoom.symm

/-- The echo, if the terminal has one. -/
theorem flagged {chars : List Int} (intact : Intact tty.writeQ)
    (fits : tty.echoed chars ≤ tty.writeQ.room) :
    Echoes (tty.echoed chars) tty
      (if tty.lFlag eCHO then tty.echo chars else tty) := by
  unfold Tty.echoed at *
  split
  · rename_i echoes
    rw [if_pos echoes] at fits
    exact echo intact fits
  · exact of_same intact rfl rfl

/-- What happens to the other queues does not matter. -/
theorem congr {count : Nat} {before after : Tty}
    (echoes : Echoes count before after) (driver : before.driver = tty.driver)
    (writeQ : before.writeQ = tty.writeQ)
    (sameDriver : next.driver = after.driver)
    (sameQ : next.writeQ = after.writeQ) : Echoes count tty next where
  intact := sameQ ▸ echoes.intact
  driver := by rw [sameDriver, echoes.driver, driver]
  kept := by
    rw [sameQ, ← writeQ, ← driver]
    exact echoes.kept
  room := by
    rw [sameQ, ← writeQ, ← driver]
    exact echoes.room

theorem erase (intact : Intact tty.writeQ)
    (fits : tty.echoed (Tty.rubout tty.last) ≤ tty.writeQ.room) :
    Echoes (tty.echoed (Tty.rubout tty.last)) tty tty.erase :=
  (flagged intact fits).congr rfl rfl (by simp only [Tty.erase])
    (by simp only [Tty.erase])

theorem accept {c : Int} (intact : Intact tty.writeQ)
    (fits : tty.echoed (tty.echoOf c) ≤ tty.writeQ.room) :
    Echoes (tty.echoed (tty.echoOf c)) tty (tty.accept c) := by
  unfold Tty.accept
  by_cases ends : tty.ends c = true
  · rw [if_pos ends]
    exact (@flagged { tty with secondary := { tty.secondary with
      data := (tty.secondary.data + 1) % 2 ^ 32 } } (tty.echoOf c) intact
        fits).congr rfl rfl rfl rfl
  · rw [if_neg ends]
    exact (flagged intact fits).congr rfl rfl rfl rfl

theorem special {c : Int} (intact : Intact tty.writeQ)
    (fits : tty.echoed (tty.specialEcho c) ≤ tty.writeQ.room) :
    Echoes (tty.echoed (tty.specialEcho c)) tty (tty.special c) := by
  have none : tty.echoed [] = 0 := by simp [Tty.echoed]
  revert fits
  unfold Tty.specialEcho Tty.special
  split
  · rw [none]
    exact fun _ => of_same intact rfl rfl
  split
  · split
    · rw [none]
      exact fun _ => of_same intact rfl rfl
    · exact erase intact
  split
  · rw [none]
    exact fun _ => of_same intact rfl rfl
  split
  · rw [none]
    exact fun _ => of_same intact rfl rfl
  split
  · rw [none]
    exact fun _ => of_same intact rfl rfl
  split
  · rw [none]
    exact fun _ => of_same intact rfl rfl
  · exact accept intact

theorem cook (intact : Intact tty.writeQ)
    (fits : tty.echoed tty.turnEcho ≤ tty.writeQ.room)
    (cooks : tty.cook = some next) :
    Echoes (tty.echoed tty.turnEcho) tty next := by
  have none : tty.echoed [] = 0 := by simp [Tty.echoed]
  revert fits cooks
  unfold Tty.turnEcho Tty.cook
  split
  · split
    · rw [none]
      intro _ isNext
      rw [← Option.some.inj isNext]
      exact of_same intact rfl rfl
    · intro fits isNext
      rw [← Option.some.inj isNext]
      exact erase intact fits
  · split
    · nofun
    · dsimp only
      have same : ({ tty with readQ := tty.readQ.getch } : Tty).translated
          (tty.readQ.buf tty.readQ.tail) =
            tty.translated (tty.readQ.buf tty.readQ.tail) := rfl
      rw [same]
      cases isChar : tty.translated (tty.readQ.buf tty.readQ.tail) with
      | none =>
          rw [none]
          intro _ isNext
          rw [← Option.some.inj isNext]
          exact of_same intact rfl rfl
      | some c =>
          intro fits isNext
          rw [← Option.some.inj isNext]
          exact (@special { tty with readQ := tty.readQ.getch } c intact
            fits).congr rfl rfl rfl rfl

end Echoes

/-! ## The other queues of `copy_to_cooked` -/

/-- What a turn may do to the secondary queue. -/
inductive Edited (queue : TtyQueue) : TtyQueue → Prop where
  | kept : Edited queue queue
  | erased (some : queue.empty = false) : Edited queue queue.dec
  | accepted (c : Int) (data : Nat) (room : queue.full = false) :
      Edited queue (TtyQueue.putch c { queue with data })

namespace Edited

variable {tty next : Tty}

theorem intact {queue next : TtyQueue} (edited : Edited queue next)
    (intact : Intact queue) : Intact next := by
  cases edited with
  | kept => exact intact
  | erased => exact intact.dec
  | accepted c data room =>
      exact @Intact.putch { queue with data } c ⟨intact.valid, intact.sound⟩
        room

/-- Only the last character can be erased. -/
theorem chars {queue next : TtyQueue} (edited : Edited queue next)
    (valid : queue.Valid) : queue.chars.dropLast <+: next.chars := by
  cases edited with
  | kept => exact List.dropLast_prefix _
  | erased some =>
      simp [chars_dec valid some]
  | accepted c data room =>
      have more : (TtyQueue.putch c { queue with data }).chars =
          queue.chars ++ [c] := @chars_putch { queue with data } c valid room
      rw [more]
      exact (List.dropLast_prefix _).trans (List.prefix_append _ _)

theorem erase (inLine : ¬tty.lineStart = true) :
    Edited tty.secondary tty.erase.secondary := by
  rw [erase_secondary]
  simp only [Tty.lineStart, Bool.or_eq_true, not_or, Bool.not_eq_true] at inLine
  exact .erased inLine.1

theorem special {c : Int} (room : tty.secondary.full = false) :
    Edited tty.secondary (tty.special c).secondary := by
  unfold Tty.special
  split
  · exact .kept
  split
  · split
    · exact .kept
    · rename_i inLine
      exact erase inLine
  split
  · exact .kept
  split
  · exact .kept
  split
  · exact .kept
  split
  · exact .kept
  · rw [accept_secondary]
    exact .accepted c _ room

theorem cook (cooks : tty.cook = some next) :
    Edited tty.secondary next.secondary := by
  unfold Tty.cook at cooks
  split at cooks
  · rw [← Option.some.inj cooks]
    split
    · exact .kept
    · rename_i inLine
      exact erase inLine
  · split at cooks
    · cases cooks
    · rename_i ready
      simp only [not_or, Bool.not_eq_true] at ready
      dsimp only at cooks
      split at cooks
      · rw [← Option.some.inj cooks]
        exact .kept
      · rw [← Option.some.inj cooks]
        exact @special { tty with readQ := tty.readQ.getch } _ ready.2

end Edited

section Received

variable {tty next : Tty} {c : Int}

@[simp] theorem write_readQ : tty.write.readQ = tty.readQ := by
  unfold Tty.write
  split <;> rfl

@[simp] theorem erase_readQ : tty.erase.readQ = tty.readQ := by
  unfold Tty.erase
  dsimp only
  split
  · exact write_readQ
  · rfl

@[simp] theorem accept_readQ : (tty.accept c).readQ = tty.readQ := by
  unfold Tty.accept
  dsimp only
  split <;> split <;> simp [Tty.echo]

@[simp] theorem special_readQ : (tty.special c).readQ = tty.readQ := by
  unfold Tty.special
  repeat' split
  all_goals simp

/-- A turn takes one character, unless it kills a line. -/
theorem cook_readQ (cooks : tty.cook = some next) :
    tty.killing = true ∧ next.readQ = tty.readQ ∨
      tty.killing = false ∧ tty.readQ.empty = false ∧
        next.readQ = tty.readQ.getch := by
  unfold Tty.cook at cooks
  split at cooks
  · rename_i killing
    rw [← Option.some.inj cooks]
    refine .inl ⟨killing, ?_⟩
    split
    · rfl
    · exact erase_readQ
  · rename_i killing
    split at cooks
    · cases cooks
    · rename_i ready
      simp only [not_or, Bool.not_eq_true] at ready killing
      refine .inr ⟨killing, ready.1, ?_⟩
      dsimp only at cooks
      split at cooks
      · rw [← Option.some.inj cooks]
      · rw [← Option.some.inj cooks]
        exact special_readQ

end Received

/-! ## Runs -/

namespace TtyAction

/-- The characters of `read_q` that a step does not take. -/
def leavesRead (tty : Tty) : TtyAction → List Int
  | .cook => if tty.killing then tty.readQ.chars else tty.readQ.chars.tail
  | .ioctl command _ => if command.flushes then [] else tty.readQ.chars
  | _ => tty.readQ.chars

/-- The characters of `write_q` that the driver does not take. -/
def leavesWrite (tty : Tty) : TtyAction → List Int
  | .cook | .write => if tty.driver = .console then [] else tty.writeQ.chars
  | .transmit => tty.writeQ.chars.tail
  | _ => tty.writeQ.chars

/-- The characters of `secondary` that are neither erased nor read. -/
def leavesSecondary (tty : Tty) : TtyAction → List Int
  | .cook => tty.secondary.chars.dropLast
  | .readTake => tty.secondary.chars.tail
  | _ => tty.secondary.chars

end TtyAction

/-- What is queued and not taken stays in the queue. -/
structure Lossless (action : TtyAction) (tty next : Tty) : Prop where
  readQ : action.leavesRead tty <+: next.readQ.chars
  writeQ : action.leavesWrite tty <+: next.writeQ.chars
  secondary : action.leavesSecondary tty <+: next.secondary.chars

/-- The queues are intact, and where `tty_write` has seen a place there still
is one. -/
structure Sound (world : TtyWorld) : Prop where
  readQ : Intact world.tty.readQ
  writeQ : Intact world.tty.writeQ
  secondary : Intact world.tty.secondary
  place : world.checked = true → world.tty.writeQ.full = false

namespace Sound

variable {world next : TtyWorld}

theorem same (sound : Sound world)
    (same : next.tty = world.tty ∧ next.checked = world.checked) :
    Sound next := by
  obtain ⟨tty, reading, results, checked⟩ := next
  obtain ⟨rfl, rfl⟩ := same
  exact ⟨sound.readQ, sound.writeQ, sound.secondary, sound.place⟩

theorem cook (sound : Sound world) (allowed : Roomy world .cook)
    (steps : terminal.step world .cook = some next) :
    Sound next ∧ Lossless .cook world.tty next.tty := by
  obtain ⟨tty, cooks, rfl⟩ := Option.map_eq_some_iff.mp steps
  have roomy : world.tty.echoed world.tty.turnEcho +
      (if world.checked ∧ world.tty.driver = .serial then 1 else 0) ≤
        world.tty.writeQ.room := allowed
  have echoes := Echoes.cook sound.writeQ
    (Nat.le_trans (Nat.le_add_right _ _) roomy) cooks
  have edited := Edited.cook cooks
  have room := echoes.room
  refine ⟨⟨?_, echoes.intact, edited.intact sound.secondary, ?_⟩, ?_, ?_,
    edited.chars sound.secondary.valid⟩
  · rcases cook_readQ cooks with ⟨_, same⟩ | ⟨_, _, same⟩
    · rw [same]
      exact sound.readQ
    · rw [same]
      exact sound.readQ.getch
  · intro (checked : world.checked = true)
    have place := sound.place checked
    simp only [TtyQueue.full, beq_eq_false_iff_ne] at place ⊢
    cases isDriver : world.tty.driver with
    | console =>
        simp only [isDriver, reduceCtorEq, if_false] at room
        omega
    | serial =>
        simp only [isDriver, checked, and_self, if_true] at room roomy
        omega
  · rcases cook_readQ cooks with ⟨killing, same⟩ | ⟨killing, some, same⟩
    · simp [same, TtyAction.leavesRead, killing]
    · have split := chars_getch sound.readQ.valid some
      rw [same, TtyAction.leavesRead, killing, if_neg Bool.false_ne_true,
        split]
      exact List.prefix_rfl
  · unfold TtyAction.leavesWrite
    cases isDriver : world.tty.driver with
    | console => exact List.nil_prefix
    | serial => exact echoes.kept isDriver

theorem respond (sound : Sound world)
    (room : 7 ≤ world.tty.readQ.room) :
    Sound { world with tty := world.tty.respond } ∧
      Lossless .respond world.tty world.tty.respond := by
  have isReadQ : world.tty.respond.readQ =
      [27, 91, 63, 49, 59, 50, 99].foldl
        (fun queue c => TtyQueue.putch c queue) world.tty.readQ := by
    simp only [Tty.respond]
  have isWriteQ : world.tty.respond.writeQ = world.tty.writeQ := by
    simp only [Tty.respond]
  have isSecondary : world.tty.respond.secondary = world.tty.secondary := by
    simp only [Tty.respond]
  have puts := @Intact.puts _ [27, 91, 63, 49, 59, 50, 99] sound.readQ room
  obtain ⟨intact, more, _⟩ := puts
  rw [← isReadQ] at intact more
  refine ⟨⟨intact, ?_, ?_, ?_⟩, ?_, ?_, ?_⟩
  · rw [isWriteQ]
    exact sound.writeQ
  · rw [isSecondary]
    exact sound.secondary
  · rw [isWriteQ]
    exact sound.place
  · rw [more]
    exact List.prefix_append _ _
  · rw [isWriteQ]
    exact List.prefix_rfl
  · rw [isSecondary]
    exact List.prefix_rfl

theorem transmit (sound : Sound world)
    (some : world.tty.writeQ.empty = false) :
    let tty := { world.tty with writeQ := world.tty.writeQ.getch }
    Sound { world with tty } ∧ Lossless .transmit world.tty tty := by
  have split := chars_getch sound.writeQ.valid some
  have more := sound.writeQ.room_getch some
  refine ⟨⟨sound.readQ, sound.writeQ.getch, sound.secondary, ?_⟩,
    List.prefix_rfl, ?_, List.prefix_rfl⟩
  · intro _
    simp [TtyQueue.full, more]
  · rw [TtyAction.leavesWrite, split]
    exact List.prefix_rfl

theorem readTake (sound : Sound world)
    (takes : next.tty = world.tty.take ∧ next.checked = world.checked) :
    Sound next ∧ Lossless .readTake world.tty next.tty := by
  obtain ⟨tty, reading, results, checked⟩ := next
  obtain ⟨rfl, rfl⟩ := takes
  have same : world.tty.take.secondary.chars =
      world.tty.secondary.getch.chars := by
    simp only [Tty.take, TtyQueue.chars]
  refine ⟨⟨sound.readQ, sound.writeQ, ?_, sound.place⟩, List.prefix_rfl,
    List.prefix_rfl, ?_⟩
  · have taken := sound.secondary.getch
    exact ⟨taken.valid, taken.sound⟩
  · rw [TtyAction.leavesSecondary, same]
    cases isEmpty : world.tty.secondary.empty with
    | false =>
        rw [chars_getch sound.secondary.valid isEmpty]
        exact List.prefix_rfl
    | true =>
        rw [(chars_empty sound.secondary.valid).mpr isEmpty]
        exact List.nil_prefix

theorem write (sound : Sound world) :
    Sound { world with tty := world.tty.write } ∧
      Lossless .write world.tty world.tty.write := by
  unfold Tty.write
  cases isDriver : world.tty.driver with
  | console =>
      have valid := sound.writeQ.valid
      refine ⟨⟨sound.readQ, ⟨⟨valid.1, valid.1⟩, sound.writeQ.sound⟩,
        sound.secondary, ?_⟩, List.prefix_rfl, ?_, List.prefix_rfl⟩
      · intro checked
        have place := sound.place checked
        have room : world.tty.writeQ.room ≤
            TtyQueue.room { world.tty.writeQ with
              tail := world.tty.writeQ.head } :=
          Echoes.room_le valid rfl
        simp only [TtyQueue.full, beq_eq_false_iff_ne] at place ⊢
        exact Nat.ne_of_gt
          (Nat.lt_of_lt_of_le (Nat.pos_of_ne_zero place) room)
      · rw [TtyAction.leavesWrite, if_pos isDriver]
        exact List.nil_prefix
  | serial =>
      refine ⟨sound, List.prefix_rfl, ?_, List.prefix_rfl⟩
      rw [TtyAction.leavesWrite, isDriver]
      exact List.prefix_rfl

theorem step {action : TtyAction} (sound : Sound world)
    (allowed : Roomy world action)
    (steps : terminal.step world action = some next) :
    Sound next ∧ Lossless action world.tty next.tty := by
  cases action with
  | cook => exact sound.cook allowed steps
  | receive bytes =>
      simp only [terminal, Option.some.injEq] at steps
      rw [← steps]
      obtain ⟨intact, more⟩ := sound.readQ.offer sound.readQ.valid.1
        (Nat.le_refl _)
      exact ⟨⟨intact, sound.writeQ, sound.secondary, sound.place⟩, more,
        List.prefix_rfl, List.prefix_rfl⟩
  | respond =>
      simp only [terminal, Option.some.injEq] at steps
      rw [← steps]
      exact sound.respond allowed
  | transmit =>
      obtain ⟨tty, sends, rfl⟩ := Option.map_eq_some_iff.mp steps
      unfold Tty.transmit at sends
      split at sends
      · cases sends
      · rename_i some
        rw [← Option.some.inj sends]
        exact sound.transmit (by simpa using some)
  | ioctl command given =>
      simp only [terminal, Option.some.injEq] at steps
      rw [← steps]
      refine ⟨⟨?_, sound.writeQ, sound.secondary, sound.place⟩, ?_,
        List.prefix_rfl, List.prefix_rfl⟩
      · unfold Tty.ioctl
        dsimp only
        split
        · exact sound.readQ.flush
        · exact sound.readQ
      · unfold Tty.ioctl TtyAction.leavesRead
        dsimp only
        split
        · exact List.nil_prefix
        · exact List.prefix_rfl
  | readCall nr =>
      have same := readCall_same steps
      refine ⟨sound.same same, ?_⟩
      rw [same.1]
      exact ⟨List.prefix_rfl, List.prefix_rfl, List.prefix_rfl⟩
  | readTurn =>
      have same := readTurn_same steps
      refine ⟨sound.same same, ?_⟩
      rw [same.1]
      exact ⟨List.prefix_rfl, List.prefix_rfl, List.prefix_rfl⟩
  | readSignal =>
      have same := readSignal_same steps
      refine ⟨sound.same same, ?_⟩
      rw [same.1]
      exact ⟨List.prefix_rfl, List.prefix_rfl, List.prefix_rfl⟩
  | readTake => exact sound.readTake (readTake_same steps)
  | writeCheck =>
      simp only [terminal, TtyWorld.writeCheck] at steps
      split at steps
      · cases steps
      · rename_i room
        rw [← Option.some.inj steps]
        exact ⟨⟨sound.readQ, sound.writeQ, sound.secondary,
          fun _ => Bool.not_eq_true _ ▸ room⟩, List.prefix_rfl,
            List.prefix_rfl, List.prefix_rfl⟩
  | writePut c =>
      simp only [terminal, TtyWorld.writePut] at steps
      split at steps
      · rename_i checked
        have room := sound.place checked
        rw [← Option.some.inj steps]
        have more := @chars_putch world.tty.writeQ c sound.writeQ.valid room
        refine ⟨⟨sound.readQ, sound.writeQ.putch room, sound.secondary, ?_⟩,
          List.prefix_rfl, ?_, List.prefix_rfl⟩
        · simp
        · exact ⟨[c], more.symm⟩
      · cases steps
  | write =>
      simp only [terminal, Option.some.injEq] at steps
      rw [← steps]
      exact sound.write

end Sound

theorem boot_sound (driver : Driver) (termios : Termios)
    (stray : Int → Bool) (port : Nat) :
    Sound (TtyWorld.boot driver termios stray port) := by
  have intact (data : Nat) : Intact (TtyQueue.boot data) :=
    ⟨boot_valid data, rfl⟩
  exact ⟨intact port, intact port, intact 0, nofun⟩

/-- In every run whose steps all find room for what they echo, no `PUTCH`
finds a queue full, and no step loses what is queued and not taken. -/
theorem queues_intact {driver : Driver} {termios : Termios}
    {stray : Int → Bool} {port : Nat} {world : TtyWorld}
    (reached : terminal.Reachable Roomy
      (TtyWorld.boot driver termios stray port) world) :
    world.tty.readQ.overrun = false ∧ world.tty.writeQ.overrun = false ∧
      world.tty.secondary.overrun = false ∧
      ∀ action next, Roomy world action →
        terminal.step world action = some next →
          Lossless action world.tty next.tty := by
  have sound : Sound world := reached.invariant
    (boot_sound driver termios stray port)
    (fun _ _ _ sound allowed steps => (sound.step allowed steps).1)
  exact ⟨sound.readQ.sound, sound.writeQ.sound, sound.secondary.sound,
    fun _ _ allowed steps => (sound.step allowed steps).2⟩

section Witness

/-- A serial line with echo. -/
def echoingBoot : TtyWorld :=
  .boot .serial { serialTermios with lflag := eCHO } (fun _ => false) 0x3f8

/-- `tty_write` fills the queue of a line that sends nothing, and a character
is received. -/
def overrunning : List TtyAction :=
  (List.replicate 1023 [.writeCheck, .writePut 120]).flatten ++
    [.receive [97], .cook]

/-- The echo empties the whole queue. -/
theorem queues_overrun :
    ∃ world, terminal.run Machine.anything echoingBoot overrunning =
        some world ∧
      world.tty.writeQ.overrun = true ∧ world.tty.writeQ.chars = [] := by
  have ran : (terminal.run Machine.anything echoingBoot overrunning).map
      (fun world => (world.tty.writeQ.overrun,
        world.tty.writeQ.chars)) = some (true, []) := by
    decide +kernel
  obtain ⟨world, isWorld, isPair⟩ := Option.map_eq_some_iff.mp ran
  obtain ⟨isOverrun, isChars⟩ := Prod.mk.inj isPair
  exact ⟨world, isWorld, isOverrun, isChars⟩

instance (world : TtyWorld) (action : TtyAction) :
    Decidable (Roomy world action) :=
  match action with
  | .cook => inferInstanceAs (Decidable (_ ≤ _))
  | .respond => inferInstanceAs (Decidable (_ ≤ _))
  | .receive _ => .isTrue trivial
  | .transmit => .isTrue trivial
  | .ioctl _ _ => .isTrue trivial
  | .readCall _ => .isTrue trivial
  | .readTurn => .isTrue trivial
  | .readTake => .isTrue trivial
  | .readSignal => .isTrue trivial
  | .writeCheck => .isTrue trivial
  | .writePut _ => .isTrue trivial
  | .write => .isTrue trivial

/-- A newline is echoed while `tty_write` has found a place. -/
def roomyRun : List TtyAction :=
  [.writeCheck, .receive [10], .cook, .writePut 120]

/-- The echo and the character are in the queue, and the first of them may be
sent without a loss. -/
theorem queues_intact_echoed :
    ∃ world, terminal.run Roomy echoingBoot roomyRun = some world ∧
      world.tty.writeQ.chars = [10, 13, 120] ∧
      world.tty.writeQ.overrun = false ∧
      ∀ next, terminal.step world .transmit = some next →
        [13, 120] <+: next.tty.writeQ.chars := by
  have ran : (terminal.run Roomy echoingBoot roomyRun).map
      (fun world => world.tty.writeQ.chars) = some [10, 13, 120] := by
    decide +kernel
  obtain ⟨world, isWorld, isChars⟩ := Option.map_eq_some_iff.mp ran
  have intact := queues_intact (Machine.reachable_of_run .start isWorld)
  refine ⟨world, isWorld, isChars, intact.2.1, ?_⟩
  intro next steps
  have kept := (intact.2.2.2 .transmit next trivial steps).writeQ
  rw [TtyAction.leavesWrite, isChars] at kept
  exact kept

end Witness

end Linux011.Chr
