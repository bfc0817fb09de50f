import Mathlib.Data.List.Infix
import Linux011.Fs.HardDiskErrors
import Linux011.Fs.Floppy

/-!
# The error handlers of the disk drivers

`bad_rw_intr` and `bad_flp_intr` count an error of the current request, may end
it, and then test the errors of the request that is the current one by then.
-/

namespace Linux011.Fs

open Machines

/-- A call of an error handler: the current request, the one whose errors are
tested at its end, and whether a flag is raised for them. -/
structure ErrorCall where
  failed : Option Nat
  tested : Option Nat
  raised : Bool
  deriving DecidableEq

/-- `CURRENT` is never `NULL`, and a flag is raised for the errors of the
request that failed only. -/
structure ErrorCall.Clean (call : ErrorCall) : Prop where
  failed : call.failed ≠ none
  tested : call.tested ≠ none
  own : call.raised = true → call.tested = call.failed

/-! ## The hard disk -/

namespace Hd

variable {hd : Hd} {wild slot : Nat} {rest : List Nat}

/-- The first half of `bad_rw_intr`; none where there is no current request. -/
def countError (hd : Hd) : Option Hd :=
  match hd.queue with
  | [] => none
  | slot :: _ =>
      let request := hd.requests slot
      let hd := hd.setRequest slot { request with errors := request.errors + 1 }
      some (if maxErrors ≤ request.errors + 1 then hd.endRequest false else hd)

/-- The call of `bad_rw_intr` in this state. -/
def errorCall (wild : Nat) (hd : Hd) : ErrorCall where
  failed := hd.queue.head?
  tested := hd.countError.bind fun counted => counted.queue.head?
  raised := hd.countError.any fun counted =>
    maxErrors / 2 < counted.currentErrors wild

/-- The errors stay below the limit, or another request waits. -/
def Spared (hd : Hd) : Prop :=
  ∃ slot rest, hd.queue = slot :: rest ∧
    ((hd.requests slot).errors + 1 < maxErrors ∨ rest ≠ [])

theorem countError_few (isQueue : hd.queue = slot :: rest)
    (few : (hd.requests slot).errors + 1 < maxErrors) :
    ∃ counted, hd.countError = some counted ∧ counted.queue = slot :: rest := by
  unfold countError
  rw [isQueue]
  dsimp only
  rw [if_neg (by omega)]
  exact ⟨_, rfl, isQueue⟩

theorem countError_many (isQueue : hd.queue = slot :: rest)
    (nodup : hd.queue.Nodup)
    (many : maxErrors ≤ (hd.requests slot).errors + 1) :
    ∃ counted, hd.countError = some counted ∧
      Leaves hd counted slot rest false := by
  have counted := stays_setRequest isQueue nodup
    { hd.requests slot with errors := (hd.requests slot).errors + 1 } 1
    (Nat.le_refl _)
  have left := endRequest_leaves (counted.queue.trans isQueue)
    (counted.queue ▸ nodup) false
  refine ⟨_, ?_, counted.leaves left⟩
  unfold countError
  rw [isQueue]
  dsimp only
  rw [if_pos many]

theorem errorCall_clean_iff (nodup : hd.queue.Nodup)
    (unfailed : hd.Unfailed) :
    (hd.errorCall wild).Clean ↔ hd.Spared := by
  cases isQueue : hd.queue with
  | nil =>
      constructor
      · intro clean
        have failed := clean.failed
        unfold errorCall at failed
        rw [isQueue] at failed
        exact absurd rfl failed
      · rintro ⟨slot, rest, isCons, _⟩
        cases isQueue.symm.trans isCons
  | cons slot rest =>
      have isFailed : (hd.errorCall wild).failed = some slot := by
        unfold errorCall
        rw [isQueue]
        rfl
      by_cases few : (hd.requests slot).errors + 1 < maxErrors
      · obtain ⟨counted, isCounted, queue⟩ := countError_few isQueue few
        have isTested : (hd.errorCall wild).tested = some slot := by
          unfold errorCall
          rw [isCounted]
          exact congrArg List.head? queue
        constructor
        · intro _
          exact ⟨slot, rest, isQueue, .inl few⟩
        · intro _
          constructor <;> simp [isFailed, isTested]
      · obtain ⟨counted, isCounted, leaves⟩ :=
          countError_many isQueue nodup (Nat.le_of_not_lt few)
        have isTested : (hd.errorCall wild).tested = rest.head? := by
          unfold errorCall
          rw [isCounted]
          exact congrArg List.head? leaves.after
        constructor
        · intro clean
          refine ⟨slot, rest, isQueue, .inr ?_⟩
          rintro rfl
          exact clean.tested isTested
        · rintro ⟨first, others, isCons, spared⟩
          obtain ⟨rfl, rfl⟩ := List.cons.inj (isQueue.symm.trans isCons)
          cases rest with
          | nil =>
              rcases spared with below | waits
              · exact absurd below few
              · exact absurd rfl waits
          | cons next others =>
              -- the next request has had no errors, so no flag is raised
              have none := unfailed.current leaves leaves.after
              have errors : counted.currentErrors wild = 0 := by
                unfold currentErrors
                rw [leaves.after]
                exact none
              have silent : (hd.errorCall wild).raised = false := by
                unfold errorCall
                simp [isCounted, errors]
              constructor <;> simp [isFailed, isTested, silent]

end Hd

/-- The state in which a step calls `bad_rw_intr`, and what it reads there
through `NULL`. -/
def HdAction.fails (hd : Hd) (action : HdAction) : Option (Hd × Nat) :=
  match hd.control, action with
  | .resting, .interrupt false wild =>
      match hd.work, hd.doHd with
      | .idle, _ => none
      | _, none => none
      | _, some _ => some ({ hd.serve false with doHd := none }, wild)
  | .polling, .poll false wild => some ({ hd with work := .idle }, wild)
  | _, _ => none

/-- The step is the call and what `do_hd_request` does after it. -/
theorem HdAction.fails_step {disks : Disks} {hd failed : Hd} {wild : Nat}
    {action : HdAction} (fails : action.fails hd = some (failed, wild)) :
    failed.queue = hd.queue ∧ failed.requests = hd.requests ∧
      (hardDisk disks).step hd action =
        (failed.badRwIntr wild).map Hd.restart := by
  unfold HdAction.fails at fails
  split at fails
  · rename_i wild' control
    split at fails
    · cases fails
    · cases fails
    · rename_i handler handled notIdle
      cases fails
      obtain ⟨queue, _, _, requests, _⟩ := @Hd.serve_same hd false
      have steps : (hardDisk disks).step hd (.interrupt false wild) =
          hd.interrupt false wild := by
        dsimp only [hardDisk]
        rw [control]
      refine ⟨queue, requests, ?_⟩
      rw [steps]
      unfold Hd.interrupt
      rw [handled]
      split
      · rename_i isIdle
        exact absurd isIdle notIdle
      · dsimp only
        generalize ({ hd.serve false with doHd := none } : Hd) = failed
        cases isQueue : failed.queue with
        | nil =>
            cases handler <;>
              simp [Hd.readIntr, Hd.writeIntr, Hd.recalIntr, Hd.badRwIntr,
                isQueue]
        | cons slot rest =>
            cases handler with
            | readIntr => exact Hd.readIntr_bad isQueue _ _
            | writeIntr => exact Hd.writeIntr_bad isQueue _
            | recalIntr => rfl
  · rename_i wild' control
    cases fails
    have steps : (hardDisk disks).step hd (.poll false wild) =
        hd.polled false wild := by
      dsimp only [hardDisk]
      rw [control]
    refine ⟨rfl, rfl, ?_⟩
    rw [steps]
    unfold Hd.polled
    split
    · rename_i isEmpty
      simp [Hd.badRwIntr, isEmpty]
    · rfl
  · cases fails

/-! ## The floppy disk -/

namespace Fd

variable {fd next : Fd} {wild slot : Nat} {rest : List Nat}

/-- The call of `bad_flp_intr` in this state, which always raises a flag. -/
def errorCall (fd : Fd) : ErrorCall where
  failed := fd.queue.head?
  tested := fd.countError.bind fun counted => counted.queue.head?
  raised := fd.countError.isSome

/-- The errors stay within the limit. -/
def Spared (fd : Fd) : Prop :=
  ∃ slot rest, fd.queue = slot :: rest ∧
    (fd.requests slot).errors + 1 ≤ maxErrors

theorem countError_few (isQueue : fd.queue = slot :: rest)
    (few : (fd.requests slot).errors + 1 ≤ maxErrors) :
    ∃ counted, fd.countError = some counted ∧ counted.queue = slot :: rest := by
  unfold countError
  rw [isQueue]
  dsimp only
  rw [if_neg (by omega)]
  exact ⟨_, rfl, isQueue⟩

theorem countError_many (isQueue : fd.queue = slot :: rest)
    (many : maxErrors < (fd.requests slot).errors + 1) :
    ∃ counted, fd.countError = some counted ∧ counted.queue = rest := by
  unfold countError endRequest
  rw [isQueue]
  dsimp only [floppyDeselect, setRequest]
  rw [if_pos many, isQueue]
  exact ⟨_, rfl, rfl⟩

theorem errorCall_clean_iff (nodup : fd.queue.Nodup) :
    fd.errorCall.Clean ↔ fd.Spared := by
  cases isQueue : fd.queue with
  | nil =>
      constructor
      · intro clean
        have failed := clean.failed
        unfold errorCall at failed
        rw [isQueue] at failed
        exact absurd rfl failed
      · rintro ⟨slot, rest, isCons, _⟩
        cases isQueue.symm.trans isCons
  | cons slot rest =>
      have isFailed : fd.errorCall.failed = some slot := by
        unfold errorCall
        rw [isQueue]
        rfl
      by_cases few : (fd.requests slot).errors + 1 ≤ maxErrors
      · obtain ⟨counted, isCounted, queue⟩ := countError_few isQueue few
        have isTested : fd.errorCall.tested = some slot := by
          unfold errorCall
          rw [isCounted]
          exact congrArg List.head? queue
        constructor
        · intro _
          exact ⟨slot, rest, isQueue, few⟩
        · intro _
          constructor <;> simp [isFailed, isTested]
      · obtain ⟨counted, isCounted, queue⟩ :=
          countError_many isQueue (Nat.lt_of_not_le few)
        have isTested : fd.errorCall.tested = rest.head? := by
          unfold errorCall
          rw [isCounted]
          exact congrArg List.head? queue
        have raises : fd.errorCall.raised = true := by
          unfold errorCall
          rw [isCounted]
          rfl
        constructor
        · intro clean
          -- the flag would be for the request again, further behind
          have again : rest.head? = some slot := by
            rw [← isTested, ← isFailed]
            exact clean.own raises
          have behind : slot ∈ rest := List.mem_of_head? again
          rw [isQueue] at nodup
          exact absurd behind (List.nodup_cons.mp nodup).1
        · rintro ⟨first, others, isCons, below⟩
          obtain ⟨rfl, rfl⟩ := List.cons.inj (isQueue.symm.trans isCons)
          exact absurd below few

/-! ## The line of the floppy disk -/

@[simp] theorem outputByte_queue (byte : Nat) :
    (fd.outputByte byte).queue = fd.queue := by
  unfold outputByte
  split
  · rfl
  · split <;> rfl

@[simp] theorem result_queue : fd.result.2.queue = fd.queue := by
  unfold result
  split
  · rfl
  · dsimp only
    split <;> rfl

@[simp] theorem unlessReset_queue : fd.unlessReset.queue = fd.queue := by
  unfold unlessReset
  split <;> rfl

@[simp] theorem specify_queue : fd.specify.queue = fd.queue := by
  unfold specify
  dsimp only
  split <;> simp

theorem motorTimer_queue (nr : Nat) : (fd.motorTimer nr).queue = fd.queue := by
  unfold motorTimer
  dsimp only
  split
  · rfl
  · split
    · rfl
    · split <;> rfl

theorem doFloppyTimer_queue : fd.doFloppyTimer.queue = fd.queue := by
  unfold doFloppyTimer
  simp [motorTimer_queue]

theorem endRequest_queue {uptodate : Bool}
    (ends : fd.endRequest uptodate = some next) : next.queue <:+ fd.queue := by
  unfold endRequest at ends
  split at ends <;> rename_i isQueue
  · cases ends
  · cases ends
    rw [isQueue]
    exact List.suffix_cons _ _

theorem endRequest_restart_queue {uptodate : Bool}
    (ends : (fd.floppyDeselect.endRequest uptodate).map restart = some next) :
    next.queue <:+ fd.queue := by
  obtain ⟨ended, isEnded, rfl⟩ := Option.map_eq_some_iff.mp ends
  have suffix := endRequest_queue isEnded
  exact suffix

theorem setupRwFloppy_queue (ends : fd.setupRwFloppy = some next) :
    next.queue = fd.queue := by
  unfold setupRwFloppy at ends
  split at ends
  · cases ends
  · cases ends
    simp

theorem transfer_queue (ends : fd.transfer = some next) :
    next.queue = fd.queue := by
  unfold transfer at ends
  dsimp only at ends
  split at ends
  · cases ends
    exact specify_queue
  · split at ends
    · exact (setupRwFloppy_queue ends).trans specify_queue
    · cases ends
      split <;> simp

theorem addTimer_queue {timer : FdTimer}
    (ends : fd.addTimer timer = some next) : next.queue = fd.queue := by
  unfold addTimer at ends
  split at ends
  · cases ends
    rfl
  · cases ends

theorem floppyOnInterrupt_queue (ends : fd.floppyOnInterrupt = some next) :
    next.queue = fd.queue := by
  unfold floppyOnInterrupt at ends
  dsimp only at ends
  split at ends
  · have queue := addTimer_queue ends
    exact queue
  · have queue := transfer_queue ends
    exact queue

theorem expire_queue {index : Nat} (ends : fd.expire index = some next) :
    next.queue = fd.queue := by
  unfold expire at ends
  dsimp only at ends
  split at ends
  · cases ends
  · have queue := floppyOnInterrupt_queue ends
    exact queue
  · have queue := transfer_queue ends
    exact queue

theorem rwInterrupt_queue (ends : fd.rwInterrupt = some next) :
    next.queue <:+ fd.queue := by
  have same : fd.result.2.queue = fd.queue := result_queue
  unfold rwInterrupt at ends
  dsimp only at ends
  split at ends
  · split at ends
    · exact same ▸ endRequest_restart_queue ends
    · cases ends
      exact same ▸ List.suffix_refl _
  · exact same ▸ endRequest_restart_queue ends

theorem seekInterrupt_queue (ends : fd.seekInterrupt = some next) :
    next.queue = fd.queue := by
  unfold seekInterrupt at ends
  dsimp only at ends
  split at ends
  · cases ends
    simp
  · exact (setupRwFloppy_queue ends).trans (by simp)

theorem interrupt_queue (ends : fd.interrupt = some next) :
    next.queue <:+ fd.queue := by
  unfold interrupt at ends
  dsimp only at ends
  split at ends
  · cases ends
    unfold unexpectedFloppyInterrupt
    dsimp only
    split <;> simp
  · have suffix := rwInterrupt_queue ends
    exact suffix
  · have queue := seekInterrupt_queue ends
    rw [queue]
  · cases ends
    unfold recalInterrupt restart
    dsimp only
    split <;> simp
  · cases ends
    unfold resetInterrupt restart
    simp

theorem doFdRequest_queue : fd.doFdRequest.queue = fd.queue := by
  unfold doFdRequest
  dsimp only
  split
  · rfl
  · split
    · unfold recalibrateFloppy
      simp
    · rfl

theorem repeatRequest_queue {beyond : Nat → FloppyStruct}
    (ends : fd.repeatRequest beyond = some next) :
    next.queue <:+ fd.queue := by
  unfold repeatRequest at ends
  split at ends
  · cases ends
    exact List.suffix_refl _
  dsimp only at ends
  split at ends
  · cases ends
  split at ends
  · have suffix := endRequest_queue ends
    exact suffix
  split at ends
  · cases ends
  split at ends
  · cases ends
  split at ends
  · have queue := floppyOnInterrupt_queue ends
    rw [queue]
    exact List.suffix_refl _
  · have queue := addTimer_queue ends
    rw [queue]
    exact List.suffix_refl _

theorem countError_queue (ends : fd.countError = some next) :
    next.queue <:+ fd.queue := by
  unfold countError at ends
  split at ends
  · cases ends
  · dsimp only at ends
    split at ends
    · have suffix := endRequest_queue ends
      exact suffix
    · cases ends
      exact List.suffix_refl _

theorem badFlpIntr_queue (ends : fd.badFlpIntr wild = some next) :
    next.queue <:+ fd.queue := by
  obtain ⟨counted, isCounted, rfl⟩ := Option.map_eq_some_iff.mp ends
  have suffix := countError_queue isCounted
  split <;> exact suffix

theorem addRequest_nodup {request : HdRequest} (nodup : fd.queue.Nodup)
    (isFree : slot ∉ fd.queue) : (fd.addRequest slot request).queue.Nodup := by
  unfold addRequest
  dsimp only [setRequest]
  split <;> rename_i isQueue
  · exact List.nodup_singleton slot
  · rename_i tmp rest
    have isQueue : fd.queue = tmp :: rest := isQueue
    refine (((elevator_perm _ slot tmp rest).cons tmp).trans
      (List.Perm.swap slot tmp rest)).nodup_iff.mpr ?_
    rw [List.nodup_cons, ← isQueue]
    exact ⟨isFree, nodup⟩

end Fd

/-- A request is in the line once. -/
theorem floppyDisk_nodup {beyond : Nat → FloppyStruct} {fd next : Fd}
    {action : FdAction} (nodup : fd.queue.Nodup)
    (steps : (floppyDisk beyond).step fd action = some next) :
    next.queue.Nodup := by
  have kept (suffix : next.queue <:+ fd.queue) : next.queue.Nodup :=
    nodup.sublist suffix.sublist
  have same (equal : next.queue = fd.queue) : next.queue.Nodup :=
    equal ▸ nodup
  dsimp only [floppyDisk] at steps
  split at steps
  · split at steps
    · cases steps
    · rename_i isFree
      cases steps
      exact Fd.addRequest_nodup nodup isFree
  · have queue := Fd.expire_queue steps
    exact same queue
  · have suffix := Fd.interrupt_queue steps
    exact kept suffix
  · cases steps
    exact same Fd.doFloppyTimer_queue
  · rename_i fdc _
    cases steps
    exact same (@Fd.doFdRequest_queue { fd with fdc })
  · have suffix := Fd.repeatRequest_queue steps
    exact kept suffix
  · obtain ⟨failed, isFailed, rfl⟩ := Option.map_eq_some_iff.mp steps
    have suffix := Fd.badFlpIntr_queue isFailed
    exact kept suffix
  · cases steps

/-- The driver before its first request, whatever else it was left with. -/
structure Fd.Begins (fd : Fd) : Prop where
  queue : fd.queue = []
  control : fd.control = .resting

/-! ## Runs -/

/-- In every run of either driver, a call of its error handler is clean just
where the errors stay below the limit, or, for the hard disk, another request
waits. -/
theorem errorHandlers_clean_iff (disks : Disks)
    (beyond : Nat → FloppyStruct) :
    (∀ (start hd failed : Hd) (action : HdAction) (wild : Nat),
      start.Begins →
      (hardDisk disks).Reachable Machine.anything start hd →
      action.fails hd = some (failed, wild) →
        (hardDisk disks).step hd action =
            (failed.badRwIntr wild).map Hd.restart ∧
          ((failed.errorCall wild).Clean ↔ hd.Spared)) ∧
    ∀ start fd : Fd, start.Begins →
      (floppyDisk beyond).Reachable Machine.anything start fd →
      fd.control = .failing →
        (∀ wild, (floppyDisk beyond).step fd (.fail wild) =
            (fd.badFlpIntr wild).map Fd.restart) ∧
          (fd.errorCall.Clean ↔ fd.Spared) := by
  constructor
  · intro start hd failed action wild begins reached fails
    obtain ⟨steady, unfailed⟩ := @Machine.Reachable.invariant _ _ _ _ _
      (fun hd : Hd => hd.Steady disks ∧ hd.Unfailed) hd reached
      ⟨begins.steady, begins.unfailed⟩ fun _ _ _ before _ steps =>
        ⟨hardDisk_steady before.1 steps,
          hardDisk_unfailed before.1 before.2 steps⟩
    obtain ⟨queue, requests, steps⟩ :=
      @HdAction.fails_step disks hd failed wild action fails
    refine ⟨steps, ?_⟩
    have clean : (failed.errorCall wild).Clean ↔ failed.Spared := by
      apply Hd.errorCall_clean_iff
      · rw [queue]
        exact steady.orderly.nodup
      · unfold Hd.Unfailed
        rw [queue, requests]
        exact unfailed
    rw [clean]
    unfold Hd.Spared
    rw [queue, requests]
  · intro start fd begins reached control
    have nodup := @Machine.Reachable.invariant _ _ _ _ _
      (fun fd : Fd => fd.queue.Nodup) fd reached
      (begins.queue ▸ List.nodup_nil) fun _ _ _ before _ steps =>
        floppyDisk_nodup before steps
    refine ⟨?_, Fd.errorCall_clean_iff nodup⟩
    intro wild
    dsimp only [floppyDisk]
    rw [control]

section Witness

/-- The driver as it starts. -/
def idleFloppy : Fd where
  requests := fun _ => hdRequestOf 540 .read 0 0 0
  queue := []
  lock := fun _ => false
  uptodate := fun _ => false
  recalibrate := false
  reset := false
  seek := false
  curSpec1 := -1
  curRate := -1
  floppy := ⟨0, 0, 0, 0, 0, 0, 0, 0⟩
  currentDrive := 0
  sector := 0
  head := 0
  track := 0
  seekTrack := 0
  currentTrack := 255
  command := 0
  selected := false
  currentDor := 0x0C
  monTimer := fun _ => 0
  moffTimer := fun _ => 0
  replyBuffer := fun _ => 0
  doFloppy := none
  timers := []
  control := .resting
  fdc := ⟨0, [], false⟩
  sent := []

/-- A controller that takes every byte and has no result to give. -/
def silent : Fdc := ⟨12, [], true⟩

/-- A read of a diskette of 1.44 MB, up to the first failed seek, with another
read behind it. -/
def firstFailure : List FdAction :=
  [.add 31 540 .read 0 1 8192, .proceed silent, .proceed silent,
    .add 30 540 .read 2 2 9216, .expire 0 silent, .interrupt silent]

theorem errorHandlers_clean_iff_first :
    (∃ hd failed, (hardDisk (oneDisk 63)).run Machine.anything idleDisk
        [.add 31 769 .read 0 1 8192, .proceed] = some hd ∧
      HdAction.fails hd (.interrupt false 0) = some (failed, 0) ∧
      (failed.errorCall 0).Clean) ∧
    ∃ fd, (floppyDisk fun _ => idleFloppy.floppy).run Machine.anything
        idleFloppy firstFailure = some fd ∧
      fd.control = .failing ∧ fd.errorCall.Clean := by
  constructor
  · obtain ⟨hd, failed, runs, fails, queue, none⟩ :
        ∃ hd failed, (hardDisk (oneDisk 63)).run Machine.anything idleDisk
            [.add 31 769 .read 0 1 8192, .proceed] = some hd ∧
          HdAction.fails hd (.interrupt false 0) = some (failed, 0) ∧
          hd.queue = [31] ∧ (hd.requests 31).errors = 0 :=
      ⟨_, _, rfl, rfl, rfl, rfl⟩
    refine ⟨hd, failed, runs, fails, ?_⟩
    have reached := Machine.reachable_of_run .start runs
    apply ((errorHandlers_clean_iff (oneDisk 63) fun _ => idleFloppy.floppy).1
      idleDisk hd failed _ 0 idleDisk_begins reached fails).2.mpr
    exact ⟨31, [], queue, .inl (by rw [none]; decide)⟩
  · obtain ⟨fd, runs, control, queue, none⟩ :
        ∃ fd, (floppyDisk fun _ => idleFloppy.floppy).run Machine.anything
            idleFloppy firstFailure = some fd ∧
          fd.control = .failing ∧ fd.queue = [31, 30] ∧
          (fd.requests 31).errors = 0 :=
      ⟨_, rfl, rfl, rfl, rfl⟩
    refine ⟨fd, runs, control, ?_⟩
    have reached := Machine.reachable_of_run .start runs
    apply ((errorHandlers_clean_iff (oneDisk 63) fun _ => idleFloppy.floppy).2
      idleFloppy fd ⟨rfl, rfl⟩ reached control).2.mpr
    exact ⟨31, [30], queue, by rw [none]; decide⟩

/-- The next failure of a request, after a recalibration. -/
def failAgain : List FdAction :=
  [.fail 0, .proceed silent, .interrupt ⟨12, [0x20, 0], true⟩, .proceed silent,
    .proceed silent, .expire 0 silent, .interrupt silent]

/-- The next failure of a request, after a reset. -/
def failAfterReset : List FdAction :=
  [.fail 0, .proceed silent, .interrupt silent, .proceed silent,
    .interrupt ⟨12, [0x20, 0], true⟩, .proceed silent, .proceed silent,
    .expire 0 silent, .interrupt silent]

set_option maxRecDepth 20000 in
/-- The last error of a lone request is tested through `NULL`.  On the floppy,
with another request behind, a flag is raised for that one. -/
theorem errorHandlers_unclean :
    (∃ hd failed, (hardDisk (oneDisk 63)).Reachable Machine.anything idleDisk
        hd ∧
      HdAction.fails hd (.interrupt false 0) = some (failed, 0) ∧
      (failed.errorCall 0).tested = none ∧ ¬(failed.errorCall 0).Clean) ∧
    ∃ fd, (floppyDisk fun _ => idleFloppy.floppy).Reachable Machine.anything
        idleFloppy fd ∧
      fd.control = .failing ∧ fd.errorCall = ⟨some 31, some 30, true⟩ ∧
      ¬fd.errorCall.Clean := by
  constructor
  · obtain ⟨hd, failed, runs, fails, tested⟩ :
        ∃ hd failed, (hardDisk (oneDisk 63)).run Machine.anything idleDisk
            (.add 31 769 .read 0 1 8192 :: .proceed ::
              (List.replicate 6 [.interrupt false 0, .proceed]).flatten) =
                some hd ∧
          HdAction.fails hd (.interrupt false 0) = some (failed, 0) ∧
          (failed.errorCall 0).tested = none :=
      ⟨_, _, rfl, rfl, rfl⟩
    exact ⟨hd, failed, Machine.reachable_of_run .start runs, fails, tested,
      fun clean => clean.tested tested⟩
  · obtain ⟨fd, runs, control, call⟩ :
        ∃ fd, (floppyDisk fun _ => idleFloppy.floppy).run Machine.anything
            idleFloppy (firstFailure ++ (List.replicate 4 failAgain).flatten ++
              (List.replicate 4 failAfterReset).flatten) = some fd ∧
          fd.control = .failing ∧
          fd.errorCall = ⟨some 31, some 30, true⟩ :=
      ⟨_, rfl, rfl, rfl⟩
    refine ⟨fd, Machine.reachable_of_run .start runs, control, call, ?_⟩
    rw [call]
    intro clean
    exact absurd (clean.own rfl) (by decide)

end Witness

end Linux011.Fs
