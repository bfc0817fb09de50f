import Linux011.Fs.HardDiskRuns

/-!
# Which requests the hard disk driver gives up

A request is given up for its errors or for its place.  Its place is looked at
again when it is tried again, and is then that of the sectors not yet done.
-/

namespace Linux011.Fs

open Machines

namespace Hd

variable {disks : Disks} {hd middle next : Hd} {slot wild : Nat}
  {rest : List Nat} {faults : Nat}

/-! ## What a step does to the line of requests -/

/-- The same requests wait, and the current one has had `faults` errors more,
at most. -/
structure Stays (hd next : Hd) (faults : Nat) : Prop where
  queue : next.queue = hd.queue
  ended : next.ended = hd.ended
  made : next.made = hd.made
  current : ∀ slot rest, hd.queue = slot :: rest →
    (next.requests slot).errors ≤ (hd.requests slot).errors + faults
  waiting : ∀ slot rest, hd.queue = slot :: rest → ∀ other ∈ rest,
    (next.requests other).errors = (hd.requests other).errors

/-- The current request has ended. -/
structure Leaves (hd next : Hd) (slot : Nat) (rest : List Nat)
    (uptodate : Bool) : Prop where
  queue : hd.queue = slot :: rest
  after : next.queue = rest
  ended : ∃ service, next.ended = hd.ended ++ [service] ∧
    service.made = hd.made slot ∧ service.uptodate = uptodate
  waiting : ∀ other ∈ rest,
    (next.requests other).errors = (hd.requests other).errors

theorem stays_of_eq (queue : next.queue = hd.queue)
    (ended : next.ended = hd.ended) (made : next.made = hd.made)
    (requests : next.requests = hd.requests) : Stays hd next 0 where
  queue := queue
  ended := ended
  made := made
  current := by
    intro slot _ _
    rw [requests]
    exact Nat.le_refl _
  waiting := by
    intro _ _ _ other _
    rw [requests]

theorem Stays.trans {more : Nat} (first : Stays hd middle faults)
    (second : Stays middle next more) : Stays hd next (faults + more) where
  queue := second.queue.trans first.queue
  ended := second.ended.trans first.ended
  made := second.made.trans first.made
  current := by
    intro slot rest isQueue
    have before := first.current slot rest isQueue
    have after := second.current slot rest (first.queue.trans isQueue)
    omega
  waiting := by
    intro slot rest isQueue other member
    exact (second.waiting slot rest (first.queue.trans isQueue) other
      member).trans (first.waiting slot rest isQueue other member)

/-- What comes next leaves the line alone. -/
theorem Stays.same (first : Stays hd middle faults)
    (queue : next.queue = middle.queue) (ended : next.ended = middle.ended)
    (made : next.made = middle.made)
    (requests : next.requests = middle.requests) : Stays hd next faults :=
  first.trans (stays_of_eq queue ended made requests)

theorem Stays.leaves {uptodate : Bool} (first : Stays hd middle faults)
    (second : Leaves middle next slot rest uptodate) :
    Leaves hd next slot rest uptodate where
  queue := first.queue.symm.trans second.queue
  after := second.after
  ended := by
    obtain ⟨service, ended, made, isEnd⟩ := second.ended
    rw [first.ended] at ended
    rw [first.made] at made
    exact ⟨service, ended, made, isEnd⟩
  waiting := by
    intro other member
    exact (second.waiting other member).trans (first.waiting slot rest
      (first.queue.symm.trans second.queue) other member)

theorem Leaves.stays {uptodate : Bool}
    (first : Leaves hd middle slot rest uptodate)
    (queue : next.queue = middle.queue) (ended : next.ended = middle.ended)
    (requests : next.requests = middle.requests) :
    Leaves hd next slot rest uptodate where
  queue := first.queue
  after := queue.trans first.after
  ended := by
    rw [ended]
    exact first.ended
  waiting := by
    rw [requests]
    exact first.waiting

theorem stays_setRequest (isQueue : hd.queue = slot :: rest)
    (nodup : hd.queue.Nodup) (request : HdRequest) (faults : Nat)
    (errors : request.errors ≤ (hd.requests slot).errors + faults) :
    Stays hd (hd.setRequest slot request) faults where
  queue := rfl
  ended := rfl
  made := rfl
  current := by
    intro first others isCons
    rw [isQueue] at isCons
    obtain ⟨rfl, rfl⟩ := List.cons.inj isCons
    have own : (hd.setRequest slot request).requests slot = request :=
      if_pos rfl
    rw [own]
    exact errors
  waiting := by
    intro first others isCons other member
    rw [isQueue] at isCons nodup
    obtain ⟨rfl, rfl⟩ := List.cons.inj isCons
    have different : other ≠ slot := by
      rintro rfl
      exact (List.nodup_cons.mp nodup).1 member
    have kept : (hd.setRequest slot request).requests other =
        hd.requests other := if_neg different
    rw [kept]

theorem endRequest_leaves (isQueue : hd.queue = slot :: rest)
    (nodup : hd.queue.Nodup) (uptodate : Bool) :
    Leaves hd (hd.endRequest uptodate) slot rest uptodate := by
  have notBehind : slot ∉ rest := by
    rw [isQueue] at nodup
    exact (List.nodup_cons.mp nodup).1
  unfold Hd.endRequest
  rw [isQueue]
  refine ⟨isQueue, rfl, ⟨_, rfl, rfl, rfl⟩, ?_⟩
  intro other member
  have different : other ≠ slot := by
    rintro rfl
    exact notBehind member
  dsimp only [setRequest]
  rw [if_neg different]

/-- What a step may come to: the current request stays, has ended well, or
has been given up for a reason. -/
inductive Comes (hd next : Hd) (faults : Nat) (reason : Nat → Prop) : Prop where
  | stays (stays : Stays hd next faults)
  | leaves (slot : Nat) (rest : List Nat) (uptodate : Bool)
      (leaves : Leaves hd next slot rest uptodate)
      (given : uptodate = false → reason slot)

/-! ## The steps -/

/-- So many errors more make the request reach the limit. -/
def WornOut (hd : Hd) (faults slot : Nat) : Prop :=
  maxErrors ≤ (hd.requests slot).errors + faults

theorem badRwIntr_comes (nodup : hd.queue.Nodup)
    (ends : hd.badRwIntr wild = some next) :
    Comes hd next 1 (hd.WornOut 1) := by
  unfold Hd.badRwIntr at ends
  cases isQueue : hd.queue with
  | nil =>
      rw [isQueue] at ends
      cases ends
  | cons slot rest =>
      rw [isQueue] at ends
      dsimp only at ends
      have counted := stays_setRequest isQueue nodup
        { hd.requests slot with errors := (hd.requests slot).errors + 1 } 1
        (Nat.le_refl _)
      generalize isAfter : (if maxErrors ≤ (hd.requests slot).errors + 1 then
        _ else _ : Hd) = after at ends
      have flagged : next.queue = after.queue ∧ next.ended = after.ended ∧
          next.made = after.made ∧ next.requests = after.requests := by
        rw [Option.some.injEq] at ends
        rw [← ends]
        split <;> exact ⟨rfl, rfl, rfl, rfl⟩
      split at isAfter <;> rename_i limit <;> subst isAfter
      · have left := endRequest_leaves (counted.queue.trans isQueue)
          (counted.queue ▸ nodup) false
        have whole := counted.leaves left
        exact .leaves slot rest false
          (whole.stays flagged.1 flagged.2.1 flagged.2.2.2) fun _ => limit
      · exact .stays (counted.same flagged.1 flagged.2.1 flagged.2.2.1
          flagged.2.2.2)

/-- A step after one that changes nothing of the line. -/
theorem Comes.after {reason : Nat → Prop} (first : Stays hd middle 0)
    (second : Comes middle next faults reason) :
    Comes hd next faults reason := by
  cases second with
  | stays stays =>
      have both := first.trans stays
      rw [Nat.zero_add] at both
      exact .stays both
  | leaves slot rest uptodate leaves given =>
      exact .leaves slot rest uptodate (first.leaves leaves) given

theorem Comes.mono {reason weaker : Nat → Prop}
    (comes : Comes hd next faults reason)
    (implies : ∀ slot, reason slot → weaker slot) :
    Comes hd next faults weaker := by
  cases comes with
  | stays stays => exact .stays stays
  | leaves slot rest uptodate leaves given =>
      exact .leaves slot rest uptodate leaves fun isBad =>
        implies slot (given isBad)

theorem Comes.map_restart {reason : Nat → Prop} {run : Option Hd}
    (each : ∀ middle, run = some middle → Comes hd middle faults reason)
    (ends : run.map restart = some next) : Comes hd next faults reason := by
  obtain ⟨middle, isMiddle, rfl⟩ := Option.map_eq_some_iff.mp ends
  cases each middle isMiddle with
  | stays stays =>
      exact .stays (stays.same rfl rfl rfl rfl)
  | leaves slot rest uptodate leaves given =>
      exact .leaves slot rest uptodate (leaves.stays rfl rfl rfl) given

theorem readIntr_comes (nodup : hd.queue.Nodup) {work : Work}
    (ends : hd.readIntr work true wild = some next) :
    Comes hd next 0 fun _ => False := by
  unfold Hd.readIntr at ends
  cases isQueue : hd.queue with
  | nil =>
      rw [isQueue] at ends
      cases ends
  | cons slot rest =>
      rw [isQueue] at ends
      dsimp only at ends
      rw [if_pos rfl] at ends
      have read : Stays hd (hd.portRead work (hd.requests slot).buffer) 0 := by
        unfold portRead
        split <;> exact stays_of_eq rfl rfl rfl rfl
      have queue := read.queue.trans isQueue
      have stored := stays_setRequest queue (read.queue ▸ nodup)
        { hd.requests slot with
          errors := 0
          buffer := (hd.requests slot).buffer + 512
          sector := ((hd.requests slot).sector + 1) % 2 ^ 32
          nrSectors := (hd.requests slot).nrSectors - 1 } 0 (Nat.zero_le _)
      have both := read.trans stored
      split at ends <;> rw [Option.some.injEq] at ends <;> subst ends
      · exact .stays (both.same rfl rfl rfl rfl)
      · have left := endRequest_leaves (both.queue.trans isQueue)
          (both.queue ▸ nodup) true
        exact .leaves slot rest true ((both.leaves left).stays rfl rfl rfl)
          nofun

theorem writeIntr_comes (nodup : hd.queue.Nodup)
    (ends : hd.writeIntr true wild = some next) :
    Comes hd next 0 fun _ => False := by
  unfold Hd.writeIntr at ends
  cases isQueue : hd.queue with
  | nil =>
      rw [isQueue] at ends
      cases ends
  | cons slot rest =>
      rw [isQueue] at ends
      dsimp only at ends
      rw [if_pos rfl] at ends
      split at ends <;> rw [Option.some.injEq] at ends <;> subst ends
      · have stored := stays_setRequest isQueue nodup
          { hd.requests slot with
            nrSectors := (hd.requests slot).nrSectors - 1
            sector := ((hd.requests slot).sector + 1) % 2 ^ 32
            buffer := (hd.requests slot).buffer + 512 } 0 (Nat.le_refl _)
        exact .stays (stored.same rfl rfl rfl rfl)
      · have stored := stays_setRequest isQueue nodup
          { hd.requests slot with
            nrSectors := (hd.requests slot).nrSectors - 1 } 0 (Nat.le_refl _)
        have left := endRequest_leaves (stored.queue.trans isQueue)
          (stored.queue ▸ nodup) true
        exact .leaves slot rest true ((stored.leaves left).stays rfl rfl rfl)
          nofun

theorem serve_same (good : Bool) :
    (hd.serve good).queue = hd.queue ∧ (hd.serve good).ended = hd.ended ∧
      (hd.serve good).made = hd.made ∧
      (hd.serve good).requests = hd.requests ∧
      (hd.serve good).doHd = hd.doHd := by
  unfold serve
  split
  · split
    · dsimp only
      split <;> exact ⟨rfl, rfl, rfl, rfl, rfl⟩
    · exact ⟨rfl, rfl, rfl, rfl, rfl⟩
  · exact ⟨rfl, rfl, rfl, rfl, rfl⟩

/-- Whether the interrupt is one that the driver counts as an error. -/
def faultsOf (good : Bool) (hd : Hd) : Nat :=
  if good = false ∧ hd.doHd ≠ none then 1 else 0

theorem interrupt_comes (nodup : hd.queue.Nodup) {good : Bool}
    (ends : hd.interrupt good wild = some next) :
    Comes hd next (faultsOf good hd) (hd.WornOut (faultsOf good hd)) := by
  obtain ⟨queue, ended, made, requests, doHd⟩ := @serve_same hd good
  have served : Stays hd { hd.serve good with doHd := none } 0 :=
    stays_of_eq queue ended made requests
  have sameReason (faults : Nat) :
      WornOut { hd.serve good with doHd := none } faults =
        hd.WornOut faults := by
    unfold WornOut
    dsimp only
    rw [requests]
  have lined : ({ hd.serve good with doHd := none } : Hd).queue.Nodup := by
    rw [served.queue]
    exact nodup
  -- with an error, every handler does the same
  have failed (isBad : good = false) (isHandled : hd.doHd ≠ none)
      (ends : (({ hd.serve good with doHd := none } : Hd).badRwIntr wild).map
        restart = some next) :
      Comes hd next (faultsOf good hd) (hd.WornOut (faultsOf good hd)) := by
    have one : faultsOf good hd = 1 := if_pos ⟨isBad, isHandled⟩
    rw [one, ← sameReason]
    apply Comes.map_restart _ ends
    intro middle isMiddle
    exact (badRwIntr_comes lined isMiddle).after served
  have none (isGood : good = true) : faultsOf good hd = 0 := by
    unfold faultsOf
    rw [isGood, if_neg fun both => nomatch both.1]
  unfold Hd.interrupt at ends
  split at ends
  · cases ends
  rename_i work _
  dsimp only at ends
  cases handler : hd.doHd with
  | none =>
      rw [handler] at ends
      cases ends
      have zero : faultsOf good hd = 0 := by
        unfold faultsOf
        rw [if_neg fun both => both.2 handler]
      rw [zero]
      exact .stays (stays_of_eq queue ended made requests)
  | some kind =>
      have isHandled : hd.doHd ≠ Option.none := by
        rw [handler]
        exact Option.some_ne_none kind
      rw [handler] at ends
      cases kind with
      | readIntr =>
          dsimp only at ends
          cases good with
          | true =>
              rw [none rfl]
              exact ((readIntr_comes lined ends).after served).mono fun _ =>
                False.elim
          | false =>
              apply failed rfl isHandled
              cases isQueue : hd.queue with
              | nil =>
                  unfold Hd.readIntr at ends
                  rw [served.queue, isQueue] at ends
                  cases ends
              | cons slot rest =>
                  rw [← readIntr_bad (served.queue.trans isQueue) work]
                  exact ends
      | writeIntr =>
          dsimp only at ends
          cases good with
          | true =>
              rw [none rfl]
              exact ((writeIntr_comes lined ends).after served).mono fun _ =>
                False.elim
          | false =>
              apply failed rfl isHandled
              cases isQueue : hd.queue with
              | nil =>
                  unfold Hd.writeIntr at ends
                  rw [served.queue, isQueue] at ends
                  cases ends
              | cons slot rest =>
                  rw [← writeIntr_bad (served.queue.trans isQueue)]
                  exact ends
      | recalIntr =>
          dsimp only at ends
          unfold Hd.recalIntr at ends
          cases good with
          | true =>
              rw [if_pos rfl, Option.some.injEq] at ends
              subst ends
              rw [none rfl]
              exact .stays (served.same rfl rfl rfl rfl)
          | false => exact failed rfl isHandled ends

theorem polled_comes (nodup : hd.queue.Nodup) {drq : Bool}
    (ends : hd.polled drq wild = some next) :
    Comes hd next (if drq = true then 0 else 1)
      (hd.WornOut (if drq = true then 0 else 1)) := by
  unfold Hd.polled at ends
  split at ends
  · cases ends
  · cases drq with
    | true =>
        cases ends
        exact .stays (stays_of_eq rfl rfl rfl rfl)
    | false =>
        have idle : Stays hd { hd with work := .idle } 0 :=
          stays_of_eq rfl rfl rfl rfl
        refine Comes.map_restart ?_ ends
        intro middle isMiddle
        exact (@badRwIntr_comes { hd with work := .idle } middle wild nodup
          isMiddle).after idle

/-- The test on the place of a request in `do_hd_request`. -/
def Misplaced (disks : Disks) (hd : Hd) (slot : Nat) : Prop :=
  let request := hd.requests slot
  let dev := minor (request.dev.getD 0)
  5 * disks.nrHd ≤ dev ∨
    (disks.part dev).nrSects < (request.sector + 2) % 2 ^ 32

theorem hdOut_stays {drive nsect sect head cyl : Nat} {cmd : Win}
    {handler : Handler}
    (ends : hd.hdOut disks drive nsect sect head cyl cmd handler =
      some next) : Stays hd next 0 := by
  unfold Hd.hdOut at ends
  split at ends
  · cases ends
  · cases ends
    exact stays_of_eq rfl rfl rfl rfl

theorem doHdRequest_comes (nodup : hd.queue.Nodup)
    (ends : hd.doHdRequest disks = some next) :
    Comes hd next 0 (hd.Misplaced disks) := by
  unfold Hd.doHdRequest at ends
  split at ends
  · cases ends
    exact .stays (stays_of_eq rfl rfl rfl rfl)
  rename_i slot rest isQueue
  dsimp only at ends
  split at ends
  · cases ends
  split at ends <;> rename_i place
  · rw [Option.some.injEq] at ends
    subst ends
    have left := endRequest_leaves isQueue nodup false
    exact .leaves slot rest false (left.stays rfl rfl rfl) fun _ => place
  split at ends
  · cases ends
  -- a command for the drive leaves the line alone
  have commanded {start : Hd} (out : Stays start next 0)
      (same : Stays hd start 0) :
      Comes hd next 0 (hd.Misplaced disks) := .stays (same.trans out)
  split at ends
  · exact commanded (hdOut_stays ends) (stays_of_eq rfl rfl rfl rfl)
  split at ends
  · exact commanded (hdOut_stays ends) (stays_of_eq rfl rfl rfl rfl)
  split at ends
  · exact commanded (hdOut_stays ends) (stays_of_eq rfl rfl rfl rfl)
  · exact commanded (hdOut_stays ends) (stays_of_eq rfl rfl rfl rfl)
  · cases ends

/-! ## The requests that wait -/

/-- The requests behind the current one have had no errors. -/
def Unfailed (hd : Hd) : Prop :=
  ∀ slot rest, hd.queue = slot :: rest → ∀ other ∈ rest,
    (hd.requests other).errors = 0

theorem Unfailed.comes {reason : Nat → Prop} (unfailed : hd.Unfailed)
    (comes : Comes hd next faults reason) : next.Unfailed := by
  intro first others isQueue other member
  cases comes with
  | stays stays =>
      have before := stays.queue.symm.trans isQueue
      exact (stays.waiting first others before other member).trans
        (unfailed first others before other member)
  | leaves slot rest uptodate leaves given =>
      have behind : other ∈ rest := by
        rw [← leaves.after, isQueue]
        exact List.mem_cons_of_mem first member
      exact (leaves.waiting other behind).trans
        (unfailed slot rest leaves.queue other behind)

theorem Unfailed.current (unfailed : hd.Unfailed) {uptodate : Bool}
    (leaves : Leaves hd next slot rest uptodate) {first : Nat}
    {others : List Nat} (isQueue : next.queue = first :: others) :
    (next.requests first).errors = 0 := by
  have behind : first ∈ rest := by
    rw [← leaves.after, isQueue]
    exact List.mem_cons_self
  exact (leaves.waiting first behind).trans
    (unfailed slot rest leaves.queue first behind)

/-- What `add_request` does to the line. -/
structure Added (hd next : Hd) (slot : Nat) (request : HdRequest) : Prop where
  ended : next.ended = hd.ended
  requests : next.requests = fun other =>
    if other = slot then request else hd.requests other
  first : hd.queue = [] → next.queue = [slot]
  behind : ∀ tmp rest, hd.queue = tmp :: rest →
    ∃ line, next.queue = tmp :: line ∧ line.Perm (slot :: rest)

theorem addRequest_added (hd : Hd) (slot : Nat) (request : HdRequest) :
    Added hd (hd.addRequest slot request) slot request := by
  unfold Hd.addRequest
  dsimp only [setRequest]
  constructor
  · split <;> rfl
  · split <;> rfl
  · intro isEmpty
    rw [isEmpty]
    rfl
  · intro tmp rest isQueue
    rw [isQueue]
    exact ⟨_, rfl, elevator_perm _ slot tmp rest⟩

theorem Unfailed.added {request : HdRequest} (unfailed : hd.Unfailed)
    (added : Added hd next slot request) (clear : request.errors = 0) :
    next.Unfailed := by
  intro first others isCons other member
  cases isQueue : hd.queue with
  | nil =>
      rw [added.first isQueue] at isCons
      obtain ⟨rfl, rfl⟩ := List.cons.inj isCons
      cases member
  | cons tmp rest =>
      obtain ⟨line, queue, perm⟩ := added.behind tmp rest isQueue
      rw [queue] at isCons
      obtain ⟨rfl, rfl⟩ := List.cons.inj isCons
      rw [added.requests]
      dsimp only
      split <;> rename_i isOld
      · exact clear
      · rcases List.mem_cons.mp (perm.mem_iff.mp member) with isNew | behind
        · exact absurd isNew isOld
        · exact unfailed tmp rest isQueue other behind

end Hd

theorem hardDisk_unfailed {disks : Disks} {hd next : Hd} {action : HdAction}
    (steady : hd.Steady disks) (unfailed : hd.Unfailed)
    (steps : (hardDisk disks).step hd action = some next) : next.Unfailed := by
  have nodup := steady.orderly.nodup
  dsimp only [hardDisk] at steps
  split at steps
  · split at steps
    · cases steps
    · cases steps
      exact unfailed.added (Hd.addRequest_added hd _ _) rfl
  · exact unfailed.comes (Hd.interrupt_comes nodup steps)
  · exact unfailed.comes (Hd.doHdRequest_comes nodup steps)
  · exact unfailed.comes (Hd.polled_comes nodup steps)
  · cases steps

theorem Hd.Begins.unfailed {hd : Hd} (begins : hd.Begins) : hd.Unfailed := by
  intro slot rest isQueue
  cases begins.queue.symm.trans isQueue

/-! ## Counting errors along a run -/

/-- The request lies in a partition. -/
def HdRequest.InPartition (disks : Disks) (made : HdRequest) : Prop :=
  minor (made.dev.getD 0) < 5 * disks.nrHd ∧
    made.sector + 2 ≤ (disks.part (minor (made.dev.getD 0))).nrSects

/-- A request that has ended, and how many bad interrupts and waits without
`DRQ_STAT` there were for it. -/
structure Ending where
  service : Service
  bad : Nat
  missed : Nat

/-- The driver with what there was for the current request, and for those that
have ended. -/
structure Watch where
  hd : Hd
  bad : Nat
  missed : Nat
  ends : List Ending

namespace HdAction

/-- A bad interrupt that the driver handles. -/
def bad (hd : Hd) : HdAction → Nat
  | .interrupt good _ => hd.faultsOf good
  | _ => 0

def missed : HdAction → Nat
  | .poll drq _ => if drq = true then 0 else 1
  | _ => 0

end HdAction

namespace Watch

/-- The driver has come to `next`, with so many errors for the request that
was the current one. -/
def note (watch : Watch) (next : Hd) (bad missed : Nat) : Watch :=
  match next.ended.drop watch.hd.ended.length with
  | [] => { watch with hd := next, bad, missed }
  | services =>
      { hd := next
        bad := 0
        missed := 0
        ends := watch.ends ++ services.map fun service =>
          ⟨service, bad, missed⟩ }

/-- The place of a request is looked at again for its second sector. -/
def RetryFits (disks : Disks) (watch : Watch) : HdAction → Prop
  | .proceed => ∀ slot ∈ watch.hd.queue.head?,
      (watch.hd.requests slot).nrSectors = 1 →
        ((watch.hd.made slot).sector + 3) % 2 ^ 32 ≤
          (disks.part (minor ((watch.hd.made slot).dev.getD 0))).nrSects
  | _ => True

instance (disks : Disks) (watch : Watch) (action : HdAction) :
    Decidable (RetryFits disks watch action) :=
  match action with
  | .proceed => inferInstanceAs (Decidable (∀ slot ∈ watch.hd.queue.head?, _))
  | .add .. => .isTrue trivial
  | .poll .. => .isTrue trivial
  | .interrupt .. => .isTrue trivial

/-- What the counts say. -/
structure Counts (disks : Disks) (watch : Watch) : Prop where
  steady : watch.hd.Steady disks
  current : ∀ slot rest, watch.hd.queue = slot :: rest →
    (watch.hd.requests slot).errors ≤ watch.bad + watch.missed
  waiting : watch.hd.Unfailed
  ends : ∀ ending ∈ watch.ends, ending.service.uptodate = false →
    ending.service.made.InPartition disks →
      maxErrors ≤ ending.bad + ending.missed
  whole : watch.ends.map Ending.service = watch.hd.ended

variable {disks : Disks} {watch : Watch} {next : Hd} {faults : Nat}
  {reason : Nat → Prop}

/-- A step that keeps the line, or ends a request with enough errors. -/
theorem Counts.comes (counts : watch.Counts disks)
    (comes : watch.hd.Comes next faults reason)
    (steady : next.Steady disks) {bad missed : Nat}
    (total : bad + missed = watch.bad + watch.missed + faults)
    (enough : ∀ slot rest, watch.hd.queue = slot :: rest → reason slot →
      (watch.hd.made slot).InPartition disks →
        maxErrors ≤ (watch.hd.requests slot).errors + faults) :
    (watch.note next bad missed).Counts disks := by
  have waiting := counts.waiting.comes comes
  cases comes with
  | stays stays =>
      have none : next.ended.drop watch.hd.ended.length = [] := by
        rw [stays.ended]
        exact List.drop_length
      unfold note
      rw [none]
      refine ⟨steady, ?_, waiting, counts.ends,
        counts.whole.trans stays.ended.symm⟩
      intro slot rest isQueue
      have before := stays.queue.symm.trans isQueue
      have few := counts.current slot rest before
      have more := stays.current slot rest before
      dsimp only
      omega
  | leaves slot rest uptodate leaves given =>
      obtain ⟨service, ended, made, isEnd⟩ := leaves.ended
      have one : next.ended.drop watch.hd.ended.length = [service] := by
        rw [ended]
        exact List.drop_left
      unfold note
      rw [one]
      refine ⟨steady, ?_, waiting, ?_, ?_⟩
      · intro first others isQueue
        have none := counts.waiting.current leaves isQueue
        dsimp only
        omega
      · intro ending member isBad inPartition
        rcases List.mem_append.mp member with old | new
        · exact counts.ends ending old isBad inPartition
        · rw [List.map_cons, List.map_nil, List.mem_singleton] at new
          subst new
          dsimp only at isBad inPartition ⊢
          rw [isEnd] at isBad
          rw [made] at inPartition
          have few := counts.current slot rest leaves.queue
          have limit := enough slot rest leaves.queue (given isBad) inPartition
          omega
      · show (watch.ends ++ [_]).map Ending.service = _
        rw [List.map_append, counts.whole, ended]
        rfl

/-- A new request has no errors. -/
theorem Counts.added {slot : Nat} {request : HdRequest}
    (counts : watch.Counts disks) (added : watch.hd.Added next slot request)
    (clear : request.errors = 0) (steady : next.Steady disks)
    {bad missed : Nat} (total : bad + missed = watch.bad + watch.missed) :
    (watch.note next bad missed).Counts disks := by
  have none : next.ended.drop watch.hd.ended.length = [] := by
    rw [added.ended]
    exact List.drop_length
  unfold note
  rw [none]
  refine ⟨steady, ?_, counts.waiting.added added clear, counts.ends,
    counts.whole.trans added.ended.symm⟩
  intro first others isCons
  dsimp only at isCons ⊢
  rw [added.requests]
  dsimp only
  split <;> rename_i isOld
  · omega
  · cases isQueue : watch.hd.queue with
    | nil =>
        rw [added.first isQueue] at isCons
        exact absurd (List.cons.inj isCons).1.symm isOld
    | cons tmp rest =>
        obtain ⟨line, queue, _⟩ := added.behind tmp rest isQueue
        rw [queue] at isCons
        obtain ⟨rfl, rfl⟩ := List.cons.inj isCons
        have few := counts.current tmp rest isQueue
        omega

/-- A request in its partition is misplaced only when its second sector is
looked at again. -/
theorem Counts.misplaced (counts : watch.Counts disks) {slot : Nat}
    {rest : List Nat} (isQueue : watch.hd.queue = slot :: rest)
    (inPartition : (watch.hd.made slot).InPartition disks) :
    watch.hd.Misplaced disks slot ↔
      ¬ watch.RetryFits disks .proceed := by
  obtain ⟨isDrive, inside⟩ := inPartition
  have few := counts.steady.few
  have fields :=
    (counts.steady.orderly.current slot rest isQueue).fields few
  have dev : (watch.hd.requests slot).dev = (watch.hd.made slot).dev := by
    rw [fields]
  have sector : (watch.hd.requests slot).sector =
      ((watch.hd.made slot).sector + watch.hd.moved.length) % 2 ^ 32 := by
    rw [fields]
  have nrSectors : (watch.hd.requests slot).nrSectors =
      2 - watch.hd.moved.length := by rw [fields]
  have guard : watch.RetryFits disks .proceed ↔
      ((watch.hd.requests slot).nrSectors = 1 →
        ((watch.hd.made slot).sector + 3) % 2 ^ 32 ≤
          (disks.part (minor ((watch.hd.made slot).dev.getD 0))).nrSects) := by
    unfold RetryFits
    simp [isQueue]
  rw [guard, nrSectors]
  unfold Hd.Misplaced
  dsimp only
  rw [dev, sector]
  omega

end Watch

/-- The driver with the counts. -/
def watched (disks : Disks) : Machine Watch HdAction where
  step := fun watch action =>
    ((hardDisk disks).step watch.hd action).map fun next =>
      watch.note next (watch.bad + action.bad watch.hd)
        (watch.missed + action.missed)

theorem watched_counts {disks : Disks} {watch next : Watch}
    {action : HdAction} (counts : watch.Counts disks)
    (allowed : watch.RetryFits disks action)
    (steps : (watched disks).step watch action = some next) :
    next.Counts disks := by
  obtain ⟨hd, runs, rfl⟩ := Option.map_eq_some_iff.mp steps
  have steady := hardDisk_steady counts.steady runs
  have nodup := counts.steady.orderly.nodup
  dsimp only [hardDisk] at runs
  split at runs <;> rename_i control
  · split at runs
    · cases runs
    · cases runs
      exact counts.added (Hd.addRequest_added _ _ _) rfl steady rfl
  · rename_i good wild
    refine counts.comes (Hd.interrupt_comes nodup runs) steady ?_ ?_
    · dsimp only [HdAction.bad, HdAction.missed]
      omega
    · intro slot rest _ worn _
      exact worn
  · refine counts.comes (Hd.doHdRequest_comes nodup runs) steady rfl ?_
    intro slot rest isQueue misplaced inPartition
    exact absurd allowed ((counts.misplaced isQueue inPartition).mp misplaced)
  · rename_i drq wild
    refine counts.comes (Hd.polled_comes nodup runs) steady ?_ ?_
    · dsimp only [HdAction.bad, HdAction.missed]
      omega
    · intro slot rest _ worn _
      exact worn
  · cases runs

/-- A request that lies in a partition is given up for its errors only, where
none of two sectors at the end of its partition is tried again alone.  There
alone does its place not pass. -/
theorem hardDisk_patient {disks : Disks} {start : Hd} {watch : Watch}
    (begins : start.Begins)
    (reached : (watched disks).Reachable (Watch.RetryFits disks)
      ⟨start, 0, 0, []⟩ watch) :
    (∀ ending ∈ watch.ends, ending.service.uptodate = false →
      ending.service.made.InPartition disks →
        maxErrors ≤ ending.bad + ending.missed) ∧
    watch.ends.map Ending.service = watch.hd.ended ∧
    ∀ slot rest, watch.hd.queue = slot :: rest →
      (watch.hd.made slot).InPartition disks →
        (watch.hd.Misplaced disks slot ↔ ¬ watch.RetryFits disks .proceed) := by
  have initial : (⟨start, 0, 0, []⟩ : Watch).Counts disks := by
    refine ⟨begins.steady, ?_, begins.unfailed, nofun, begins.ended.symm⟩
    intro slot rest isQueue
    cases begins.queue.symm.trans isQueue
  have counts := reached.invariant initial fun _ _ _ before allowed steps =>
    watched_counts before allowed steps
  exact ⟨counts.ends, counts.whole, fun slot rest isQueue inPartition =>
    counts.misplaced isQueue inPartition⟩

section Witness

/-- A read of sectors 0 and 1 of the partition that never succeeds. -/
def hopeless : List HdAction :=
  .add 31 769 .read 0 1 8192 :: .proceed ::
    (List.replicate maxErrors [.interrupt false 0, .proceed]).flatten

theorem hardDisk_patient_hopeless :
    ∃ watch ending, (watched (oneDisk 63)).run (Watch.RetryFits (oneDisk 63))
        ⟨idleDisk, 0, 0, []⟩ hopeless = some watch ∧
      watch.ends = [ending] ∧ ending.service.uptodate = false ∧
      ending.missed = 0 ∧ maxErrors ≤ ending.bad := by
  obtain ⟨watch, ending, runs, isEnd, isBad, missed, place⟩ :
      ∃ watch ending, (watched (oneDisk 63)).run
          (Watch.RetryFits (oneDisk 63)) ⟨idleDisk, 0, 0, []⟩ hopeless =
            some watch ∧
        watch.ends = [ending] ∧ ending.service.uptodate = false ∧
        ending.missed = 0 ∧ ending.service.made.InPartition (oneDisk 63) := by
    refine ⟨_, _, rfl, rfl, rfl, rfl, ?_⟩
    constructor <;> decide
  obtain ⟨enough, _⟩ := hardDisk_patient idleDisk_begins
    (Machine.reachable_of_run .start runs)
  have limit := enough ending (by simp [isEnd]) isBad place
  exact ⟨watch, ending, runs, isEnd, isBad, missed, by omega⟩

/-- A read of the last two sectors of the partition, with an error after the
first of them. -/
def lastSectors : List HdAction :=
  [.add 31 769 .read 9998 1 8192, .proceed, .interrupt true 0, .proceed,
    .interrupt true 0, .proceed, .interrupt true 0, .interrupt false 0,
    .proceed]

/-- Tried again, the last sector is not in the partition. -/
theorem hardDisk_impatient :
    ∃ watch ending, (watched (oneDisk 63)).Reachable Machine.anything
        ⟨idleDisk, 0, 0, []⟩ watch ∧ ending ∈ watch.ends ∧
      ending.service.uptodate = false ∧
      ending.service.made.InPartition (oneDisk 63) ∧ ending.missed = 0 ∧
      ending.bad < maxErrors := by
  obtain ⟨watch, ending, runs, isEnd, isBad, missed, one, place⟩ :
      ∃ watch ending, (watched (oneDisk 63)).run Machine.anything
          ⟨idleDisk, 0, 0, []⟩ lastSectors = some watch ∧
        watch.ends = [ending] ∧ ending.service.uptodate = false ∧
        ending.missed = 0 ∧ ending.bad = 1 ∧
        ending.service.made.InPartition (oneDisk 63) := by
    refine ⟨_, _, rfl, rfl, rfl, rfl, rfl, ?_⟩
    constructor <;> decide
  refine ⟨watch, ending, Machine.reachable_of_run .start runs,
    by simp [isEnd], isBad, place, missed, ?_⟩
  rw [one]
  decide

end Witness

end Linux011.Fs
