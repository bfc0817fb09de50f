import Mathlib.Data.Prod.Lex
import Mathlib.Data.List.Nodup
import Linux011.Library.Descents
import Linux011.Library.Machine
import Linux011.Fs.CacheTasks

/-!
# The order of the requests of a device

`add_request` sorts a request into the list of its device, `end_request`
takes off the first one, and a driver counts up the sector of the request it
works on.  The list stays one that is served in one upward sweep and a part
of a second one.
-/

namespace Linux011.Fs

open Elevator Machines

/-- What `IN_ORDER` compares. -/
def Request.key (request : Request) : Nat ×ₗ Int ×ₗ Nat :=
  toLex (request.cmd.rank,
    toLex (match request.dev with
      | none => -1
      | some dev => (dev : Int), request.sector))

theorem inOrder_eq (first second : Request) :
    inOrder first second = decide (first.key < second.key) := by
  rw [Bool.eq_iff_iff]
  cases isFirst : first.dev <;> cases isSecond : second.dev <;>
    simp [inOrder, Request.key, Prod.Lex.toLex_lt_toLex, isFirst, isSecond]

/-- `add_request` inserts by the keys. -/
theorem elevator_keys (requests : Nat → Request) (slot tmp : Nat)
    (rest : List Nat) :
    (elevator requests slot tmp rest).map (fun slot => (requests slot).key) =
      Elevator.insert (requests slot).key (requests tmp).key
        (rest.map fun slot => (requests slot).key) := by
  induction rest generalizing tmp with
  | nil => rfl
  | cons following rest induction =>
      simp only [elevator, Elevator.insert, List.map_cons, inOrder_eq,
        Bool.and_eq_true, Bool.or_eq_true, Bool.not_eq_true',
        decide_eq_true_eq, decide_eq_false_iff_not]
      split
      · rfl
      · simp [induction]

/-- The new slot is put in once, and the others keep their order. -/
theorem elevator_splits (requests : Nat → Request) (slot tmp : Nat)
    (rest : List Nat) :
    ∃ before after, rest = before ++ after ∧
      elevator requests slot tmp rest = before ++ slot :: after := by
  induction rest generalizing tmp with
  | nil => exact ⟨[], [], rfl, rfl⟩
  | cons following rest induction =>
      unfold elevator
      split
      · exact ⟨[], following :: rest, rfl, rfl⟩
      · obtain ⟨before, after, isRest, inserted⟩ := induction following
        refine ⟨following :: before, after, ?_, ?_⟩
        · rw [isRest, List.cons_append]
        · rw [inserted, List.cons_append]

/-! ## The steps -/

inductive DiskAction where
  | add (slot : Nat) (request : Request)
  | endRequest (major : Nat) (uptodate : Bool)
  | nextSector (major : Nat)

/-- `CURRENT->sector++` and `--CURRENT->nr_sectors`, where a sector is left.
After the last one the same interrupt ends the request. -/
def Kernel.nextSector (kernel : Kernel) (major : Nat) : Option Kernel :=
  match kernel.queue major with
  | [] => none
  | slot :: _ =>
      let request := kernel.requests slot
      if 1 < request.nrSectors then
        some (kernel.setRequest slot
          { request with
            sector := (request.sector + 1) % 2 ^ 32
            nrSectors := request.nrSectors - 1 })
      else none

def requestQueues : Machine Kernel DiskAction where
  step := fun kernel action =>
    match action with
    | .add slot request =>
        match request.dev with
        | none => none
        | some dev =>
            some (addRequest (major dev) slot (kernel.setRequest slot request))
    | .endRequest major uptodate => some (endRequest major uptodate kernel)
    | .nextSector major => kernel.nextSector major

/-- A request goes into a free slot.  It is for two sectors, from an even one
on, and differs from those in the list of its device. -/
def Asked (kernel : Kernel) : DiskAction → Prop
  | .add slot request =>
      (kernel.requests slot).dev = none ∧ request.nrSectors = 2 ∧
        request.sector % 2 = 0 ∧ request.sector < 2 ^ 32 ∧
        ∀ other ∈ kernel.queue (major (request.dev.getD 0)),
          (kernel.requests other).key ≠ request.key
  | _ => True

instance (kernel : Kernel) (action : DiskAction) :
    Decidable (Asked kernel action) :=
  match action with
  | .add _ _ => inferInstanceAs (Decidable (_ ∧ _))
  | .endRequest _ _ => .isTrue trivial
  | .nextSector _ => .isTrue trivial

/-! ## The invariant -/

/-- A request in a list; only the first of a list may have begun. -/
structure InLine (major : Nat) (begun : Bool) (request : Request) : Prop where
  dev : ∃ dev, request.dev = some dev ∧ Fs.major dev = major
  sectors : request.nrSectors ≤ 2
  fits : request.sector < 2 ^ 32
  even : request.nrSectors = 2 → request.sector % 2 = 0
  whole : begun = false → request.nrSectors = 2

structure Elevated (requests : Nat → Request) (queue : Nat → List Nat) :
    Prop where
  first : ∀ major slot rest, queue major = slot :: rest →
    InLine major true (requests slot)
  behind : ∀ major slot rest, queue major = slot :: rest →
    ∀ other ∈ rest, InLine major false (requests other)
  nodup : ∀ major, (queue major).Nodup
  few : ∀ major, descents ((queue major).map fun slot =>
    (requests slot).key) ≤ 1

theorem InLine.later {major : Nat} {begun : Bool} {request : Request}
    (inLine : InLine major begun request) : InLine major true request :=
  { inLine with whole := fun none => by cases none }

namespace Elevated

variable {requests : Nat → Request} {queue : Nat → List Nat}

theorem inLine (elevated : Elevated requests queue) {major slot : Nat}
    (member : slot ∈ queue major) : InLine major true (requests slot) := by
  cases isQueue : queue major with
  | nil =>
      rw [isQueue] at member
      cases member
  | cons first rest =>
      rw [isQueue] at member
      rcases List.mem_cons.mp member with rfl | behind
      · exact elevated.first major slot rest isQueue
      · exact (elevated.behind major first rest isQueue slot behind).later

/-- The lists of a device whose requests and list do not change. -/
theorem congr {later : Nat → Request} {laterQueue : Nat → List Nat}
    (elevated : Elevated requests queue) (major : Nat)
    (sameQueue : laterQueue major = queue major)
    (same : ∀ slot ∈ queue major, later slot = requests slot) :
    (∀ slot rest, laterQueue major = slot :: rest →
      InLine major true (later slot) ∧
        ∀ other ∈ rest, InLine major false (later other)) ∧
    (laterQueue major).Nodup ∧
    descents ((laterQueue major).map fun slot => (later slot).key) ≤ 1 := by
  rw [sameQueue]
  refine ⟨?_, elevated.nodup major, ?_⟩
  · intro slot rest isQueue
    have isFirst : slot ∈ queue major := isQueue ▸ List.mem_cons_self
    refine ⟨?_, fun other member => ?_⟩
    · rw [same slot isFirst]
      exact elevated.first major slot rest isQueue
    · have isListed : other ∈ queue major :=
        isQueue ▸ List.mem_cons_of_mem slot member
      rw [same other isListed]
      exact elevated.behind major slot rest isQueue other member
  · have keys : ((queue major).map fun slot => (later slot).key) =
        (queue major).map fun slot => (requests slot).key := by
      apply List.map_congr_left
      intro slot member
      rw [same slot member]
    rw [keys]
    exact elevated.few major

/-- One list changes, and the requests in it. -/
theorem change {major : Nat} {later : Nat → Request}
    {laterQueue : Nat → List Nat} (elevated : Elevated requests queue)
    (others : ∀ other, other ≠ major → laterQueue other = queue other ∧
      ∀ slot ∈ queue other, later slot = requests slot)
    (first : ∀ slot rest, laterQueue major = slot :: rest →
      InLine major true (later slot) ∧
        ∀ other ∈ rest, InLine major false (later other))
    (nodup : (laterQueue major).Nodup)
    (few : descents ((laterQueue major).map fun slot => (later slot).key) ≤ 1) :
    Elevated later laterQueue := by
  have all (other : Nat) :
      (∀ slot rest, laterQueue other = slot :: rest →
        InLine other true (later slot) ∧
          ∀ third ∈ rest, InLine other false (later third)) ∧
      (laterQueue other).Nodup ∧
      descents ((laterQueue other).map fun slot => (later slot).key) ≤ 1 := by
    by_cases own : other = major
    · rw [own]
      exact ⟨first, nodup, few⟩
    · obtain ⟨sameQueue, same⟩ := others other own
      exact elevated.congr other sameQueue same
  refine ⟨?_, ?_, fun other => (all other).2.1, fun other => (all other).2.2⟩
  · exact fun other slot rest isQueue => ((all other).1 slot rest isQueue).1
  · exact fun other slot rest isQueue => ((all other).1 slot rest isQueue).2

/-- A slot is in the list of the device its request is for. -/
theorem apart (elevated : Elevated requests queue) {major other slot : Nat}
    (member : slot ∈ queue major) (different : other ≠ major) :
    slot ∉ queue other := by
  intro isOther
  obtain ⟨dev, isDev, isMajor⟩ := (elevated.inLine member).dev
  obtain ⟨otherDev, isOtherDev, isOtherMajor⟩ := (elevated.inLine isOther).dev
  rw [isDev, Option.some.injEq] at isOtherDev
  rw [← isOtherDev, isMajor] at isOtherMajor
  exact different isOtherMajor.symm

/-- Where only the first request of a list changes, the requests behind it and
those of the other devices stay. -/
theorem beyond_first {major slot : Nat} {rest : List Nat}
    {later : Nat → Request} (elevated : Elevated requests queue)
    (isQueue : queue major = slot :: rest)
    (same : ∀ other, other ≠ slot → later other = requests other) :
    (∀ other ∈ rest, later other = requests other) ∧
      ∀ other, other ≠ major → ∀ third ∈ queue other,
        later third = requests third := by
  have isFirst : slot ∈ queue major := isQueue ▸ List.mem_cons_self
  have nodup := elevated.nodup major
  rw [isQueue, List.nodup_cons] at nodup
  constructor
  · intro other member
    apply same
    rintro rfl
    exact nodup.1 member
  · intro other different third member
    apply same
    rintro rfl
    exact elevated.apart isFirst different member

theorem keys_same {rest : List Nat} {later : Nat → Request}
    (same : ∀ other ∈ rest, later other = requests other) :
    (rest.map fun other => (later other).key) =
      rest.map fun other => (requests other).key := by
  apply List.map_congr_left
  intro other member
  rw [same other member]

/-- The first request of a list is ended. -/
theorem ended {major slot : Nat} {rest : List Nat} {later : Nat → Request}
    {laterQueue : Nat → List Nat} (elevated : Elevated requests queue)
    (isQueue : queue major = slot :: rest)
    (same : ∀ other, other ≠ slot → later other = requests other)
    (ownQueue : laterQueue major = rest)
    (otherQueues : ∀ other, other ≠ major → laterQueue other = queue other) :
    Elevated later laterQueue := by
  obtain ⟨sameRest, sameOthers⟩ := elevated.beyond_first isQueue same
  have nodup := elevated.nodup major
  have few := elevated.few major
  have behind := elevated.behind major slot rest isQueue
  rw [isQueue, List.nodup_cons] at nodup
  rw [isQueue] at few
  apply @Elevated.change requests queue major _ _ elevated
  · exact fun other different =>
      ⟨otherQueues other different, sameOthers other different⟩
  · intro first others isRest
    rw [ownQueue] at isRest
    subst isRest
    refine ⟨?_, fun other member => ?_⟩
    · rw [sameRest first List.mem_cons_self]
      exact (behind first List.mem_cons_self).later
    · have isBehind := List.mem_cons_of_mem first member
      rw [sameRest other isBehind]
      exact behind other isBehind
  · rw [ownQueue]
    exact nodup.2
  · rw [ownQueue, keys_same sameRest]
    exact (descents_tail _ _).trans few

/-- The key of a request that has begun, against one that has not. -/
theorem key_begun {first second : Request} {major : Nat}
    (isFirst : InLine major true first) (isSecond : InLine major false second)
    (left : 1 < first.nrSectors) (below : first.key < second.key) :
    Request.key { first with
      sector := (first.sector + 1) % 2 ^ 32
      nrSectors := first.nrSectors - 1 } < second.key := by
  have few := isFirst.sectors
  have fits := isFirst.fits
  have even := isFirst.even (by omega)
  have otherEven := isSecond.even (isSecond.whole rfl)
  unfold Request.key at below ⊢
  simp only [Prod.Lex.toLex_lt_toLex] at below ⊢
  rcases below with lower | ⟨sameCmd, lower | ⟨sameDev, lower⟩⟩
  · exact .inl lower
  · exact .inr ⟨sameCmd, .inl lower⟩
  · exact .inr ⟨sameCmd, .inr ⟨sameDev, by omega⟩⟩

/-- A sector of the first request has been transferred. -/
theorem began {major slot : Nat} {rest : List Nat} {later : Nat → Request}
    (elevated : Elevated requests queue) (isQueue : queue major = slot :: rest)
    (left : 1 < (requests slot).nrSectors)
    (same : ∀ other, other ≠ slot → later other = requests other)
    (own : later slot = { requests slot with
      sector := ((requests slot).sector + 1) % 2 ^ 32
      nrSectors := (requests slot).nrSectors - 1 }) :
    Elevated later queue := by
  obtain ⟨sameRest, sameOthers⟩ := elevated.beyond_first isQueue same
  have inLine := elevated.first major slot rest isQueue
  have behind := elevated.behind major slot rest isQueue
  have nodup := elevated.nodup major
  have few := elevated.few major
  rw [isQueue, List.nodup_cons] at nodup
  rw [isQueue] at few
  apply @Elevated.change requests queue major _ _ elevated
  · exact fun other different => ⟨rfl, sameOthers other different⟩
  · intro first others isCons
    rw [isQueue, List.cons.injEq] at isCons
    obtain ⟨rfl, rfl⟩ := isCons
    refine ⟨?_, fun other member => ?_⟩
    · have sectors := inLine.sectors
      rw [own]
      refine ⟨inLine.dev, ?_, Nat.mod_lt _ (by decide), ?_,
        fun none => by cases none⟩
      · dsimp only
        omega
      · intro isTwo
        dsimp only at isTwo
        omega
    · rw [sameRest other member]
      exact behind other member
  · rw [isQueue, List.nodup_cons]
    exact nodup
  · rw [isQueue, List.map_cons, keys_same sameRest]
    refine (descents_raise ?_).trans few
    intro key member below
    obtain ⟨other, isBehind, rfl⟩ := List.mem_map.mp member
    rw [own]
    exact key_begun inLine (behind other isBehind) left below

/-- A request is put into the list of its device. -/
theorem added {major slot dev : Nat} {request : Request}
    {later : Nat → Request} {laterQueue : Nat → List Nat}
    (elevated : Elevated requests queue)
    (isFree : (requests slot).dev = none) (isDev : request.dev = some dev)
    (isMajor : Fs.major dev = major) (whole : request.nrSectors = 2)
    (even : request.sector % 2 = 0) (fits : request.sector < 2 ^ 32)
    (differs : ∀ other ∈ queue major, (requests other).key ≠ request.key)
    (same : ∀ other, other ≠ slot → later other = requests other)
    (own : later slot = request)
    (ownQueue : laterQueue major =
      match queue major with
      | [] => [slot]
      | tmp :: rest => tmp :: elevator later slot tmp rest)
    (otherQueues : ∀ other, other ≠ major → laterQueue other = queue other) :
    Elevated later laterQueue := by
  have notListed (other : Nat) : slot ∉ queue other := by
    intro member
    obtain ⟨dev, isDev, _⟩ := (elevated.inLine member).dev
    rw [isFree] at isDev
    cases isDev
  have sameListed {other third : Nat} (member : third ∈ queue other) :
      later third = requests third := by
    apply same
    rintro rfl
    exact notListed other member
  have isNew : InLine major false (later slot) := by
    rw [own]
    exact ⟨⟨dev, isDev, isMajor⟩, by omega, fits, fun _ => even,
      fun _ => whole⟩
  have others (other : Nat) (different : other ≠ major) :
      laterQueue other = queue other ∧
        ∀ third ∈ queue other, later third = requests third :=
    ⟨otherQueues other different, fun third member => sameListed member⟩
  cases isQueue : queue major with
  | nil =>
      rw [isQueue] at ownQueue
      apply elevated.change others
      · intro first rest isCons
        rw [ownQueue, List.cons.injEq] at isCons
        obtain ⟨rfl, rfl⟩ := isCons
        exact ⟨isNew.later, fun other member => by cases member⟩
      · rw [ownQueue]
        exact List.nodup_singleton slot
      · rw [ownQueue]
        exact Nat.zero_le 1
  | cons tmp rest =>
      rw [isQueue] at ownQueue
      dsimp only at ownQueue
      have isTmp : tmp ∈ queue major := isQueue ▸ List.mem_cons_self
      have isRest {other : Nat} (member : other ∈ rest) :
          other ∈ queue major := isQueue ▸ List.mem_cons_of_mem tmp member
      have nodup := elevated.nodup major
      have few := elevated.few major
      rw [isQueue] at nodup few
      obtain ⟨before, after, splits, inserted⟩ :=
        elevator_splits later slot tmp rest
      have perm : (tmp :: elevator later slot tmp rest).Perm
          (slot :: tmp :: rest) := by
        rw [inserted, splits]
        exact (List.perm_middle.cons tmp).trans (List.Perm.swap slot tmp _)
      apply elevated.change others
      · intro first behind isCons
        rw [ownQueue, List.cons.injEq] at isCons
        obtain ⟨rfl, rfl⟩ := isCons
        refine ⟨?_, fun other member => ?_⟩
        · rw [sameListed isTmp]
          exact elevated.first major tmp rest isQueue
        · rw [inserted] at member
          have cases : other = slot ∨ other ∈ rest := by
            rw [splits]
            simp only [List.mem_append, List.mem_cons] at member ⊢
            tauto
          rcases cases with rfl | isOld
          · exact isNew
          · rw [sameListed (isRest isOld)]
            exact elevated.behind major tmp rest isQueue other isOld
      · rw [ownQueue, perm.nodup_iff, List.nodup_cons]
        exact ⟨isQueue ▸ notListed major, nodup⟩
      · have keys : ((tmp :: rest).map fun other => (later other).key) =
            (tmp :: rest).map fun other => (requests other).key := by
          apply List.map_congr_left
          intro other member
          rw [sameListed (isQueue.symm ▸ member)]
        rw [← keys] at few
        have notKey {other : Nat} (member : other ∈ queue major) :
            (later slot).key ≠ (later other).key := by
          rw [own, sameListed member]
          exact (differs other member).symm
        rw [ownQueue, List.map_cons, elevator_keys]
        apply descents_insert few (notKey isTmp)
        intro member
        obtain ⟨other, isOther, sameKey⟩ := List.mem_map.mp member
        exact notKey (isRest isOther) sameKey.symm

end Elevated

/-- The invariant, of a state. -/
def Kernel.Elevated (kernel : Kernel) : Prop :=
  Fs.Elevated kernel.requests kernel.queue

section Steps

variable {kernel : Kernel}

theorem Kernel.setRequest_other {slot other : Nat} {request : Request}
    (different : other ≠ slot) :
    (kernel.setRequest slot request).requests other = kernel.requests other :=
  if_neg different

theorem Kernel.setRequest_own {slot : Nat} {request : Request} :
    (kernel.setRequest slot request).requests slot = request :=
  if_pos rfl

theorem Kernel.setQueue_other {major other : Nat} {slots : List Nat}
    (different : other ≠ major) :
    (kernel.setQueue major slots).queue other = kernel.queue other :=
  if_neg different

theorem Kernel.setQueue_own {major : Nat} {slots : List Nat} :
    (kernel.setQueue major slots).queue major = slots :=
  if_pos rfl

theorem elevated_endRequest (elevated : kernel.Elevated) (major : Nat)
    (uptodate : Bool) : (endRequest major uptodate kernel).Elevated := by
  unfold endRequest
  cases isQueue : kernel.queue major with
  | nil => exact elevated
  | cons slot rest =>
      apply Elevated.ended elevated isQueue
      · intro other different
        exact Kernel.setRequest_other different
      · exact Kernel.setQueue_own
      · intro other different
        exact Kernel.setQueue_other different

theorem elevated_complete (elevated : kernel.Elevated) (major : Nat)
    (success : Bool) : (complete major success kernel).Elevated := by
  unfold complete
  split
  · exact elevated
  · rename_i slot _ _
    have moved : (transfer slot kernel).Elevated := by
      unfold transfer
      dsimp only
      split
      · exact elevated
      · exact elevated
    split
    · exact elevated_endRequest moved major true
    · exact elevated_endRequest elevated major false

theorem elevated_nextSector {next : Kernel} (elevated : kernel.Elevated)
    {major : Nat} (steps : kernel.nextSector major = some next) :
    next.Elevated := by
  unfold Kernel.nextSector at steps
  split at steps
  · cases steps
  · rename_i slot rest isQueue
    dsimp only at steps
    split at steps <;> rename_i left
    · rw [Option.some.injEq] at steps
      subst steps
      apply Elevated.began elevated isQueue left
      · intro other different
        exact Kernel.setRequest_other different
      · exact Kernel.setRequest_own
    · cases steps

/-- `add_request` without the call of `request_fn`. -/
def placed (major slot : Nat) (kernel : Kernel) : Kernel :=
  let request := kernel.requests slot
  let kernel := kernel.setBuffer request.bh
    { kernel.buffers request.bh with dirt := false }
  kernel.setQueue major
    (match kernel.queue major with
    | [] => [slot]
    | tmp :: rest => tmp :: elevator kernel.requests slot tmp rest)

theorem placed_queue (major slot : Nat) (kernel : Kernel) :
    (placed major slot kernel).queue major =
      match kernel.queue major with
      | [] => [slot]
      | tmp :: rest => tmp :: elevator kernel.requests slot tmp rest :=
  Kernel.setQueue_own

/-- `request_fn` is called where the list was empty. -/
theorem addRequest_eq (major slot : Nat) (kernel : Kernel) :
    addRequest major slot kernel =
      if kernel.queue major = [] then
        requestFn major slot (placed major slot kernel)
      else placed major slot kernel := by
  unfold addRequest placed
  dsimp only [Kernel.setBuffer]
  cases kernel.queue major with
  | nil => simp
  | cons tmp rest => simp

theorem elevated_add {slot dev : Nat} {request : Request}
    (elevated : kernel.Elevated) (asked : Asked kernel (.add slot request))
    (isDev : request.dev = some dev) :
    (placed (major dev) slot (kernel.setRequest slot request)).Elevated := by
  obtain ⟨isFree, whole, even, fits, differs⟩ := asked
  rw [isDev] at differs
  apply Elevated.added elevated isFree isDev rfl whole even fits differs
  · intro other different
    exact Kernel.setRequest_other different
  · exact Kernel.setRequest_own
  · exact Kernel.setQueue_own
  · intro other different
    exact Kernel.setQueue_other different

theorem elevated_step {action : DiskAction} {next : Kernel}
    (elevated : kernel.Elevated) (asked : Asked kernel action)
    (steps : requestQueues.step kernel action = some next) :
    next.Elevated := by
  cases action with
  | add slot request =>
      dsimp only [requestQueues] at steps
      cases isDev : request.dev with
      | none =>
          rw [isDev] at steps
          cases steps
      | some dev =>
          rw [isDev] at steps
          simp only [Option.some.injEq] at steps
          have added := elevated_add elevated asked isDev
          rw [← steps, addRequest_eq]
          split
          · unfold requestFn
            split
            · exact elevated_complete added _ _
            · exact added
          · exact added
  | endRequest major uptodate =>
      cases steps
      exact elevated_endRequest elevated major uptodate
  | nextSector major => exact elevated_nextSector elevated steps

end Steps

/-! ## Runs -/

/-- `IN_ORDER` fails for the requests at a place of a list and the next. -/
def Kernel.OutOfOrder (kernel : Kernel) (major place : Nat) : Prop :=
  ∃ first second, (kernel.queue major)[place]? = some first ∧
    (kernel.queue major)[place + 1]? = some second ∧
    inOrder (kernel.requests first) (kernel.requests second) = false

/-- A list with one slot more: the others keep their order, and the first
one stays the first. -/
def Inserted (slot : Nat) (old new : List Nat) : Prop :=
  slot ∉ old ∧ ∃ before after, old = before ++ after ∧
    new = before ++ slot :: after ∧ (before = [] → old = [])

theorem Kernel.OutOfOrder.fails {kernel : Kernel} {major place : Nat}
    (out : kernel.OutOfOrder major place) :
    FailsAt ((kernel.queue major).map fun slot => (kernel.requests slot).key)
      place := by
  obtain ⟨first, second, isFirst, isSecond, fails⟩ := out
  rw [inOrder_eq, decide_eq_false_iff_not] at fails
  exact ⟨_, _, by rw [List.getElem?_map, isFirst]; rfl,
    by rw [List.getElem?_map, isSecond]; rfl, fails⟩

theorem elevated_empty {kernel : Kernel}
    (empty : ∀ major, kernel.queue major = []) : kernel.Elevated := by
  refine ⟨?_, ?_, fun major => ?_, fun major => ?_⟩
  · intro major slot rest isQueue
    simp [empty] at isQueue
  · intro major slot rest isQueue
    simp [empty] at isQueue
  · simp [empty]
  · simp [empty, descents]

theorem placed_inserts {kernel : Kernel} {slot dev : Nat} {request : Request}
    (elevated : kernel.Elevated) (isFree : (kernel.requests slot).dev = none) :
    Inserted slot (kernel.queue (major dev))
      ((placed (major dev) slot (kernel.setRequest slot request)).queue
        (major dev)) := by
  have isNew : slot ∉ kernel.queue (major dev) := by
    intro member
    obtain ⟨other, isDev, _⟩ := (Elevated.inLine elevated member).dev
    rw [isFree] at isDev
    cases isDev
  refine ⟨isNew, ?_⟩
  have isQueue : (kernel.setRequest slot request).queue (major dev) =
      kernel.queue (major dev) := rfl
  rw [placed_queue, isQueue]
  cases kernel.queue (major dev) with
  | nil => exact ⟨[], [], rfl, rfl, fun _ => rfl⟩
  | cons tmp rest =>
      obtain ⟨before, after, isRest, inserted⟩ :=
        elevator_splits (kernel.setRequest slot request).requests slot tmp rest
      refine ⟨tmp :: before, after, ?_, ?_, fun none => by cases none⟩
      · rw [isRest, List.cons_append]
      · rw [List.cons_append]
        exact congrArg (tmp :: ·) inserted

theorem elevated_reachable {start kernel : Kernel}
    (empty : ∀ major, start.queue major = [])
    (reached : requestQueues.Reachable Asked start kernel) :
    kernel.Elevated := by
  apply reached.invariant (elevated_empty empty)
  intro kernel action next elevated asked steps
  exact elevated_step elevated asked steps

/-- The list of a device is out of order in at most one place, and a request
is only put in. -/
theorem elevator_oneWay {start kernel : Kernel}
    (empty : ∀ major, start.queue major = [])
    (reached : requestQueues.Reachable Asked start kernel) :
    (∀ major left right, kernel.OutOfOrder major left →
      kernel.OutOfOrder major right → left = right) ∧
    ∀ slot request dev, Asked kernel (.add slot request) →
      request.dev = some dev →
        let added := placed (major dev) slot (kernel.setRequest slot request)
        Inserted slot (kernel.queue (major dev)) (added.queue (major dev)) ∧
        (∀ other, other ≠ major dev →
          added.queue other = kernel.queue other) ∧
        requestQueues.step kernel (.add slot request) =
          some (if kernel.queue (major dev) = [] then
            requestFn (major dev) slot added else added) := by
  have elevated := elevated_reachable empty reached
  refine ⟨?_, ?_⟩
  · intro major left right atLeft atRight
    exact FailsAt.unique (elevated.few major) atLeft.fails atRight.fails
  · intro slot request dev asked isDev
    refine ⟨placed_inserts elevated asked.1, ?_, ?_⟩
    · intro other different
      exact Kernel.setQueue_other different
    · dsimp only [requestQueues]
      rw [isDev]
      exact congrArg some (addRequest_eq _ _ _)

/-! ### A run -/

/-- The read of a block of the first hard disk partition. -/
def readAt (sector bh : Nat) : Request where
  dev := some 769
  cmd := .read
  sector := sector
  nrSectors := 2
  bh := bh

/-- A lower block is read when the disk is past it. -/
def wrapped : List DiskAction :=
  [.add 31 (readAt 8 1), .nextSector 3, .add 30 (readAt 4 2),
    .add 29 (readAt 12 3)]

theorem elevator_oneWay_wraps :
    ∃ kernel, requestQueues.run Asked idleKernel wrapped = some kernel ∧
      kernel.queue 3 = [31, 30, 29] ∧
      (∀ place, kernel.OutOfOrder 3 place → place = 0) ∧
      Inserted 28 (kernel.queue 3)
        ((placed 3 28 (kernel.setRequest 28 (readAt 6 4))).queue 3) := by
  obtain ⟨kernel, runs, isQueue, asked, out⟩ :
      ∃ kernel, requestQueues.run Asked idleKernel wrapped = some kernel ∧
        kernel.queue 3 = [31, 30, 29] ∧
        Asked kernel (.add 28 (readAt 6 4)) ∧ kernel.OutOfOrder 3 0 := by
    refine ⟨_, rfl, rfl, ?_, 31, 30, rfl, rfl, rfl⟩
    decide +kernel
  obtain ⟨unique, inserts⟩ := elevator_oneWay (fun _ => rfl)
    (Machine.reachable_of_run .start runs)
  exact ⟨kernel, runs, isQueue,
    fun place atPlace => unique 3 place 0 atPlace out,
    (inserts 28 (readAt 6 4) 769 asked rfl).1⟩

end Linux011.Fs
