import Mathlib.Tactic.Common

/-!
# User and group ids

The set-id calls of `sys.c`.  Without privileges an id can only become one of
those the process has already, so that a sequence of calls stays within the
ids it began with.
-/

namespace Linux011.Proc

/-- The ids in a task structure. -/
structure Ids where
  uid : UInt16
  euid : UInt16
  suid : UInt16
  gid : UInt16
  egid : UInt16
  sgid : UInt16

/-- The comparison of an `unsigned short` with an `int`. -/
def isId (id : UInt16) (value : Int) : Bool := (id.toNat : Int) == value

/-- `-EPERM`. -/
def notPermitted : Int := -1

namespace Ids

/-- `suser`. -/
def suser (current : Ids) : Bool := current.euid == 0

/-- `sys_setregid`: the result and the ids afterwards. -/
def sysSetregid (current : Ids) (rgid egid : Int) : Int × Ids :=
  if 0 < rgid ∧ (isId current.gid rgid || current.suser) = false then
    (notPermitted, current)
  else
    let current :=
      if 0 < rgid then { current with gid := .ofInt rgid } else current
    if 0 < egid ∧ (isId current.gid egid || isId current.egid egid ||
        isId current.sgid egid || current.suser) = false then
      (notPermitted, current)
    else
      (0, if 0 < egid then { current with egid := .ofInt egid } else current)

def sysSetgid (current : Ids) (gid : Int) : Int × Ids :=
  current.sysSetregid gid gid

/-- `sys_setreuid`, which takes back the real id where the effective one is
refused. -/
def sysSetreuid (current : Ids) (ruid euid : Int) : Int × Ids :=
  let oldRuid := current.uid
  if 0 < ruid ∧ (isId current.euid ruid || isId oldRuid ruid ||
      current.suser) = false then
    (notPermitted, current)
  else
    let current :=
      if 0 < ruid then { current with uid := .ofInt ruid } else current
    if 0 < euid ∧ (isId oldRuid euid || isId current.euid euid ||
        current.suser) = false then
      (notPermitted, { current with uid := oldRuid })
    else
      (0, if 0 < euid then { current with euid := .ofInt euid } else current)

def sysSetuid (current : Ids) (uid : Int) : Int × Ids :=
  current.sysSetreuid uid uid

end Ids

/-- A system call that sets ids. -/
inductive SetIdCall where
  | setuid (uid : Int)
  | setreuid (ruid euid : Int)
  | setgid (gid : Int)
  | setregid (rgid egid : Int)

def SetIdCall.perform : SetIdCall → Ids → Int × Ids
  | setuid uid, current => current.sysSetuid uid
  | setreuid ruid euid, current => current.sysSetreuid ruid euid
  | setgid gid, current => current.sysSetgid gid
  | setregid rgid egid, current => current.sysSetregid rgid egid

/-- The ids after a sequence of calls. -/
def afterCalls (calls : List SetIdCall) (start : Ids) : Ids :=
  calls.foldl (fun current call => (call.perform current).2) start

/-- The ids that a process may come to without privileges. -/
structure Within (start current : Ids) : Prop where
  uid : current.uid = start.uid ∨ current.uid = start.euid
  euid : current.euid = start.uid ∨ current.euid = start.euid
  gid : current.gid = start.gid ∨ current.gid = start.egid ∨
    current.gid = start.sgid
  egid : current.egid = start.gid ∨ current.egid = start.egid ∨
    current.egid = start.sgid
  sgid : current.sgid = start.sgid

theorem Within.refl (start : Ids) : Within start start :=
  ⟨.inl rfl, .inr rfl, .inl rfl, .inr (.inl rfl), rfl⟩

theorem Within.trans {first second third : Ids} (before : Within first second)
    (after : Within second third) : Within first third where
  uid := by
    rcases after.uid with same | same <;> rw [same]
    · exact before.uid
    · exact before.euid
  euid := by
    rcases after.euid with same | same <;> rw [same]
    · exact before.uid
    · exact before.euid
  gid := by
    rcases after.gid with same | same | same <;> rw [same]
    · exact before.gid
    · exact before.egid
    · exact .inr (.inr before.sgid)
  egid := by
    rcases after.egid with same | same | same <;> rw [same]
    · exact before.gid
    · exact before.egid
    · exact .inr (.inr before.sgid)
  sgid := after.sgid.trans before.sgid

/-- An `int` that equals an id is stored as this id. -/
theorem ofInt_of_isId {id : UInt16} {value : Int} (same : isId id value = true) :
    UInt16.ofInt value = id := by
  have isValue := eq_of_beq same
  have small : id.toNat < 2 ^ 16 := id.toNat_lt
  have inRange : (id.toNat : Int) % 2 ^ 16 = id.toNat := by omega
  rw [← isValue]
  unfold UInt16.ofInt
  rw [inRange]
  exact UInt16.ofNat_toNat

/-- What a call may do to the ids of an unprivileged process. -/
structure Harmless (current : Ids) (outcome : Int × Ids) : Prop where
  within : Within current outcome.2
  refused : outcome.1 = notPermitted → outcome.2 = current

section Calls

variable {current : Ids}

theorem not_denied {given : Prop} {own : Bool} (denied : ¬(given ∧ own = false))
    (isGiven : given) : own = true := by
  by_contra other
  exact denied ⟨isGiven, Bool.eq_false_iff.mpr other⟩

theorem harmless_refused (current : Ids) :
    Harmless current (notPermitted, current) :=
  ⟨.refl current, fun _ => rfl⟩

theorem harmless_accepted {next : Ids} (within : Within current next) :
    Harmless current (0, next) :=
  ⟨within, fun isRefused => nomatch (show (0 : Int) = -1 from isRefused)⟩

theorem Ids.notSuser (notRoot : current.euid ≠ 0) : current.suser = false :=
  beq_false_of_ne notRoot

/-- The real id stays what it is where it may be set at all. -/
theorem setGid_same {rgid : Int} (isGid : 0 < rgid → isId current.gid rgid = true) :
    (if 0 < rgid then { current with gid := .ofInt rgid } else current) =
      current := by
  split <;> rename_i given
  · rw [ofInt_of_isId (isGid given)]
  · rfl

theorem sysSetregid_harmless (notRoot : current.euid ≠ 0) (rgid egid : Int) :
    Harmless current (current.sysSetregid rgid egid) := by
  unfold Ids.sysSetregid
  rw [Ids.notSuser notRoot, Bool.or_false]
  split <;> rename_i denied
  · exact harmless_refused current
  · have isGid : 0 < rgid → isId current.gid rgid = true := not_denied denied
    rw [setGid_same isGid]
    dsimp only
    rw [Ids.notSuser notRoot, Bool.or_false]
    split <;> rename_i denied
    · exact harmless_refused current
    · apply harmless_accepted
      split <;> rename_i given
      · have isOwn : (isId current.gid egid || isId current.egid egid ||
            isId current.sgid egid) = true :=
          not_denied denied given
        rw [Bool.or_eq_true, Bool.or_eq_true] at isOwn
        refine ⟨.inl rfl, .inr rfl, .inl rfl, ?_, rfl⟩
        rcases isOwn with (isGid | isEgid) | isSgid
        · exact .inl (ofInt_of_isId isGid)
        · exact .inr (.inl (ofInt_of_isId isEgid))
        · exact .inr (.inr (ofInt_of_isId isSgid))
      · exact .refl current

theorem sysSetreuid_harmless (notRoot : current.euid ≠ 0) (ruid euid : Int) :
    Harmless current (current.sysSetreuid ruid euid) := by
  unfold Ids.sysSetreuid
  dsimp only
  rw [Ids.notSuser notRoot, Bool.or_false]
  split <;> rename_i denied
  · exact harmless_refused current
  · obtain ⟨uid, isUid, newUid⟩ : ∃ uid,
        (uid = current.uid ∨ uid = current.euid) ∧
          (if 0 < ruid then { current with uid := .ofInt ruid } else current) =
            { current with uid } := by
      split <;> rename_i given
      · have isOwn : (isId current.euid ruid || isId current.uid ruid) = true :=
          not_denied denied given
        refine ⟨.ofInt ruid, ?_, rfl⟩
        rcases Bool.or_eq_true_iff.mp isOwn with isEuid | isUid
        · exact .inr (ofInt_of_isId isEuid)
        · exact .inl (ofInt_of_isId isUid)
      · exact ⟨current.uid, .inl rfl, rfl⟩
    have notSuser : ({ current with uid } : Ids).suser = false :=
      Ids.notSuser notRoot
    rw [newUid, notSuser, Bool.or_false]
    dsimp only
    split <;> rename_i denied
    · exact harmless_refused current
    · apply harmless_accepted
      split <;> rename_i given
      · have isOwn : (isId current.uid euid || isId current.euid euid) = true :=
          not_denied denied given
        refine ⟨isUid, ?_, .inl rfl, .inr (.inl rfl), rfl⟩
        rcases Bool.or_eq_true_iff.mp isOwn with isUid | isEuid
        · exact .inl (ofInt_of_isId isUid)
        · exact .inr (ofInt_of_isId isEuid)
      · exact ⟨isUid, .inr rfl, .inl rfl, .inr (.inl rfl), rfl⟩

theorem SetIdCall.harmless (notRoot : current.euid ≠ 0) (call : SetIdCall) :
    Harmless current (call.perform current) := by
  cases call with
  | setuid uid => exact sysSetreuid_harmless notRoot uid uid
  | setreuid ruid euid => exact sysSetreuid_harmless notRoot ruid euid
  | setgid gid => exact sysSetregid_harmless notRoot gid gid
  | setregid rgid egid => exact sysSetregid_harmless notRoot rgid egid

end Calls

/-- Neither of the user ids becomes 0. -/
theorem Within.notRoot {start current : Ids} (within : Within start current)
    (realUser : start.uid ≠ 0) (effectiveUser : start.euid ≠ 0) :
    current.euid ≠ 0 := by
  rcases within.euid with same | same <;> rw [same]
  · exact realUser
  · exact effectiveUser

theorem afterCalls_within {start : Ids} (realUser : start.uid ≠ 0)
    (effectiveUser : start.euid ≠ 0) (calls : List SetIdCall) {current : Ids}
    (within : Within start current) : Within start (afterCalls calls current) := by
  induction calls generalizing current with
  | nil => exact within
  | cons call calls induction =>
      have notRoot := within.notRoot realUser effectiveUser
      exact induction (within.trans (call.harmless notRoot).within)

/-- After any calls of a process without privileges its ids are among those
it began with, and a call that is refused changes none of them. -/
theorem setIds_confined {start : Ids} (realUser : start.uid ≠ 0)
    (effectiveUser : start.euid ≠ 0) (calls : List SetIdCall) :
    Within start (afterCalls calls start) ∧
      ∀ call : SetIdCall,
        (call.perform (afterCalls calls start)).1 = notPermitted →
          (call.perform (afterCalls calls start)).2 = afterCalls calls start := by
  have within := afterCalls_within realUser effectiveUser calls (.refl start)
  have notRoot := within.notRoot realUser effectiveUser
  exact ⟨within, fun call => (call.harmless notRoot).refused⟩

/-- A process that runs a set-id program of user 5 and group 6. -/
def setIdProgram : Ids := ⟨10, 5, 5, 20, 6, 6⟩

theorem setIds_confined_swapped :
    afterCalls [.setreuid 5 10, .setregid 20 20] setIdProgram =
        ⟨5, 10, 5, 20, 20, 6⟩ ∧
      Within setIdProgram ⟨5, 10, 5, 20, 20, 6⟩ ∧
      (SetIdCall.setgid 6).perform ⟨5, 10, 5, 20, 20, 6⟩ =
        (notPermitted, ⟨5, 10, 5, 20, 20, 6⟩) := by
  have ran : afterCalls [.setreuid 5 10, .setregid 20 20] setIdProgram =
      ⟨5, 10, 5, 20, 20, 6⟩ := by rfl
  have confined := @setIds_confined setIdProgram (by decide) (by decide)
    [.setreuid 5 10, .setregid 20 20]
  rw [ran] at confined
  refine ⟨ran, confined.1, ?_⟩
  have isRefused : ((SetIdCall.setgid 6).perform ⟨5, 10, 5, 20, 20, 6⟩).1 =
      notPermitted := by rfl
  exact Prod.ext isRefused (confined.2 (.setgid 6) isRefused)

end Linux011.Proc
