import Linux011.Proc.Exit

/-!
# Fields of a task that others leave alone

`do_exit`, `sys_waitpid` and signals change the father, the signals, the state
and the times of other tasks, and take tasks out of the table.  Every other
field of a task that stays is as it was.
-/

namespace Linux011.Proc

open Linux011.Mm Linux011.Sched

/-- A field that these functions leave alone. -/
structure Own {κ : Type} (field : TaskStruct → κ) : Prop where
  father : ∀ p father, field { p with father } = field p
  signal : ∀ p signal, field { p with signal } = field p
  state : ∀ p state, field { p with state } = field p
  exitCode : ∀ p exitCode, field { p with exitCode } = field p
  times : ∀ p cutime cstime, field { p with cutime, cstime } = field p

theorem own_pid : Own TaskStruct.pid where
  father := fun _ _ => rfl
  signal := fun _ _ => rfl
  state := fun _ _ => rfl
  exitCode := fun _ _ => rfl
  times := fun _ _ _ => rfl

theorem own_tty : Own TaskStruct.tty where
  father := fun _ _ => rfl
  signal := fun _ _ => rfl
  state := fun _ _ => rfl
  exitCode := fun _ _ => rfl
  times := fun _ _ _ => rfl

/-- Each task was there before, with the same value of the field. -/
structure KeepsField {κ : Type} (field : TaskStruct → κ)
    (system next : System) : Prop where
  tasks : ∀ nr p, next.task nr = some p →
    ∃ q, system.task nr = some q ∧ field q = field p
  lastPid : next.lastPid = system.lastPid

variable {κ : Type} {field : TaskStruct → κ} {system middle next : System}

namespace KeepsField

theorem of_map {change : Nat → TaskStruct → TaskStruct}
    (keeps : ∀ nr p, field (change nr p) = field p)
    (mapped : ∀ nr, next.task nr = (system.task nr).map (change nr))
    (lastPid : next.lastPid = system.lastPid) :
    KeepsField field system next where
  tasks := by
    intro nr p isTask
    rw [mapped, Option.map_eq_some_iff] at isTask
    obtain ⟨q, isOld, rfl⟩ := isTask
    exact ⟨q, isOld, (keeps nr q).symm⟩
  lastPid := lastPid

theorem of_same (task : next.task = system.task)
    (lastPid : next.lastPid = system.lastPid) :
    KeepsField field system next where
  tasks := by
    rw [task]
    exact fun nr p isTask => ⟨p, isTask, rfl⟩
  lastPid := lastPid

theorem trans (first : KeepsField field system middle)
    (second : KeepsField field middle next) : KeepsField field system next where
  tasks := by
    intro nr p isTask
    obtain ⟨q, isMiddle, same⟩ := second.tasks nr p isTask
    obtain ⟨r, isOld, before⟩ := first.tasks nr q isMiddle
    exact ⟨r, isOld, before.trans same⟩
  lastPid := second.lastPid.trans first.lastPid

theorem setTask {nr : Nat} {slot : Option TaskStruct}
    (keeps : ∀ p, slot = some p →
      ∃ q, system.task nr = some q ∧ field q = field p) :
    KeepsField field system (system.setTask nr slot) where
  tasks := by
    intro other p isTask
    by_cases same : other = nr
    · subst same
      rw [System.setTask_same] at isTask
      exact keeps p isTask
    · rw [System.setTask_other same] at isTask
      exact ⟨p, isTask, rfl⟩
  lastPid := rfl

theorem onTask (nr : Nat) (change : TaskStruct → TaskStruct)
    (keeps : ∀ p, field (change p) = field p) :
    KeepsField field system (system.onTask nr change) := by
  apply setTask
  intro p isTask
  obtain ⟨q, isOld, rfl⟩ := Option.map_eq_some_iff.mp isTask
  exact ⟨q, isOld, (keeps q).symm⟩

end KeepsField

section Functions

variable {nr : Nat}

theorem release_keeps (ran : release nr system = .ok next) :
    KeepsField field system next := by
  unfold release at ran
  split at ran
  · cases ran
    exact .of_same rfl rfl
  · split at ran
    · cases ran
    · obtain ⟨memory, _, last⟩ := of_bind_ok ran
      cases last
      have removed : KeepsField field system (system.setTask nr none) := by
        apply KeepsField.setTask
        intro q absent
        cases absent
      exact removed.trans (.of_same rfl rfl)

theorem Own.raise (own : Own field) (sig : Nat) (p : TaskStruct) :
    field (raise sig p) = field p :=
  own.signal p _

theorem Own.tellFather (own : Own field) {pid : Int} {found : Bool}
    (ran : tellFather nr pid system = .ok (found, next)) :
    KeepsField field system next := by
  unfold Proc.tellFather at ran
  split at ran
  · cases ran
    exact .onTask _ _ (own.raise sigchld)
  · obtain ⟨released, ran, last⟩ := of_bind_ok ran
    cases last
    exact release_keeps ran

theorem Own.killSession (own : Own field) (session : Int) (system : System) :
    KeepsField field system (killSession session system) := by
  refine .of_map ?_ (fun _ => rfl) rfl
  intro nr p
  split
  · exact own.raise sighup p
  · rfl

theorem Own.adopt (own : Own field) (pid : Int) (system : System) (nr : Nat) :
    KeepsField field system (adopt pid system nr) := by
  unfold Proc.adopt
  split
  · exact .of_same rfl rfl
  · rename_i p isTask
    split
    · have fathered : KeepsField field system
          (system.setTask nr (some { p with father := 1 })) := by
        apply KeepsField.setTask
        intro q isNew
        cases isNew
        exact ⟨p, isTask, (own.father p 1).symm⟩
      dsimp only
      split
      · exact fathered.trans (.onTask 1 _ (own.raise sigchld))
      · exact fathered
    · exact .of_same rfl rfl

theorem Own.adoptAll (own : Own field) (pid : Int) (slots : List Nat)
    (system : System) :
    KeepsField field system (slots.foldl (Proc.adopt pid) system) := by
  induction slots generalizing system with
  | nil => exact .of_same rfl rfl
  | cons nr slots induction =>
      exact (own.adopt pid system nr).trans (induction _)

theorem Own.doExitBegin (own : Own field) {p : TaskStruct}
    (ran : doExitBegin p system = .ok next) : KeepsField field system next := by
  unfold Proc.doExitBegin at ran
  obtain ⟨code, _, rest⟩ := of_bind_ok ran
  obtain ⟨memory, _, last⟩ := of_bind_ok rest
  cases last
  have freed : KeepsField field system { system with memory } :=
    .of_same rfl rfl
  exact freed.trans (own.adoptAll p.pid _ _)

theorem Own.doExitEnd (own : Own field) {p : TaskStruct} {code : Int}
    {found : Bool} (ran : doExitEnd nr p code system = .ok (found, next)) :
    KeepsField field system next := by
  unfold Proc.doExitEnd at ran
  dsimp only at ran
  have signalled : KeepsField field system
      (if p.leader = true then Proc.killSession p.session system
        else system) := by
    split
    · exact own.killSession p.session system
    · exact .of_same rfl rfl
  have ended (p : TaskStruct) :
      field { p with state := .zombie, exitCode := code } = field p :=
    (own.exitCode { p with state := .zombie } code).trans
      (own.state p .zombie)
  exact (signalled.trans (.onTask nr _ ended)).trans (own.tellFather ran)

theorem Own.sysWaitpid (own : Own field) {me : TaskStruct} {pid : Int}
    {options : BitVec 32} {outcome : Waited}
    (ran : sysWaitpid nr me pid options system = .ok (outcome, next)) :
    KeepsField field system next := by
  unfold Proc.sysWaitpid at ran
  split at ran
  · cases ran
    exact .of_same rfl rfl
  · obtain ⟨released, ran, last⟩ := of_bind_ok ran
    cases last
    refine KeepsField.trans ?_ (release_keeps ran)
    exact .onTask nr _ fun me => own.times me _ _
  · split at ran
    · cases ran
      exact .of_same rfl rfl
    · cases ran
      exact .onTask nr _ fun me => own.state me _
  · cases ran
    exact .of_same rfl rfl

theorem Own.resumeWaitpid (own : Own field) {me : TaskStruct} {pid : Int}
    {options : BitVec 32} {outcome : Waited}
    (isMe : system.task nr = some me)
    (ran : resumeWaitpid nr me pid options system = .ok (outcome, next)) :
    KeepsField field system next := by
  unfold Proc.resumeWaitpid at ran
  dsimp only at ran
  have woken : KeepsField field system (system.setTask nr
      (some { me with signal := me.signal &&& ~~~ signalBit sigchld })) := by
    apply KeepsField.setTask
    intro p isNew
    cases isNew
    exact ⟨me, isMe, (own.signal me _).symm⟩
  split at ran
  · exact woken.trans (own.sysWaitpid ran)
  · cases ran
    exact woken

end Functions

end Linux011.Proc
