import Linux011.Library.Machine

/-!
# Signals

The signal state of a process: the calls of `signal.c`, the choice of a
signal at `ret_from_sys_call` and its delivery by `do_signal`, and what
`fork` and `execve` do to that state.
-/

namespace Linux011.Sched

open Machines

def sigkill : Nat := 9

def sigalrm : Nat := 14

def sigchld : Nat := 17

def sigstop : Nat := 19

/-- `1 << (signum-1)`. -/
def signalBit (signum : Nat) : BitVec 32 := 1#32 <<< (signum - 1)

def saNomask : BitVec 32 := 0x40000000#32

def saOneshot : BitVec 32 := 0x80000000#32

structure Sigaction where
  saHandler : BitVec 32
  saMask : BitVec 32
  saFlags : BitVec 32
  saRestorer : BitVec 32

/-- What a task structure holds about signals; `exited` is the argument of
`do_exit` once that has been called. -/
structure Process where
  signal : BitVec 32
  sigaction : Nat → Sigaction
  blocked : BitVec 32
  exited : Option (BitVec 32)

/-- The registers `do_signal` saves or changes. -/
structure Frame where
  eax : BitVec 32
  ecx : BitVec 32
  edx : BitVec 32
  eflags : BitVec 32
  eip : BitVec 32
  esp : BitVec 32

namespace Process

/-- The part of `INIT_TASK` about signals. -/
def initTask : Process where
  signal := 0
  sigaction := fun _ => ⟨0, 0, 0, 0⟩
  blocked := 0
  exited := none

def setSigaction (process : Process) (slot : Nat) (action : Sigaction) :
    Process :=
  { process with
    sigaction := fun other =>
      if other = slot then action else process.sigaction other }

theorem setSigaction_sigaction (process : Process) (slot : Nat)
    (action : Sigaction) (other : Nat) :
    (process.setSigaction slot action).sigaction other =
      if other = slot then action else process.sigaction other := rfl

def sysSsetmask (process : Process) (newmask : BitVec 32) :
    BitVec 32 × Process :=
  (process.blocked,
    { process with blocked := newmask &&& ~~~ signalBit sigkill })

/-- The signals `sys_signal` and `sys_sigaction` refuse. -/
def refused (signum : Int) : Bool :=
  signum < 1 || 32 < signum || signum == sigkill

def sysSignal (process : Process) (signum : Int)
    (handler restorer : BitVec 32) : BitVec 32 × Process :=
  if refused signum then (-1, process)
  else
    let slot := signum.toNat - 1
    ((process.sigaction slot).saHandler,
      process.setSigaction slot
        ⟨handler, 0, saOneshot ||| saNomask, restorer⟩)

/-- `sys_sigaction`, which returns the old action to be copied out. -/
def sysSigaction (process : Process) (signum : Int) (action : Sigaction) :
    BitVec 32 × Option Sigaction × Process :=
  if refused signum then (-1, none, process)
  else
    let slot := signum.toNat - 1
    let mask :=
      if action.saFlags &&& saNomask ≠ 0 then 0
      else action.saMask ||| signalBit signum.toNat
    (0, some (process.sigaction slot),
      process.setSigaction slot { action with saMask := mask })

/-- `do_signal`: the process, the registers, and the words stored from the new
`esp` upwards. -/
def doSignal (process : Process) (signr : Nat) (frame : Frame) :
    Process × Frame × List (BitVec 32) :=
  let sa := process.sigaction (signr - 1)
  if sa.saHandler = 1 then (process, frame, [])
  else if sa.saHandler = 0 then
    if signr = sigchld then (process, frame, [])
    else
      ({ process with exited := some (signalBit signr) }, frame, [])
  else
    let oneshot :=
      if sa.saFlags &&& saOneshot ≠ 0 then
        process.setSigaction (signr - 1) { sa with saHandler := 0 }
      else process
    let saved :=
      if sa.saFlags &&& saNomask ≠ 0 then [] else [process.blocked]
    let words := [sa.saRestorer, BitVec.ofNat 32 signr] ++ saved ++
      [frame.eax, frame.ecx, frame.edx, frame.eflags, frame.eip]
    ({ oneshot with blocked := process.blocked ||| sa.saMask },
      { frame with
        eip := sa.saHandler
        esp := frame.esp - BitVec.ofNat 32 (4 * words.length) },
      words)

def deliverable (process : Process) : BitVec 32 :=
  process.signal &&& ~~~ process.blocked

/-- The signal `ret_from_sys_call` takes, by `bsfl`. -/
def selected (process : Process) : Option Nat :=
  ((List.range 32).find? process.deliverable.getLsbD).map (· + 1)

/-- `ret_from_sys_call` on the way to user mode. -/
def retFromSysCall (process : Process) (frame : Frame) :
    Process × Frame × List (BitVec 32) :=
  match process.selected with
  | none => (process, frame, [])
  | some signr =>
      { process with signal := process.signal &&& ~~~ signalBit signr }.doSignal
        signr frame

/-- The signal state `copy_process` gives the child. -/
def copyProcess (process : Process) : Process :=
  { process with signal := 0 }

/-- What `do_execve` does to the signal state. -/
def doExecve (process : Process) : Process :=
  { process with
    sigaction := fun slot =>
      if slot < 32 then { process.sigaction slot with saHandler := 0 }
      else process.sigaction slot }

end Process

/-- `post` stands for all that changes the pending signals: `kill`, alarms,
the death of children.  After `fork` the run goes on with the child. -/
inductive SignalAction where
  | ssetmask (newmask : BitVec 32)
  | signal (signum : Int) (handler restorer : BitVec 32)
  | sigaction (signum : Int) (action : Sigaction)
  | post (signal : BitVec 32)
  | retFromSysCall (frame : Frame)
  | fork
  | execve

/-- The signal state of a process and of its ancestors before it. -/
def signals : Machine Process SignalAction where
  step := fun process action =>
    if process.exited.isSome then none
    else some (match action with
      | .ssetmask newmask => (process.sysSsetmask newmask).2
      | .signal signum handler restorer =>
          (process.sysSignal signum handler restorer).2
      | .sigaction signum action => (process.sysSigaction signum action).2.2
      | .post signal => { process with signal }
      | .retFromSysCall frame => (process.retFromSysCall frame).1
      | .fork => process.copyProcess
      | .execve => process.doExecve)

namespace Process

/-- Nothing stands between the process and `SIGKILL`. -/
structure Killable (process : Process) : Prop where
  unblocked : process.blocked.getLsbD (sigkill - 1) = false
  uncaught : (process.sigaction (sigkill - 1)).saHandler = 0

theorem killable_initTask : initTask.Killable where
  unblocked := by decide
  uncaught := rfl

/-- The handler about to run, if any, was not installed with a mask that holds
`SIGKILL`. -/
def SparesKill (process : Process) : SignalAction → Prop
  | .retFromSysCall _ => ∀ signr ∈ process.selected,
      let sa := process.sigaction (signr - 1)
      sa.saHandler = 0 ∨ sa.saHandler = 1 ∨
        sa.saMask.getLsbD (sigkill - 1) = false
  | _ => True

instance (process : Process) (action : SignalAction) :
    Decidable (process.SparesKill action) :=
  match action with
  | .retFromSysCall _ =>
      match selected : process.selected with
      | none => .isTrue fun _ isSelected => by
          rw [selected] at isSelected
          cases isSelected
      | some signr =>
          decidable_of_iff ((process.sigaction (signr - 1)).saHandler = 0 ∨
            (process.sigaction (signr - 1)).saHandler = 1 ∨
            (process.sigaction (signr - 1)).saMask.getLsbD
              (sigkill - 1) = false) (by
            unfold SparesKill
            dsimp only
            rw [selected]
            simp only [Option.mem_some_iff, forall_eq'])
  | .ssetmask _ => .isTrue trivial
  | .signal _ _ _ => .isTrue trivial
  | .sigaction _ _ => .isTrue trivial
  | .post _ => .isTrue trivial
  | .fork => .isTrue trivial
  | .execve => .isTrue trivial

variable {process : Process}

theorem Killable.setSigaction (killable : process.Killable) {signum : Int}
    (accepted : refused signum = false) (action : Sigaction) :
    (process.setSigaction (signum.toNat - 1) action).Killable := by
  refine ⟨killable.unblocked, ?_⟩
  have different : sigkill - 1 ≠ signum.toNat - 1 := by
    simp only [refused, sigkill, Bool.or_eq_false_iff, decide_eq_false_iff_not,
      beq_eq_false_iff_ne] at accepted
    simp only [sigkill]
    omega
  rw [setSigaction_sigaction, if_neg different]
  exact killable.uncaught

theorem Killable.doSignal (killable : process.Killable) (signr : Nat)
    (frame : Frame)
    (spares : (process.sigaction (signr - 1)).saHandler = 0 ∨
      (process.sigaction (signr - 1)).saHandler = 1 ∨
      (process.sigaction (signr - 1)).saMask.getLsbD (sigkill - 1) = false) :
    (process.doSignal signr frame).1.Killable := by
  unfold Process.doSignal
  dsimp only
  split <;> rename_i isIgnored
  · exact killable
  · split <;> rename_i isDefault
    · split
      · exact killable
      · exact ⟨killable.unblocked, killable.uncaught⟩
    · have spared : (process.sigaction (signr - 1)).saMask.getLsbD
          (sigkill - 1) = false := by
        rcases spares with handler | handler | spared
        · exact (isDefault handler).elim
        · exact (isIgnored handler).elim
        · exact spared
      refine ⟨?_, ?_⟩
      · dsimp only
        rw [BitVec.getLsbD_or, killable.unblocked, spared, Bool.or_false]
      · dsimp only
        split
        · rw [setSigaction_sigaction]
          split
          · rfl
          · exact killable.uncaught
        · exact killable.uncaught

theorem Killable.step {action : SignalAction} {next : Process}
    (killable : process.Killable) (spares : process.SparesKill action)
    (steps : signals.step process action = some next) : next.Killable := by
  rw [signals] at steps
  dsimp only at steps
  split at steps
  · cases steps
  · rw [← Option.some.inj steps]
    cases action with
    | ssetmask newmask =>
        refine ⟨?_, killable.uncaught⟩
        have cleared : (~~~ signalBit sigkill).getLsbD (sigkill - 1) = false :=
          by decide
        show (newmask &&& ~~~ signalBit sigkill).getLsbD (sigkill - 1) = false
        rw [BitVec.getLsbD_and, cleared, Bool.and_false]
    | signal signum handler restorer =>
        dsimp only
        unfold sysSignal
        split <;> rename_i isRefused
        · exact killable
        · exact killable.setSigaction (eq_false_of_ne_true isRefused) _
    | sigaction signum action =>
        dsimp only
        unfold sysSigaction
        split <;> rename_i isRefused
        · exact killable
        · exact killable.setSigaction (eq_false_of_ne_true isRefused) _
    | post signal => exact ⟨killable.unblocked, killable.uncaught⟩
    | retFromSysCall frame =>
        dsimp only
        unfold retFromSysCall
        split <;> rename_i isSelected
        · exact killable
        · rename_i signr
          apply Killable.doSignal
          · exact ⟨killable.unblocked, killable.uncaught⟩
          · exact spares signr isSelected
    | fork => exact ⟨killable.unblocked, killable.uncaught⟩
    | execve =>
        refine ⟨killable.unblocked, ?_⟩
        have inside : sigkill - 1 < 32 := by decide
        unfold doExecve
        dsimp only
        rw [if_pos inside]

end Process

open Process

/-- As long as no handler runs that was installed with `SIGKILL` in its mask,
`SIGKILL` is neither blocked nor caught, and it is deliverable whenever it is
pending. -/
theorem sigkill_deliverable {process : Process}
    (reached : signals.Reachable SparesKill initTask process) :
    process.blocked.getLsbD (sigkill - 1) = false ∧
      (process.sigaction (sigkill - 1)).saHandler = 0 ∧
      (process.signal.getLsbD (sigkill - 1) = true →
        process.deliverable.getLsbD (sigkill - 1) = true) := by
  have killable : process.Killable :=
    reached.invariant killable_initTask fun _ _ _ killable spares steps =>
      killable.step spares steps
  refine ⟨killable.unblocked, killable.uncaught, ?_⟩
  intro pending
  have inside : sigkill - 1 < 32 := by decide
  rw [deliverable, BitVec.getLsbD_and, pending, BitVec.getLsbD_not,
    killable.unblocked, decide_eq_true inside]
  rfl

/-- A process that masks other signals and handles `SIGINT`. -/
theorem sigkill_deliverable_handled :
    ∃ process,
      signals.run SparesKill initTask
        [.ssetmask 0xffffffff, .ssetmask 0, .sigaction 2 ⟨0x1000, 4, 0, 0⟩,
          .post 2, .retFromSysCall ⟨0, 0, 0, 0, 0x200, 0x8000⟩, .fork,
          .post 0x100] = some process ∧
      process.blocked = 6 ∧
      process.deliverable.getLsbD (sigkill - 1) = true := by
  refine ⟨_, rfl, rfl, ?_⟩
  have runs : signals.run SparesKill initTask
      [.ssetmask 0xffffffff, .ssetmask 0, .sigaction 2 ⟨0x1000, 4, 0, 0⟩,
        .post 2, .retFromSysCall ⟨0, 0, 0, 0, 0x200, 0x8000⟩, .fork,
        .post 0x100] = some _ := rfl
  exact (sigkill_deliverable (Machine.reachable_of_run .start runs)).2.2 rfl

/-- A handler for `SIGINT` whose mask holds `SIGKILL` blocks it. -/
theorem sigkill_blocked :
    ∃ process,
      signals.run Machine.anything initTask
        [.sigaction 2 ⟨0x1000, 0x100, 0, 0⟩, .post 2,
          .retFromSysCall ⟨0, 0, 0, 0, 0x200, 0x8000⟩, .post 0x100] =
        some process ∧
      process.blocked.getLsbD (sigkill - 1) = true ∧
      process.selected = none := by
  exact ⟨_, rfl, by decide, by decide⟩

end Linux011.Sched
