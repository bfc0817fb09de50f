import Linux011.Fs.DirectoryChanges

/-!
# The names in the directories, over any run

A call that adds a name stores it without looking again.  The names stay apart
if it does not store where another call has looked already.
-/

namespace Linux011.Fs

open Machines Machine

/-- What is left out of a search does not matter to it.  A block that
`find_entry` cannot read does not have the name; one that `add_entry` cannot
read is not the last one; and the entry is not stored where another call that
is to add the name does not look any more. -/
def Users.OverlooksNothing (users : Users) : TreeAction → Prop
  | .call _ _ => True
  | .go task outcome =>
      match users.tasks task with
      | .seeking call _ _ block =>
          outcome.fails = true ∧ 7 ≤ block →
            users.tree.Passed call (leftOut block)
      | .reading call _ _ block _ =>
          outcome.fails = true → users.tree.Passed call (leftOut block)
      | .loading call _ block zone =>
          (outcome.fails = true → 0 < block →
            (block + 1) * dirEntriesPerBlock ≤
              (users.tree.dirs call.dir).entries) ∧
          (outcome.fails = false → ∀ index,
            users.tree.firstFree call.dir block zone = some index →
              users.Stores task call (block * dirEntriesPerBlock + index) zone)
      | _ => True

section Step

variable {users : Users} {task : Nat}

theorem seeking_leads (sound : users.Sound) {outcome : Outcome} {call : Call}
    {wanted : List UInt8} {entries block : Nat}
    (isSeeking : users.tasks task = .seeking call wanted entries block)
    (unread : outcome.fails = true ∧ 7 ≤ block →
      users.tree.Passed call (leftOut block)) :
    Leads users task
      (users.tree.go outcome (.seeking call wanted entries block)) := by
  have isOk := sound.phases task
  have unmissed := sound.unmissed task
  rw [isSeeking] at isOk unmissed
  obtain ⟨working, looksFor⟩ := isOk
  have passed : users.tree.Passed call (beyond entries block) := by
    intro creates notDotDot hasFirst slot isSlot
    exact unmissed call.dir slot call.wanted notDotDot hasFirst
      ⟨⟨creates, rfl, rfl⟩, isSlot⟩
  unfold Tree.go
  dsimp only
  split <;> rename_i fails
  · apply skip_leads sound working looksFor
    rintro creates notDotDot hasFirst slot (isBeyond | isLeft)
    · exact passed creates notDotDot hasFirst slot isBeyond
    · exact unread fails creates notDotDot hasFirst slot isLeft
  · exact seek_leads sound working looksFor passed

theorem go_leads (sound : users.Sound) {outcome : Outcome}
    (allowed : users.OverlooksNothing (.go task outcome)) :
    Leads users task (users.tree.go outcome (users.tasks task)) := by
  have isOk := sound.phases task
  unfold Users.OverlooksNothing at allowed
  dsimp only at allowed
  cases inPhase : users.tasks task with
  | idle => exact leads_none
  | exchanging call entries covered =>
      rw [inPhase] at isOk
      obtain ⟨proper, known, isDotDot⟩ := isOk
      exact seek_leads sound ⟨proper, known⟩ (.inl rfl)
        fun _ notDotDot => (notDotDot isDotDot).elim
  | seeking call wanted entries block =>
      rw [inPhase] at allowed
      exact seeking_leads sound inPhase allowed
  | reading call wanted entries block zone =>
      rw [inPhase] at allowed
      exact read_leads sound inPhase allowed
  | allocating call => exact allocate_leads sound inPhase
  | building call number => exact build_leads sound inPhase
  | filling call number zone => exact fill_leads sound inPhase
  | mapping call number block => exact map_leads sound inPhase
  | creating call number block => exact create_leads sound inPhase
  | loading call number block zone =>
      rw [inPhase] at allowed
      exact load_leads sound inPhase allowed.1 allowed.2
  | removing zone index =>
      apply leads_some
      apply idle_may
      exact ⟨remove_shape sound.shape, fun _ _ => remove_bears _⟩

theorem effect_leads (sound : users.Sound) {action : TreeAction}
    (allowed : users.OverlooksNothing action) :
    Leads users action.task (users.effect action) := by
  cases action with
  | call task call =>
      unfold Users.effect
      dsimp only
      split
      · split <;> rename_i starts
        · exact searchStarts_leads sound ⟨starts.1, starts.2⟩
        · exact leads_none
      · exact leads_none
  | go task outcome => exact go_leads sound allowed

/-- A step keeps the invariant. -/
theorem Users.Sound.step (sound : users.Sound) {action : TreeAction}
    {next : Users} (allowed : users.OverlooksNothing action)
    (steps : treeMachine.step users action = some next) : next.Sound := by
  have leads := effect_leads sound allowed
  unfold treeMachine at steps
  dsimp only at steps
  split at steps
  · cases steps
  · rename_i tree phase effect
    cases steps
    exact sound.enter (leads tree phase effect)

end Step

/-- At the start no task is in a call. -/
theorem Users.Sound.start {users : Users}
    (idle : ∀ task, users.tasks task = .idle) (shape : users.tree.Shape) :
    users.Sound where
  shape := shape
  phases := fun task => idle task ▸ trivial
  unmissed := fun task => idle task ▸ fun _ _ _ _ _ misses => misses.elim
  apart := by
    intro first second _
    rw [idle first]
    exact (apart_plain rfl rfl rfl _).1

theorem directories_noDuplicates {start state : Users}
    (idle : ∀ task, start.tasks task = .idle) (shape : start.tree.Shape)
    (reached : treeMachine.Reachable Users.OverlooksNothing start state) :
    state.tree.NoDuplicates := by
  have kept (users : Users) (action : TreeAction) (next : Users)
      (sound : users.Sound) (allowed : users.OverlooksNothing action)
      (steps : treeMachine.step users action = some next) : next.Sound :=
    sound.step allowed steps
  exact (reached.invariant (Users.Sound.start idle shape) kept).shape.unique

/-! ## A directory with nothing in it -/

/-- Directory 1 with `.` and `..` in zone 10, and nobody about. -/
def oneDirectory : Users where
  tree :=
    let bare : Tree :=
      { dirs := fun _ => ⟨0, fun _ => 0⟩
        data := fun _ _ => .empty
        allocated := fun zone => zone == 10
        taken := fun number => number == 1
        known := fun number => number == 1
        covers := fun _ => none }
    bare.makeDir 1 1 10
  tasks := fun _ => .idle

theorem oneDirectory_shape : oneDirectory.tree.Shape := by
  apply makeDir_shape
  case taken => rfl
  case unused => exact fun _ _ same => by cases same
  case allocated => rfl
  case shape =>
    constructor
    case allocated => exact fun _ _ isBlock => (isBlock rfl).elim
    case sole => exact fun _ _ _ _ isBlock => (isBlock rfl).elim
    case covers => exact fun _ _ isMount => by cases isMount
    case unknown => exact fun _ untaken => ⟨untaken, fun _ => rfl⟩
    case unique => exact fun _ _ _ _ named => (named.isBlock rfl).elim

/-- `open` with `O_CREAT` of a name in directory 1. -/
def openX : Call := ⟨.openCreate, 1, 1, [120], 0⟩

/-- Nothing fails, and the inode given out is 7. -/
def goesWell : Outcome := ⟨false, 7, false, fun _ => false⟩

/-- A run in which the name is added. -/
theorem openX_reachable :
    ∃ state, treeMachine.Reachable Users.OverlooksNothing oneDirectory state ∧
      state.tree.Named 1 2 [120] := by
  refine ⟨_, .step (.go 0 goesWell) (.step (.go 0 goesWell)
    (.step (.go 0 goesWell) (.step (.call 0 openX) .start trivial rfl)
      ?reads rfl) trivial rfl) ?stores rfl, ?named⟩
  case reads => exact fun fails => by cases fails
  case stores =>
    refine ⟨fun fails => by (cases fails), fun _ index _ => ?_⟩
    constructor
    case notDotDot => exact fun isDotDot => by cases isDotDot
    case seen =>
      intro other isOther misses
      simp only [TreeAction.task, isOther, if_false] at misses
      exact misses
  case named => exact ⟨by decide, by decide, by decide, by decide⟩

theorem directories_noDuplicates_openX :
    ∃ state, treeMachine.Reachable Users.OverlooksNothing oneDirectory state ∧
      state.tree.Named 1 2 [120] ∧ state.tree.NoDuplicates := by
  obtain ⟨state, reached, named⟩ := openX_reachable
  exact ⟨state, reached, named,
    directories_noDuplicates (fun _ => rfl) oneDirectory_shape reached⟩

/-- Two tasks open the name; each is in `new_inode` when the other has
searched the directory. -/
def bothOpen : List TreeAction :=
  [.call 0 openX, .call 1 openX, .go 0 goesWell, .go 1 goesWell,
    .go 0 goesWell, .go 1 goesWell, .go 0 goesWell, .go 1 goesWell]

theorem directories_duplicate :
    (∀ task, oneDirectory.tasks task = .idle) ∧ oneDirectory.tree.Shape ∧
      ∃ state, treeMachine.Reachable anything oneDirectory state ∧
        ¬state.tree.NoDuplicates := by
  obtain ⟨state, runs, isFirst, isSecond⟩ :
      ∃ state, treeMachine.run anything oneDirectory bothOpen = some state ∧
        state.tree.Named 1 2 [120] ∧ state.tree.Named 1 3 [120] :=
    ⟨_, rfl, ⟨by decide, by decide, by decide, by decide⟩,
      ⟨by decide, by decide, by decide, by decide⟩⟩
  refine ⟨fun _ => rfl, oneDirectory_shape, state,
    reachable_of_run .start runs, fun unique => ?_⟩
  have same := unique 1 [120] 2 3 isFirst isSecond
  cases same

end Linux011.Fs
