import Linux011.Fs.DirectoryRuns

/-!
# The entry that `sys_unlink` clears

`sys_unlink` and `sys_rmdir` keep a pointer to the entry they have found while
they sleep, in `iget` and in `empty_dir`, and do not look at it again before
they clear it.  `found` records the inode that the entry had when it was
found, which is the one that loses a link.
-/

namespace Linux011.Fs

open Machines Machine

/-- The file system, its tasks, and the inode each removal has asked for. -/
structure Removals where
  users : Users
  found : Nat → Nat

/-- A task that has just found its entry passes its inode to `iget`. -/
def removalMachine : Machine Removals TreeAction where
  step := fun state action =>
    match treeMachine.step state.users action with
    | none => none
    | some users =>
        some
          { users
            found := fun task =>
              match users.tasks task with
              | .removing zone index =>
                  if task = action.task then (users.tree.data zone index).inode
                  else state.found task
              | _ => state.found task }

/-- Every removal that is to clear an entry clears the one it has found. -/
def Removals.ClearsFound (state : Removals) : Prop :=
  ∀ task zone index, state.users.tasks task = .removing zone index →
    (state.users.tree.data zone index).inode = state.found task

/-- The step stores or clears this entry. -/
def Users.Writes (users : Users) (task : Nat) (outcome : Outcome)
    (zone index : Nat) : Prop :=
  match users.tasks task with
  | .loading call _ block own =>
      outcome.fails = false ∧ own = zone ∧
        users.tree.firstFree call.dir block own = some index
  | .removing own cell => outcome.fails = false ∧ own = zone ∧ cell = index
  | _ => False

/-- No entry is stored or cleared that another task has found and is about to
clear. -/
def Removals.Spares (state : Removals) : TreeAction → Prop
  | .call _ _ => True
  | .go task outcome =>
      ∀ other zone index, other ≠ task →
        state.users.tasks other = .removing zone index →
          ¬ state.users.Writes task outcome zone index

/-! ## Zones in use -/

/-- What is in use is allocated; the zone of a directory that is being made is
its maker's alone. -/
structure Users.Held (users : Users) : Prop where
  dirs : ∀ dir block, (users.tree.dirs dir).zone block ≠ 0 →
    users.tree.allocated ((users.tree.dirs dir).zone block) = true
  zones : ∀ task zone, (users.tasks task).zone? = some zone →
    users.tree.allocated zone = true
  makers : ∀ task zone, (users.tasks task).fills = some zone → zone ≠ 0 ∧
    (∀ dir block, (users.tree.dirs dir).zone block ≠ zone) ∧
      ∀ other, other ≠ task → (users.tasks other).zone? ≠ some zone

/-- What the step of a task leaves to the others. -/
structure Spared (users : Users) (task : Nat) (next : Tree) : Prop where
  dirs : ∀ dir block, (next.dirs dir).zone block ≠ 0 →
    next.allocated ((next.dirs dir).zone block) = true
  zones : ∀ other zone, other ≠ task →
    (users.tasks other).zone? = some zone → next.allocated zone = true
  makers : ∀ other zone, other ≠ task →
    (users.tasks other).fills = some zone →
      ∀ dir block, (next.dirs dir).zone block ≠ zone
  entries : ∀ other zone index, other ≠ task →
    users.tasks other = .removing zone index →
      (next.data zone index).inode = (users.tree.data zone index).inode

/-- The new phase of the task as well. -/
structure Enters (users : Users) (task : Nat) (next : Tree) (phase : Phase) :
    Prop where
  spared : Spared users task next
  zone : ∀ zone, phase.zone? = some zone → next.allocated zone = true ∧
    ∀ other, other ≠ task → (users.tasks other).fills ≠ some zone
  makes : ∀ zone, phase.fills = some zone → zone ≠ 0 ∧
    (∀ dir block, (next.dirs dir).zone block ≠ zone) ∧
      ∀ other, other ≠ task → (users.tasks other).zone? ≠ some zone

/-- Whatever the task does, it may do. -/
def Spares (users : Users) (task : Nat) (effect : Option (Tree × Phase)) :
    Prop :=
  ∀ next phase, effect = some (next, phase) → Enters users task next phase

section Step

variable {users : Users} {task : Nat} {next : Tree} {call : Call}

theorem Users.Held.same (held : users.Held) (task : Nat) :
    Spared users task users.tree where
  dirs := held.dirs
  zones := fun other zone _ => held.zones other zone
  makers := fun other zone _ isMaker => (held.makers other zone isMaker).2.1
  entries := fun _ _ _ _ _ => rfl

theorem spares_none : Spares users task none := by
  intro _ _ impossible
  cases impossible

/-- A phase without a zone. -/
theorem spares_plain {phase : Phase} (spared : Spared users task next)
    (noZone : phase.zone? = none) (noMaker : phase.fills = none) :
    Spares users task (some (next, phase)) := by
  rintro _ _ ⟨⟩
  refine ⟨spared, ?_, ?_⟩
  · intro zone isZone
    rw [noZone] at isZone
    cases isZone
  · intro zone isMaker
    rw [noMaker] at isMaker
    cases isMaker

/-- A phase with the zone of a block. -/
theorem spares_block {phase : Phase} {dir block : Nat}
    (spared : Spared users task next)
    (isBlock : (next.dirs dir).zone block ≠ 0)
    (isZone : phase.zone? = some ((next.dirs dir).zone block))
    (noMaker : phase.fills = none) :
    Spares users task (some (next, phase)) := by
  rintro _ _ ⟨⟩
  refine ⟨spared, ?_, ?_⟩
  · intro zone same
    rw [isZone, Option.some.injEq] at same
    subst same
    refine ⟨spared.dirs dir block isBlock, ?_⟩
    intro other isOther isMaker
    exact spared.makers other _ isOther isMaker dir block rfl
  · intro zone isMaker
    rw [noMaker] at isMaker
    cases isMaker

/-! ## The functions of `namei.c` -/

theorem addFails_spares (spared : Spared users task next) :
    Spares users task (next.addFails call) := by
  unfold Tree.addFails
  split
  · exact spares_none
  · exact spares_plain spared rfl rfl

theorem addStarts_spares (spared : Spared users task next) (number : Nat) :
    Spares users task (next.addStarts call number) := by
  unfold Tree.addStarts
  dsimp only
  split <;> rename_i isBlock
  · exact addFails_spares spared
  · exact spares_block spared isBlock rfl rfl

section Search

variable {wanted : List UInt8} {entries block : Nat}

theorem searchFails_spares (held : users.Held) :
    Spares users task (users.tree.searchFails call) := by
  unfold Tree.searchFails
  split
  · exact spares_plain (held.same task) rfl rfl
  · exact addStarts_spares (held.same task) _
  · exact spares_plain (held.same task) rfl rfl

theorem searchOn_spares (held : users.Held) :
    Spares users task (users.tree.searchOn call wanted entries block) := by
  unfold Tree.searchOn
  split
  · exact spares_plain (held.same task) rfl rfl
  · exact searchFails_spares held

theorem skip_spares (held : users.Held) :
    Spares users task (users.tree.skip call wanted entries block) := by
  unfold Tree.skip
  split
  · exact searchFails_spares held
  · exact searchOn_spares held

theorem seek_spares (held : users.Held) :
    Spares users task (users.tree.seek call wanted entries block) := by
  unfold Tree.seek
  dsimp only
  split <;> rename_i isBlock
  · exact skip_spares held
  · exact spares_block (held.same task) isBlock rfl rfl

theorem searchStarts_spares (held : users.Held) :
    Spares users task (users.tree.searchStarts call) := by
  unfold Tree.searchStarts
  dsimp only
  split
  · split
    · exact seek_spares held
    · split
      · exact spares_plain (held.same task) rfl rfl
      · exact seek_spares held
  · exact seek_spares held

theorem read_spares (held : users.Held) {outcome : Outcome} {zone : Nat}
    (isReading : users.tasks task = .reading call wanted entries block zone) :
    Spares users task
      (users.tree.read outcome call wanted entries block zone) := by
  unfold Tree.read
  split
  · exact skip_spares held
  · split
    · exact searchOn_spares held
    · split
      · -- the entry is in the zone that has been read
        rintro _ _ ⟨⟩
        refine ⟨held.same task, ?_, ?_⟩
        · rintro _ ⟨⟩
          have own : (users.tasks task).zone? = some zone := by
            rw [isReading]
            rfl
          refine ⟨held.zones task zone own, ?_⟩
          intro other isOther isMaker
          exact (held.makers other zone isMaker).2.2 task isOther.symm own
        · intro _ impossible
          cases impossible
      · exact spares_plain (held.same task) rfl rfl

end Search

section Zones

variable {zone : Nat}

/-- Nobody uses a zone that is not allocated. -/
theorem Users.Held.unused (held : users.Held) (notZero : zone ≠ 0)
    (free : users.tree.allocated zone = false) :
    (∀ dir block, (users.tree.dirs dir).zone block ≠ zone) ∧
      ∀ other, (users.tasks other).zone? ≠ some zone := by
  constructor
  · rintro dir block rfl
    have isAllocated := held.dirs dir block notZero
    rw [free] at isAllocated
    cases isAllocated
  · intro other isZone
    have isAllocated := held.zones other zone isZone
    rw [free] at isAllocated
    cases isAllocated

theorem fills_zone {phase : Phase} (isMaker : phase.fills = some zone) :
    phase.zone? = some zone := by
  cases phase <;> first | exact isMaker | cases isMaker

theorem newBlock_spared (held : users.Held)
    (isNew : users.tree.newBlock zone = some next) :
    Spared users task next ∧ zone ≠ 0 ∧
      users.tree.allocated zone = false ∧ next.allocated zone = true ∧
      next.dirs = users.tree.dirs := by
  unfold Tree.newBlock at isNew
  split at isNew <;> rename_i refused
  · cases isNew
  · obtain ⟨notZero, notTrue⟩ := not_or.mp refused
    have free := Bool.eq_false_iff.mpr notTrue
    obtain ⟨noDir, noTask⟩ := held.unused notZero free
    cases isNew
    have allocated {other : Nat} (already : users.tree.allocated other = true) :
        (if other = zone then true else users.tree.allocated other) = true := by
      rw [already]
      exact ite_self true
    refine ⟨⟨?_, ?_, ?_, ?_⟩, notZero, free, if_pos rfl, rfl⟩
    · intro dir block isBlock
      exact allocated (held.dirs dir block isBlock)
    · intro other own _ isZone
      exact allocated (held.zones other own isZone)
    · intro other own _ isMaker
      exact (held.makers other own isMaker).2.1
    · intro other own index _ isRemoving
      have different : own ≠ zone := by
        rintro rfl
        apply noTask other
        rw [isRemoving]
        rfl
      exact congrArg (fun entries : Nat → DirEntry => (entries index).inode)
        (if_neg different)

theorem Spared.setTaken (spared : Spared users task next) (number : Nat)
    (value : Bool) : Spared users task (next.setTaken number value) :=
  ⟨spared.dirs, spared.zones, spared.makers, spared.entries⟩

theorem Spared.loseBlocks (held : users.Held)
    (spared : Spared users task next) (dir block : Nat)
    (hidden : Nat → Bool) :
    Spared users task (next.loseBlocks dir block hidden) := by
  refine ⟨?_, spared.zones, ?_, spared.entries⟩
  · intro own other isBlock
    have same := loseBlocks_kept isBlock
    rw [same] at isBlock ⊢
    exact spared.dirs own other isBlock
  · rintro maker zone isOther isMaker own other rfl
    have notZero := (held.makers maker _ isMaker).1
    exact spared.makers maker _ isOther isMaker own other
      (loseBlocks_kept notZero).symm

theorem Spared.setBlock (spared : Spared users task next) {dir block : Nat}
    (isAllocated : next.allocated zone = true)
    (noMaker : ∀ other, other ≠ task → (users.tasks other).fills ≠ some zone) :
    Spared users task (next.setBlock dir block zone) := by
  refine ⟨?_, spared.zones, ?_, spared.entries⟩
  · intro own other isBlock
    rw [setBlock_zone] at isBlock ⊢
    split at isBlock <;> rename_i here
    · rw [if_pos here]
      exact isAllocated
    · rw [if_neg here]
      exact spared.dirs own other isBlock
  · intro maker made isOther isMaker own other
    rw [setBlock_zone]
    split
    · rintro rfl
      exact noMaker maker isOther isMaker
    · exact spared.makers maker made isOther isMaker own other

end Zones

section Calls

variable {outcome : Outcome} {number block zone : Nat}

theorem create_spares (held : users.Held) :
    Spares users task (users.tree.create outcome call number block) := by
  unfold Tree.create
  dsimp only
  split
  · exact addFails_spares ((held.same task).loseBlocks held _ _ _)
  · split <;> rename_i isNew
    · exact spares_none
    · rename_i tree
      obtain ⟨spared, notZero, free, isAllocated, _⟩ :=
        @newBlock_spared users task tree _ held isNew
      obtain ⟨_, noTask⟩ := held.unused notZero free
      split
      · exact spares_plain (spared.loseBlocks held _ _ _) rfl rfl
      · have noMaker (other : Nat) :
            (users.tasks other).fills ≠ some outcome.fresh :=
          fun isMaker => noTask other (fills_zone isMaker)
        have isBlock : ((tree.setBlock call.dir block outcome.fresh).dirs
            call.dir).zone block = outcome.fresh := by
          rw [setBlock_zone, if_pos ⟨rfl, rfl⟩]
        refine spares_block (spared.setBlock isAllocated fun other _ =>
          noMaker other) ?_ (congrArg some isBlock.symm) rfl
        rw [isBlock]
        exact notZero

theorem map_spares (held : users.Held) :
    Spares users task (users.tree.map outcome call number block) := by
  unfold Tree.map
  dsimp only
  split
  · exact addFails_spares (held.same task)
  · split <;> rename_i isBlock
    · exact spares_plain (held.same task) rfl rfl
    · exact spares_block (held.same task) isBlock rfl rfl

theorem allocate_spares (held : users.Held) :
    Spares users task (users.tree.allocate outcome call) := by
  unfold Tree.allocate
  split
  · exact spares_plain (held.same task) rfl rfl
  · dsimp only
    split
    · split
      · exact spares_none
      · exact spares_plain ((held.same task).setTaken _ _) rfl rfl
    · exact addStarts_spares (held.same task) _

theorem build_spares (held : users.Held) :
    Spares users task (users.tree.build outcome call number) := by
  unfold Tree.build
  dsimp only
  split
  · exact spares_plain ((held.same task).setTaken _ _) rfl rfl
  · split <;> rename_i isNew
    · exact spares_none
    · rename_i tree
      obtain ⟨spared, notZero, free, isAllocated, sameDirs⟩ :=
        @newBlock_spared users task tree _ held isNew
      obtain ⟨noDir, noTask⟩ := held.unused notZero free
      rintro _ _ ⟨⟩
      refine ⟨spared, ?_, ?_⟩
      · rintro _ ⟨⟩
        exact ⟨isAllocated, fun other _ isMaker =>
          noTask other (fills_zone isMaker)⟩
      · rintro _ ⟨⟩
        refine ⟨notZero, ?_, fun other _ => noTask other⟩
        rw [sameDirs]
        exact noDir

theorem fill_spares (held : users.Held)
    (isFilling : users.tasks task = .filling call number zone) :
    Spares users task (users.tree.fill outcome call number zone) := by
  have makes : (users.tasks task).fills = some zone := by
    rw [isFilling]
    rfl
  obtain ⟨notZero, noDir, noOther⟩ := held.makers task zone makes
  unfold Tree.fill
  split
  · -- the zone is freed, which is nobody else's
    refine spares_plain ⟨?_, ?_, ?_, fun _ _ _ _ _ => rfl⟩ rfl rfl
    · intro dir block isBlock
      exact (if_neg (noDir dir block)).trans (held.dirs dir block isBlock)
    · intro other own isOther isZone
      have different : own ≠ zone := by
        rintro rfl
        exact noOther other isOther isZone
      exact (if_neg different).trans (held.zones other own isZone)
    · exact fun other own _ isMaker => (held.makers other own isMaker).2.1
  · apply addStarts_spares
    refine ⟨?_, fun other own _ => held.zones other own, ?_, ?_⟩
    · intro dir block isBlock
      rw [makeDir_dirs] at isBlock ⊢
      split at isBlock <;> rename_i isDir
      · dsimp only at isBlock
        rw [if_pos isDir]
        dsimp only
        split at isBlock <;> rename_i isFirst
        · rw [if_pos isFirst]
          exact held.zones task zone (fills_zone makes)
        · exact (isBlock rfl).elim
      · rw [if_neg isDir]
        exact held.dirs dir block isBlock
    · intro other own isOther isMaker dir block
      obtain ⟨ownNotZero, ownNoDir, _⟩ := held.makers other own isMaker
      rw [makeDir_dirs]
      split
      · dsimp only
        split
        · rintro rfl
          exact noOther other isOther (fills_zone isMaker)
        · exact ownNotZero.symm
      · exact ownNoDir dir block
    · intro other own index isOther isRemoving
      have different : own ≠ zone := by
        rintro rfl
        apply noOther other isOther
        rw [isRemoving]
        rfl
      rw [makeDir_data _ different]

theorem load_spares (held : users.Held)
    (isLoading : users.tasks task = .loading call number block zone)
    (spares : ∀ other own index, other ≠ task →
      users.tasks other = .removing own index →
        ¬ users.Writes task outcome own index) :
    Spares users task (users.tree.load outcome call number block zone) := by
  unfold Tree.load
  split <;> rename_i fails
  · split
    · exact addFails_spares (held.same task)
    · exact spares_plain (held.same task) rfl rfl
  · split <;> rename_i isFirst
    · exact spares_plain (held.same task) rfl rfl
    · obtain ⟨sameAllocated, _⟩ :=
        store_maps users.tree call number block zone (by assumption)
      refine spares_plain ⟨?_, ?_, ?_, ?_⟩ rfl rfl
      · intro dir other isBlock
        rw [store_zone] at isBlock ⊢
        rw [sameAllocated]
        exact held.dirs dir other isBlock
      · intro other own _ isZone
        rw [sameAllocated]
        exact held.zones other own isZone
      · intro other own _ isMaker dir otherBlock
        rw [store_zone]
        exact (held.makers other own isMaker).2.1 dir otherBlock
      · intro other own cell isOther isRemoving
        rw [store_data, if_neg]
        rintro ⟨rfl, rfl⟩
        apply spares other _ _ isOther isRemoving
        unfold Users.Writes
        rw [isLoading]
        exact ⟨Bool.eq_false_iff.mpr fails, rfl, isFirst⟩

theorem remove_spares (held : users.Held) {index : Nat}
    (isRemoving : users.tasks task = .removing zone index)
    (spares : ∀ other own index, other ≠ task →
      users.tasks other = .removing own index →
        ¬ users.Writes task outcome own index) :
    Spares users task (some (users.tree.remove outcome zone index, .idle)) := by
  unfold Tree.remove
  split <;> rename_i fails
  · exact spares_plain (held.same task) rfl rfl
  · refine spares_plain ⟨held.dirs, fun other own _ => held.zones other own,
      fun other own _ isMaker => (held.makers other own isMaker).2.1, ?_⟩ rfl
        rfl
    intro other own cell isOther otherRemoving
    have elsewhere : ¬ (own = zone ∧ cell = index) := by
      rintro ⟨rfl, rfl⟩
      apply spares other _ _ isOther otherRemoving
      unfold Users.Writes
      rw [isRemoving]
      exact ⟨Bool.eq_false_iff.mpr fails, rfl, rfl⟩
    unfold Tree.setData
    dsimp only
    split <;> rename_i isZone
    · dsimp only
      rw [if_neg fun isCell => elsewhere ⟨isZone, isCell⟩, isZone]
    · rfl

end Calls

theorem go_spares (held : users.Held) {outcome : Outcome}
    (spares : ∀ other zone index, other ≠ task →
      users.tasks other = .removing zone index →
        ¬ users.Writes task outcome zone index) :
    Spares users task (users.tree.go outcome (users.tasks task)) := by
  cases inPhase : users.tasks task with
  | idle => exact spares_none
  | exchanging call entries covered => exact seek_spares held
  | seeking call wanted entries block =>
      unfold Tree.go
      dsimp only
      split
      · exact skip_spares held
      · exact seek_spares held
  | reading call wanted entries block zone => exact read_spares held inPhase
  | allocating call => exact allocate_spares held
  | building call number => exact build_spares held
  | filling call number zone => exact fill_spares held inPhase
  | mapping call number block => exact map_spares held
  | creating call number block => exact create_spares held
  | loading call number block zone => exact load_spares held inPhase spares
  | removing zone index => exact remove_spares held inPhase spares

end Step

/-! ## Whole runs -/

section Runs

variable {state next : Removals} {action : TreeAction}

/-- A step, for its task and for the others. -/
theorem effect_spares (held : state.users.Held) (spares : state.Spares action) :
    Spares state.users action.task (state.users.effect action) := by
  cases action with
  | call task call =>
      unfold Users.effect
      dsimp only
      split
      · split
        · exact searchStarts_spares held
        · exact spares_none
      · exact spares_none
  | go task outcome => exact go_spares held spares

theorem Users.Held.enter {users : Users} {task : Nat} {tree : Tree}
    {phase : Phase} (held : users.Held) (enters : Enters users task tree phase) :
    Users.Held
      { tree
        tasks := fun other =>
          if other = task then phase else users.tasks other } := by
  obtain ⟨spared, zone, makes⟩ := enters
  refine ⟨spared.dirs, ?_, ?_⟩
  · intro other own isZone
    dsimp only at isZone
    split at isZone <;> rename_i isTask
    · exact (zone own isZone).1
    · exact spared.zones other own isTask isZone
  · intro maker own isMaker
    dsimp only at isMaker
    split at isMaker <;> rename_i isTask
    · obtain ⟨notZero, noDir, noOther⟩ := makes own isMaker
      refine ⟨notZero, noDir, ?_⟩
      intro other different
      have notTask : other ≠ task := isTask ▸ different
      dsimp only
      rw [if_neg notTask]
      exact noOther other notTask
    · obtain ⟨notZero, _, noOther⟩ := held.makers maker own isMaker
      refine ⟨notZero, spared.makers maker own isTask isMaker, ?_⟩
      intro other different
      dsimp only
      split
      · intro isZone
        exact (zone own isZone).2 maker isTask isMaker
      · exact noOther other different

/-- A removal that does not see its entry written clears what it has found. -/
theorem step_clears (held : state.users.Held) (clears : state.ClearsFound)
    (spares : state.Spares action)
    (steps : removalMachine.step state action = some next) :
    next.users.Held ∧ next.ClearsFound := by
  have enters := effect_spares held spares
  unfold removalMachine treeMachine at steps
  dsimp only at steps
  cases effect : state.users.effect action with
  | none =>
      rw [effect] at steps
      cases steps
  | some pair =>
      obtain ⟨tree, phase⟩ := pair
      rw [effect] at steps
      cases steps
      have mayEnter := enters tree phase effect
      refine ⟨held.enter mayEnter, ?_⟩
      intro task zone index isRemoving
      dsimp only at isRemoving ⊢
      rw [isRemoving]
      dsimp only
      split <;> rename_i isTask
      · rfl
      · rw [if_neg isTask] at isRemoving
        rw [mayEnter.spared.entries task zone index isTask isRemoving]
        exact clears task zone index isRemoving

/-- As long as no entry is written that a removal has found, every removal
clears the entry of the inode that loses the link. -/
theorem removals_clearFound {start state : Removals}
    (idle : ∀ task, start.users.tasks task = .idle)
    (allocated : ∀ dir block, (start.users.tree.dirs dir).zone block ≠ 0 →
      start.users.tree.allocated
        ((start.users.tree.dirs dir).zone block) = true)
    (reached : removalMachine.Reachable Removals.Spares start state) :
    state.ClearsFound := by
  have held : start.users.Held := by
    refine ⟨allocated, ?_, ?_⟩
    · intro task zone isZone
      rw [idle task] at isZone
      cases isZone
    · intro task zone isMaker
      rw [idle task] at isMaker
      cases isMaker
  have clears : start.ClearsFound := by
    intro task zone index isRemoving
    rw [idle task] at isRemoving
    cases isRemoving
  have both : state.users.Held ∧ state.ClearsFound :=
    reached.invariant ⟨held, clears⟩ fun _ _ _ kept spares steps =>
      step_clears kept.1 kept.2 spares steps
  exact both.2

end Runs

/-! ## One entry, two removals -/

def quietDirectory : Removals := ⟨oneDirectory, fun _ => 0⟩

/-- `unlink` of the name that `openX` adds. -/
def unlinkX : Call := ⟨.unlink, 1, 1, [120], 0⟩

def openY : Call := ⟨.openCreate, 1, 1, [121], 0⟩

/-- The inode given out is 8. -/
def givesEight : Outcome := { goesWell with fresh := 8 }

theorem quietDirectory_allocated (dir block : Nat)
    (isBlock : (quietDirectory.users.tree.dirs dir).zone block ≠ 0) :
    quietDirectory.users.tree.allocated
      ((quietDirectory.users.tree.dirs dir).zone block) = true :=
  oneDirectory_shape.allocated dir block isBlock

/-- The only call under way removes the entry. -/
theorem removals_clearFound_unlinkX :
    ∃ state, removalMachine.Reachable Removals.Spares quietDirectory state ∧
      state.users.tasks 0 = .removing 10 2 ∧ state.ClearsFound := by
  have spares (state : Removals) (outcome : Outcome)
      (only : ∀ other, other ≠ 0 → state.users.tasks other = .idle) :
      state.Spares (.go 0 outcome) := by
    intro other zone index isOther isRemoving
    rw [only other isOther] at isRemoving
    cases isRemoving
  obtain ⟨state, reached, isRemoving⟩ : ∃ state,
      removalMachine.Reachable Removals.Spares quietDirectory state ∧
        state.users.tasks 0 = .removing 10 2 := by
    refine ⟨_, .step (.go 0 goesWell) (.step (.call 0 unlinkX)
      (.step (.go 0 goesWell) (.step (.go 0 goesWell) (.step (.go 0 goesWell)
        (.step (.call 0 openX) .start trivial rfl) ?_ rfl) ?_ rfl) ?_ rfl)
        trivial rfl) ?_ rfl, rfl⟩
    all_goals
      apply spares
      intro other isOther
      simp [isOther, TreeAction.task, quietDirectory, oneDirectory]
  exact ⟨state, reached, isRemoving,
    removals_clearFound (fun _ => rfl) quietDirectory_allocated reached⟩

/-- Task 1 has found `x` when task 2 removes it and task 3 puts `y` in its
place. -/
def threeTasks : List TreeAction :=
  [.call 0 openX, .go 0 goesWell, .go 0 goesWell, .go 0 goesWell,
    .call 1 unlinkX, .go 1 goesWell,
    .call 2 unlinkX, .go 2 goesWell, .go 2 goesWell,
    .call 3 openY, .go 3 givesEight, .go 3 givesEight, .go 3 givesEight]

/-- Task 1 is about to clear the entry of inode 8 and to take the link from
inode 7. -/
theorem removals_clearOther :
    ∃ state, removalMachine.Reachable anything quietDirectory state ∧
      state.users.tasks 1 = .removing 10 2 ∧
      (state.users.tree.data 10 2).inode = 8 ∧ state.found 1 = 7 ∧
      ¬ state.ClearsFound := by
  obtain ⟨state, runs, isRemoving, holds, found⟩ :
      ∃ state, removalMachine.run anything quietDirectory threeTasks =
          some state ∧ state.users.tasks 1 = .removing 10 2 ∧
        (state.users.tree.data 10 2).inode = 8 ∧ state.found 1 = 7 :=
    ⟨_, rfl, rfl, rfl, rfl⟩
  refine ⟨state, reachable_of_run .start runs, isRemoving, holds, found, ?_⟩
  intro clears
  have same := clears 1 10 2 isRemoving
  rw [holds, found] at same
  cases same

end Linux011.Fs
