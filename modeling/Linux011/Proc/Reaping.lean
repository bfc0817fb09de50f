import Linux011.Proc.Kinship

/-!
# Exit codes reach the father

The rest of the life cycle: becoming a zombie, being released by the father
and being returned by his `sys_waitpid`; and what holds in every run.
-/

namespace Linux011.Proc

open Linux011.Mm Linux011.Sched Machines Life

variable {life next : Life} {nr : Nat}

/-! ## Becoming a zombie -/

/-- The task in slot `nr` has told its father. -/
structure Dying (life : Life) (nr : Nat) (next : Life) : Prop where
  exiting : ∃ code, life.phase nr = .exiting code ∧
    ∃ c, life.core nr = some c ∧
      next.exits = ⟨life.birth nr, c.pid, code⟩ :: life.exits ∧
        ∀ other, next.core other =
          if other = nr then some (c.dead code) else life.core other
  phase : next.phase = fun other =>
    if other = nr then .exited else life.phase other
  started : next.started = life.started
  lastPid : next.system.lastPid = life.system.lastPid
  births : next.births = life.births
  birth : next.birth = life.birth
  returns : next.returns = life.returns
  orphaned : next.orphaned = life.orphaned

namespace Dying

theorem core_some (dying : Dying life nr next) {other : Nat} {c : Core}
    (isTask : next.core other = some c) : ∃ before,
      life.core other = some before ∧ c.pid = before.pid ∧
        c.father = before.father := by
  obtain ⟨code, _, mine, isMine, _, cores⟩ := dying.exiting
  rw [cores] at isTask
  split at isTask <;> rename_i here
  · cases isTask
    exact ⟨mine, here ▸ isMine, rfl, rfl⟩
  · exact ⟨c, isTask, rfl, rfl⟩

theorem core_none (dying : Dying life nr next) (other : Nat) :
    next.core other = none ↔ life.core other = none := by
  obtain ⟨code, _, mine, isMine, _, cores⟩ := dying.exiting
  rw [cores]
  split <;> rename_i here
  · rw [here, isMine]
    simp
  · rfl

theorem reaper (dying : Dying life nr next) {pid : Int} {other : Nat}
    (isReaper : life.Reaper pid other) : next.Reaper pid other := by
  obtain ⟨code, isExiting, mine, _, _, cores⟩ := dying.exiting
  obtain ⟨notFirst, named, stays⟩ := isReaper
  have different : other ≠ nr := by
    rintro rfl
    rw [isExiting] at stays
    exact stays trivial
  refine ⟨notFirst, ?_, ?_⟩
  · rw [cores, if_neg different]
    exact named
  · rw [dying.phase]
    dsimp only
    rw [if_neg different]
    exact stays

end Dying

theorem Life.Related.afterDying (related : life.Related)
    (dying : Dying life nr next) : next.Related := by
  obtain ⟨code, isExiting, mine, isMine, _, cores⟩ := dying.exiting
  have phase (other : Nat) : next.phase other =
      if other = nr then .exited else life.phase other :=
    congrFun dying.phase other
  have notFirst : nr ≠ 0 := by
    rintro rfl
    have stays := related.firstStays
    rw [isExiting] at stays
    exact stays trivial
  refine
    { bounded := ?_, pids := ?_, first := ?_, init := ?_, fathers := ?_
      zombies := ?_, firstStays := ?_, vacant := ?_, fresh := ?_, cared := ?_ }
  · intro other beyond
    exact (dying.core_none other).mpr (related.bounded other beyond)
  · intro i j c d isFirst isSecond same
    obtain ⟨first, wasFirst, firstPid, _⟩ := dying.core_some isFirst
    obtain ⟨second, wasSecond, secondPid, _⟩ := dying.core_some isSecond
    exact related.pids i j first second wasFirst wasSecond (by omega)
  · obtain ⟨c, isTask, isZero⟩ := related.first
    refine ⟨c, ?_, isZero⟩
    rw [cores, if_neg (Ne.symm notFirst)]
    exact isTask
  · intro other otherNotFirst isTask
    exact dying.reaper (related.init other otherNotFirst
      (mt (dying.core_none other).mpr isTask))
  · intro other c otherNotFirst notInit isTask
    obtain ⟨before, wasTask, _, sameFather⟩ := dying.core_some isTask
    obtain ⟨father, isReaper⟩ :=
      related.fathers other before otherNotFirst notInit wasTask
    rw [sameFather]
    exact ⟨father, dying.reaper isReaper⟩
  · intro other c isTask
    rw [cores] at isTask
    rw [phase]
    split at isTask <;> rename_i here
    · cases isTask
      rw [if_pos here]
      simp [Core.dead]
    · rw [if_neg here]
      exact related.zombies other c isTask
  · rw [phase, if_neg (Ne.symm notFirst)]
    exact related.firstStays
  · intro other isVacant
    have wasVacant := (dying.core_none other).mp isVacant
    have different : other ≠ nr := by
      rintro rfl
      rw [isMine] at wasVacant
      cases wasVacant
    rw [phase, if_neg different]
    exact related.vacant other wasVacant
  · intro notStarted
    rw [dying.started] at notStarted
    obtain ⟨alone, _⟩ := related.fresh notStarted
    rw [alone nr notFirst] at isMine
    cases isMine
  · rw [dying.orphaned]
    exact related.cared

theorem Life.Recorded.afterDying (related : life.Related) (recorded : life.Recorded)
    (dying : Dying life nr next) : next.Recorded := by
  obtain ⟨code, isExiting, mine, isMine, exits, cores⟩ := dying.exiting
  have reaping (other child : Nat) (pid exitCode : Int) :
      next.phase other = .reaping child pid exitCode ↔
        life.phase other = .reaping child pid exitCode := by
    rw [dying.phase]
    dsimp only
    split <;> rename_i here
    · rw [here, isExiting]
      simp
    · rfl
  have collected := Life.collected_congr dying.returns reaping
  have present (other : Nat) :
      next.core other ≠ none ↔ life.core other ≠ none :=
    not_congr (dying.core_none other)
  have notZombie : mine.zombie ≠ true := by
    rw [Ne, related.zombies nr mine isMine, isExiting]
    simp
  refine
    { born := ?_, births := ?_, exits := ?_, exited := ?_
      exitedOnce := ?_, collected := ?_, pending := ?_, returned := ?_
      own := ?_ }
  · intro other c isTask
    obtain ⟨before, wasTask, _⟩ := dying.core_some isTask
    rw [dying.births, dying.birth]
    exact recorded.born other before wasTask
  · simp only [present, dying.birth]
    exact recorded.births
  · intro other c isTask isZombie
    rw [exits, dying.birth]
    rw [cores] at isTask
    split at isTask <;> rename_i here
    · cases isTask
      rw [here]
      exact List.mem_cons_self
    · exact List.mem_cons_of_mem _
        (recorded.exits other c isTask isZombie)
  · intro departure inExits
    rw [dying.births, dying.birth]
    rw [exits] at inExits
    have dead (other : Nat) (c : Core) (isTask : next.core other = some c)
        (before : ∀ c, other ≠ nr → life.core other = some c →
          c.zombie = true) : c.zombie = true := by
      rw [cores] at isTask
      split at isTask <;> rename_i here
      · cases isTask
        rfl
      · exact before c here isTask
    rcases List.mem_cons.mp inExits with rfl | wasThere
    · refine ⟨recorded.born nr mine isMine, ?_⟩
      intro other c isTask same
      apply dead other c isTask
      intro c different wasTask
      exact (different (recorded.births other nr (by simp [wasTask])
        (by simp [isMine]) same)).elim
    · obtain ⟨old, zombie⟩ := recorded.exited departure wasThere
      refine ⟨old, ?_⟩
      intro other c isTask same
      exact dead other c isTask fun c _ wasTask =>
        zombie other c wasTask same
  · rw [exits, List.map_cons]
    refine List.nodup_cons.mpr ⟨?_, recorded.exitedOnce⟩
    intro again
    obtain ⟨departure, inExits, same⟩ := List.mem_map.mp again
    exact notZombie
      ((recorded.exited departure inExits).2 nr mine isMine same.symm)
  · intro child isCollected
    simp only [present, dying.births, dying.birth]
    exact recorded.collected child ((collected child).mp isCollected)
  · intro other child pid exitCode isReaping
    obtain ⟨notReturned, wasExit, only⟩ := recorded.pending other child pid
      exitCode ((reaping other child pid exitCode).mp isReaping)
    rw [dying.returns, exits]
    refine ⟨notReturned, List.mem_cons_of_mem _ wasExit, ?_⟩
    intro another otherPid otherCode isAnother
    exact only another otherPid otherCode
      ((reaping another child otherPid otherCode).mp isAnother)
  · rw [dying.returns]
    exact recorded.returned
  · rw [dying.returns, exits]
    exact fun departure inReturns =>
      List.mem_cons_of_mem _ (recorded.own departure inReturns)

/-! ## Being released -/

/-- The zombie in slot `slot` has been released by the task in slot `nr`. -/
structure Reaped (life : Life) (nr slot : Nat) (next : Life) : Prop where
  zombie : ∃ c, life.core slot = some c ∧ c.zombie = true ∧
    next.phase = fun other =>
      if other = nr then .reaping (life.birth slot) c.pid c.exitCode
      else if other = slot then .running else life.phase other
  core : next.core = without life.core slot
  father : ∃ me c, life.core nr = some me ∧ life.core slot = some c ∧
    c.father = me.pid
  notFirst : slot ≠ 0
  different : slot ≠ nr
  present : life.core nr ≠ none
  stays : ¬ (life.phase nr).leaving
  notReaping : ∀ child pid code, life.phase nr ≠ .reaping child pid code
  started : next.started = life.started
  lastPid : next.system.lastPid = life.system.lastPid
  births : next.births = life.births
  birth : next.birth = life.birth
  exits : next.exits = life.exits
  returns : next.returns = life.returns
  orphaned : next.orphaned = life.orphaned

namespace Reaped

variable {slot : Nat}

theorem core_some (reaped : Reaped life nr slot next) {other : Nat}
    {c : Core} (isTask : next.core other = some c) :
    other ≠ slot ∧ life.core other = some c := by
  rw [reaped.core] at isTask
  unfold without at isTask
  split at isTask <;> rename_i here
  · cases isTask
  · exact ⟨here, isTask⟩

theorem core_other (reaped : Reaped life nr slot next) {other : Nat}
    (here : other ≠ slot) : next.core other = life.core other := by
  rw [reaped.core]
  exact if_neg here

theorem reaper (related : life.Related) (reaped : Reaped life nr slot next)
    {pid : Int} {other : Nat} (isReaper : life.Reaper pid other) :
    next.Reaper pid other := by
  obtain ⟨c, isZombie, dead, phases⟩ := reaped.zombie
  obtain ⟨notFirst, named, stays⟩ := isReaper
  have different : other ≠ slot := by
    rintro rfl
    rw [(related.zombies other c isZombie).mp dead] at stays
    exact stays trivial
  refine ⟨notFirst, ?_, ?_⟩
  · rw [reaped.core_other different]
    exact named
  · rw [phases]
    dsimp only
    split
    · exact id
    · exact stays

end Reaped

theorem Life.Related.afterReaping {slot : Nat} (related : life.Related)
    (reaped : Reaped life nr slot next) : next.Related := by
  obtain ⟨dead, isZombie, isDead, phases⟩ := reaped.zombie
  have phase (other : Nat) : next.phase other =
      if other = nr then .reaping (life.birth slot) dead.pid dead.exitCode
      else if other = slot then .running else life.phase other :=
    congrFun phases other
  refine
    { bounded := ?_, pids := ?_, first := ?_, init := ?_, fathers := ?_
      zombies := ?_, firstStays := ?_, vacant := ?_, fresh := ?_, cared := ?_ }
  · intro other beyond
    by_cases here : other = slot
    · rw [reaped.core, here]
      exact if_pos rfl
    · rw [reaped.core_other here]
      exact related.bounded other beyond
  · intro i j c d isFirst isSecond same
    exact related.pids i j c d (reaped.core_some isFirst).2
      (reaped.core_some isSecond).2 same
  · obtain ⟨c, isTask, isZero⟩ := related.first
    refine ⟨c, ?_, isZero⟩
    rw [reaped.core_other (Ne.symm reaped.notFirst)]
    exact isTask
  · intro other notFirst isTask
    obtain ⟨c, isCore⟩ := Option.ne_none_iff_exists'.mp isTask
    have wasTask := (reaped.core_some isCore).2
    exact reaped.reaper related (related.init other notFirst
      (by simp [wasTask]))
  · intro other c notFirst notInit isTask
    obtain ⟨father, isReaper⟩ := related.fathers other c notFirst notInit
      (reaped.core_some isTask).2
    exact ⟨father, reaped.reaper related isReaper⟩
  · intro other c isTask
    obtain ⟨here, wasTask⟩ := reaped.core_some isTask
    rw [related.zombies other c wasTask, phase]
    split <;> rename_i isReaper
    · rw [isReaper]
      constructor
      · intro isExited
        have stays := reaped.stays
        rw [isExited] at stays
        exact (stays trivial).elim
      · intro impossible
        cases impossible
    · rfl
  · rw [phase]
    split
    · exact id
    · rw [if_neg (Ne.symm reaped.notFirst)]
      exact related.firstStays
  · intro other isVacant
    have notReaper : other ≠ nr := by
      rintro rfl
      rw [reaped.core_other (Ne.symm reaped.different)] at isVacant
      exact reaped.present isVacant
    rw [phase, if_neg notReaper]
    split <;> rename_i here
    · rfl
    · rw [reaped.core_other here] at isVacant
      exact related.vacant other isVacant
  · intro notStarted
    rw [reaped.started] at notStarted
    obtain ⟨alone, _⟩ := related.fresh notStarted
    rw [alone slot reaped.notFirst] at isZombie
    cases isZombie
  · rw [reaped.orphaned]
    exact related.cared

theorem Life.Recorded.afterReaping {slot : Nat} (recorded : life.Recorded)
    (reaped : Reaped life nr slot next) : next.Recorded := by
  obtain ⟨dead, isZombie, isDead, phases⟩ := reaped.zombie
  have phase (other : Nat) : next.phase other =
      if other = nr then .reaping (life.birth slot) dead.pid dead.exitCode
      else if other = slot then .running else life.phase other :=
    congrFun phases other
  -- the only call that is new to reaping is that of `nr`
  have reaping {other child : Nat} {pid code : Int}
      (isReaping : next.phase other = .reaping child pid code) :
      other = nr ∧ child = life.birth slot ∧ pid = dead.pid ∧
          code = dead.exitCode ∨
        other ≠ nr ∧ life.phase other = .reaping child pid code := by
    rw [phase] at isReaping
    split at isReaping <;> rename_i isReaper
    · cases isReaping
      exact .inl ⟨isReaper, rfl, rfl, rfl⟩
    · split at isReaping
      · cases isReaping
      · exact .inr ⟨isReaper, isReaping⟩
  have fresh {child : Nat} (isCollected : life.Collected child) :
      child ≠ life.birth slot := by
    intro same
    exact (recorded.collected child isCollected).2 slot (by simp [isZombie])
      same.symm
  refine
    { born := ?_, births := ?_, exits := ?_, exited := ?_
      exitedOnce := ?_, collected := ?_, pending := ?_, returned := ?_
      own := ?_ }
  · intro other c isTask
    rw [reaped.births, reaped.birth]
    exact recorded.born other c (reaped.core_some isTask).2
  · intro i j isFirst isSecond same
    obtain ⟨c, first⟩ := Option.ne_none_iff_exists'.mp isFirst
    obtain ⟨d, second⟩ := Option.ne_none_iff_exists'.mp isSecond
    rw [reaped.birth] at same
    exact recorded.births i j (by simp [(reaped.core_some first).2])
      (by simp [(reaped.core_some second).2]) same
  · intro other c isTask zombie
    rw [reaped.exits, reaped.birth]
    exact recorded.exits other c (reaped.core_some isTask).2 zombie
  · intro departure inExits
    rw [reaped.exits] at inExits
    rw [reaped.births, reaped.birth]
    obtain ⟨old, zombie⟩ := recorded.exited departure inExits
    exact ⟨old, fun other c isTask =>
      zombie other c (reaped.core_some isTask).2⟩
  · rw [reaped.exits]
    exact recorded.exitedOnce
  · intro child isCollected
    rw [reaped.births, reaped.birth]
    have either : life.Collected child ∨ child = life.birth slot := by
      rcases isCollected with returned | ⟨other, pid, code, isReaping⟩
      · rw [reaped.returns] at returned
        exact .inl (.inl returned)
      · rcases reaping isReaping with ⟨_, isSlot, _⟩ | ⟨_, before⟩
        · exact .inr isSlot
        · exact .inl (.inr ⟨other, pid, code, before⟩)
    rcases either with before | isSlot
    · obtain ⟨old, notLiving⟩ := recorded.collected child before
      refine ⟨old, ?_⟩
      intro other isTask
      obtain ⟨c, isCore⟩ := Option.ne_none_iff_exists'.mp isTask
      exact notLiving other (by simp [(reaped.core_some isCore).2])
    · subst isSlot
      refine ⟨recorded.born slot dead isZombie, ?_⟩
      intro other isTask same
      obtain ⟨c, isCore⟩ := Option.ne_none_iff_exists'.mp isTask
      obtain ⟨here, wasTask⟩ := reaped.core_some isCore
      exact here (recorded.births other slot (by simp [wasTask])
        (by simp [isZombie]) same)
  · intro other child pid code isReaping
    rw [reaped.returns, reaped.exits]
    rcases reaping isReaping with ⟨isReaper, rfl, rfl, rfl⟩ |
        ⟨notReaper, before⟩
    · refine ⟨?_, recorded.exits slot dead isZombie isDead, ?_⟩
      · intro returned
        exact fresh (.inl returned) rfl
      · intro another otherPid otherCode isAnother
        rcases reaping isAnother with ⟨same, _⟩ | ⟨_, was⟩
        · rw [same, isReaper]
        · exact (fresh (.inr ⟨another, otherPid, otherCode, was⟩) rfl).elim
    · obtain ⟨notReturned, wasExit, only⟩ :=
        recorded.pending other child pid code before
      refine ⟨notReturned, wasExit, ?_⟩
      intro another otherPid otherCode isAnother
      rcases reaping isAnother with ⟨_, same, _⟩ | ⟨_, was⟩
      · exact (fresh (.inr ⟨other, pid, code, before⟩) same).elim
      · exact only another otherPid otherCode was
  · rw [reaped.returns]
    exact recorded.returned
  · rw [reaped.returns, reaped.exits]
    exact recorded.own

/-! ## Being returned -/

/-- The `sys_waitpid` in slot `nr` has returned the child it released. -/
structure HandedOver (life : Life) (nr : Nat) (next : Life) : Prop where
  family : SameFamily life next
  reaping : ∃ child pid code, life.phase nr = .reaping child pid code ∧
    next.returns = ⟨child, pid, code⟩ :: life.returns
  phase : next.phase = fun other =>
    if other = nr then .running else life.phase other

theorem Life.Related.afterReturn (related : life.Related)
    (handed : HandedOver life nr next) : next.Related := by
  obtain ⟨child, pid, code, isReaping, _⟩ := handed.reaping
  refine related.rephase handed.family ?_ ?_ ?_
  · intro other
    rw [handed.phase]
    dsimp only
    split <;> rename_i here
    · rw [here, isReaping]
      exact Iff.rfl
    · rfl
  · intro other
    rw [handed.phase]
    dsimp only
    split <;> rename_i here
    · rw [here, isReaping]
      simp
    · rfl
  · intro other isVacant
    rw [handed.phase]
    dsimp only
    split
    · rfl
    · exact related.vacant other isVacant

theorem Life.Recorded.afterReturn (recorded : life.Recorded)
    (handed : HandedOver life nr next) : next.Recorded := by
  obtain ⟨child, pid, code, isReaping, returns⟩ := handed.reaping
  have same := handed.family
  have before {other another : Nat} {otherPid otherCode : Int}
      (isOther : next.phase other = .reaping another otherPid otherCode) :
      other ≠ nr ∧ life.phase other = .reaping another otherPid otherCode := by
    rw [handed.phase] at isOther
    dsimp only at isOther
    split at isOther <;> rename_i here
    · cases isOther
    · exact ⟨here, isOther⟩
  obtain ⟨notReturned, wasExit, only⟩ :=
    recorded.pending nr child pid code isReaping
  refine recorded.sameFamily same ?_ ?_ ?_ ?_
  · intro another isCollected
    rcases isCollected with inReturns | ⟨other, otherPid, otherCode, isOther⟩
    · rw [returns, List.map_cons] at inReturns
      rcases List.mem_cons.mp inReturns with rfl | earlier
      · exact .inr ⟨nr, pid, code, isReaping⟩
      · exact .inl earlier
    · exact .inr ⟨other, otherPid, otherCode, (before isOther).2⟩
  · intro other another otherPid otherCode isOther
    obtain ⟨different, was⟩ := before isOther
    obtain ⟨otherNotReturned, otherExit, otherOnly⟩ :=
      recorded.pending other another otherPid otherCode was
    rw [returns, same.exits]
    refine ⟨?_, otherExit, ?_⟩
    · rw [List.map_cons, List.mem_cons, not_or]
      refine ⟨?_, otherNotReturned⟩
      rintro rfl
      exact different (only other otherPid otherCode was)
    · intro third thirdPid thirdCode isThird
      exact otherOnly third thirdPid thirdCode (before isThird).2
  · rw [returns, List.map_cons]
    exact List.nodup_cons.mpr ⟨notReturned, recorded.returned⟩
  · rw [returns, same.exits]
    intro departure inReturns
    rcases List.mem_cons.mp inReturns with rfl | earlier
    · exact wasExit
    · exact recorded.own departure earlier

/-! ## Runs -/

/-- A step of the life cycle, as the invariant sees it. -/
inductive Change (life next : Life) : Prop where
  /-- Nothing but the phases of calls that have not released a child. -/
  | other (family : SameFamily life next)
      (returns : next.returns = life.returns)
      (leaving : ∀ nr, (next.phase nr).leaving ↔ (life.phase nr).leaving)
      (exited : ∀ nr, next.phase nr = .exited ↔ life.phase nr = .exited)
      (reaping : ∀ nr child pid code,
        next.phase nr = .reaping child pid code ↔
          life.phase nr = .reaping child pid code)
      (vacant : ∀ nr, life.core nr = none → next.phase nr = .running)
  | born (nr slot : Nat) (pid : Int) (born : Born life nr slot pid next)
  | leaving (nr : Nat) (leaving : Leaving life nr next)
  | dying (nr : Nat) (dying : Dying life nr next)
  | reaped (nr slot : Nat) (reaped : Reaped life nr slot next)
  | handedOver (nr : Nat) (handed : HandedOver life nr next)

theorem Change.kept (related : life.Related) (recorded : life.Recorded)
    (change : Change life next) : next.Related ∧ next.Recorded := by
  cases change with
  | other family returns leaving exited reaping vacant =>
      exact ⟨related.rephase family leaving exited vacant,
        recorded.rephase family returns reaping⟩
  | born nr slot pid born =>
      exact ⟨related.afterBirth born, recorded.afterBirth born⟩
  | leaving nr leaving =>
      exact ⟨related.afterLeaving leaving, recorded.afterLeaving leaving⟩
  | dying nr dying =>
      exact ⟨related.afterDying dying, recorded.afterDying related dying⟩
  | reaped nr slot reaped =>
      exact ⟨related.afterReaping reaped, recorded.afterReaping reaped⟩
  | handedOver nr handed =>
      exact ⟨related.afterReturn handed, recorded.afterReturn handed⟩

/-- A call that leaves the cores as they are and its own task running or
waiting. -/
theorem Change.rephased (related : life.Related) {phase : Phase}
    {p : TaskStruct} (isTask : life.system.task nr = some p)
    (before : ¬ (life.phase nr).leaving)
    (notReaping : ∀ child pid code, life.phase nr ≠ .reaping child pid code)
    (after : ¬ phase.leaving)
    (notReapingAfter : ∀ child pid code, phase ≠ .reaping child pid code)
    {system : System} (cores : system.core = life.system.core)
    (last : system.lastPid = life.system.lastPid) :
    Change life ({ life with system }.setPhase nr phase) := by
  have phases (other : Nat) :
      ({ life with system }.setPhase nr phase).phase other =
        if other = nr then phase else life.phase other := rfl
  refine .other ⟨cores, fun notStarted => ⟨notStarted, last⟩, rfl, rfl, rfl,
    rfl⟩ rfl ?_ ?_ ?_ ?_
  · intro other
    rw [phases]
    split <;> rename_i here
    · rw [here]
      exact iff_of_false after before
    · rfl
  · intro other
    rw [phases]
    split <;> rename_i here
    · rw [here]
      refine iff_of_false ?_ ?_
      · rintro rfl
        exact after trivial
      · intro isExited
        rw [isExited] at before
        exact before trivial
    · rfl
  · intro other child pid code
    rw [phases]
    split <;> rename_i here
    · rw [here]
      exact iff_of_false (notReapingAfter child pid code)
        (notReaping child pid code)
    · rfl
  · intro other isVacant
    have different : other ≠ nr := by
      rintro rfl
      have isCore := System.core_of_task isTask
      unfold Life.core at isVacant
      rw [isVacant] at isCore
      cases isCore
    rw [phases, if_neg different]
    exact related.vacant other isVacant

theorem wait_change (related : life.Related) {me : TaskStruct} {pid : Int}
    {options : BitVec 32} {result : Except Fault (Waited × System)}
    (isTask : life.system.task nr = some me)
    (before : ¬ (life.phase nr).leaving)
    (notReaping : ∀ child pid code, life.phase nr ≠ .reaping child pid code)
    (outcome : ∀ waited system, result = .ok (waited, system) →
      WaitOutcome life.system nr me waited system ∧
        system.lastPid = life.system.lastPid)
    (steps : life.wait nr pid options result = some next) :
    Change life next := by
  cases result with
  | error fault => cases steps
  | ok result =>
      obtain ⟨waited, system⟩ := result
      obtain ⟨cores, last⟩ := outcome waited system rfl
      cases waited with
      | returns value =>
          cases steps
          exact .rephased related isTask before notReaping id
            (fun _ _ _ impossible => by cases impossible) cores last
      | sleeps =>
          cases steps
          exact .rephased related isTask before notReaping id
            (fun _ _ _ impossible => by cases impossible) cores last
      | released slot childPid code =>
          cases steps
          obtain ⟨notFirst, different, c, isZombie, dead, mine, rfl, rfl,
            rest⟩ := cores
          exact .reaped nr slot
            { zombie := ⟨c, isZombie, dead, rfl⟩
              core := rest
              father := ⟨me.core, c, System.core_of_task isTask, isZombie, mine⟩
              notFirst := notFirst
              different := different
              present := by
                unfold Life.core
                rw [System.core_of_task isTask]
                simp
              stays := before
              notReaping := notReaping
              started := rfl
              lastPid := last
              births := rfl
              birth := rfl
              exits := rfl
              returns := rfl
              orphaned := rfl }

theorem caller_some {p : TaskStruct} (isCaller : life.caller nr = some p) :
    life.phase nr = .running ∧ life.system.task nr = some p := by
  unfold Life.caller at isCaller
  split at isCaller
  · exact ⟨‹_›, isCaller⟩
  · cases isCaller

/-- The first fork makes task 1 with pid 1. -/
theorem findEmptyProcess_first {system next : System} {slot : Nat}
    (alone : ∀ nr, nr ≠ 0 → system.core nr = none)
    (first : ∃ c, system.core 0 = some c ∧ c.pid = 0)
    (last : system.lastPid = 0)
    (found : findEmptyProcess system = some (some slot, next)) :
    slot = 1 ∧ next.lastPid = 1 := by
  have bumped : bumpPid 0 = 1 := by decide
  obtain ⟨c, isCore, isZero⟩ := first
  obtain ⟨p, isTask, rfl⟩ := System.task_of_core isCore
  have unused : pidInUse system.task 1 = false := by
    unfold pidInUse
    rw [List.any_eq_false]
    intro nr _
    by_cases isFirst : nr = 0
    · have named : p.pid = 0 := isZero
      simp [isFirst, isTask, named]
    · simp [System.core_eq_none.mp (alone nr isFirst)]
  have isNext : nextPid system.task (nrTasks + 1) system.lastPid = some 1 := by
    unfold nextPid
    rw [last, bumped, unused]
    rfl
  have isSlot : emptySlot system.task = some 1 := by
    unfold emptySlot
    rw [List.find?_range_eq_some]
    refine ⟨?_, by decide, ?_⟩
    · simp [System.core_eq_none.mp (alone 1 Nat.one_ne_zero)]
    · intro nr below
      simp [Nat.lt_one_iff.mp below]
  unfold findEmptyProcess at found
  rw [isNext, isSlot] at found
  simp only [Option.some.injEq, Prod.mk.injEq] at found
  obtain ⟨rfl, rfl⟩ := found
  exact ⟨rfl, rfl⟩

theorem fork_change (related : life.Related) {registers : Registers}
    (steps : life.fork nr registers = some next) : Change life next := by
  unfold Life.fork at steps
  obtain ⟨parent, isCaller, steps⟩ := Option.bind_eq_some_iff.mp steps
  obtain ⟨running, isTask⟩ := caller_some isCaller
  split at steps
  · cases steps
  rename_i mayFork
  obtain ⟨⟨slot, system⟩, isFound, steps⟩ := Option.bind_eq_some_iff.mp steps
  obtain ⟨isSystem, unused, isFree⟩ := findEmptyProcess_spec isFound
  have unchanged {system : System} (cores : system.core = life.system.core) :
      Change life { life with system, started := true } :=
    .other ⟨cores, (fun impossible => nomatch impossible), rfl, rfl, rfl, rfl⟩
      rfl (fun _ => Iff.rfl) (fun _ => Iff.rfl) (fun _ _ _ _ => Iff.rfl)
      related.vacant
  have sameCore : system.core = life.system.core := by
    rw [isSystem]
    rfl
  cases slot with
  | none =>
      cases steps
      exact unchanged sameCore
  | some slot =>
      obtain ⟨notFirst, inTable, vacant⟩ := isFree slot rfl
      have free : system.task slot = none := by
        rw [isSystem]
        exact vacant
      dsimp only at steps
      split at steps
      · cases steps
      rename_i value copied ran
      obtain ⟨last, failed | ⟨made, code, cores⟩⟩ := copyProcess_core free ran
      · rw [if_neg (by simp [failed.1])] at steps
        cases steps
        exact unchanged (failed.2.trans sameCore)
      · rw [if_pos made] at steps
        cases steps
        refine .born nr slot system.lastPid ?_
        refine
          { parent := ⟨parent.core, System.core_of_task isTask, code, ?_⟩
            running := running
            inTable := inTable
            free := System.core_eq_none.mpr vacant
            notFirst := notFirst
            unused := ?_
            byFirst := ?_
            phase := rfl
            started := rfl
            births := rfl
            birth := rfl
            exits := rfl
            returns := rfl
            orphaned := rfl }
        · intro other
          refine (cores other).trans ?_
          rw [sameCore]
          rfl
        · intro other c isOther
          obtain ⟨p, isOtherTask, rfl⟩ := System.task_of_core isOther
          have below : other < nrTasks := by
            by_contra beyond
            have absent := related.bounded other (by omega)
            rw [absent] at isOther
            cases isOther
          exact pidInUse_false unused below isOtherTask
        · intro byFirst
          have notStarted : life.started = false := by
            simpa [byFirst] using mayFork
          obtain ⟨alone, lastPid⟩ := related.fresh notStarted
          exact findEmptyProcess_first alone related.first lastPid isFound

theorem step_change (related : life.Related) {action : LifeAction}
    (allowed : InitStays life action)
    (steps : lifeCycle.step life action = some next) : Change life next := by
  cases action with
  | fork nr registers => exact fork_change related steps
  | exit nr code =>
      obtain ⟨p, isCaller, steps⟩ := Option.bind_eq_some_iff.mp steps
      obtain ⟨running, isTask⟩ := caller_some isCaller
      split at steps
      · cases steps
      rename_i notFirst
      split at steps
      · cases steps
      rename_i system ran
      cases steps
      obtain ⟨cores, last⟩ := doExitBegin_core related.bounded ran
      exact .leaving nr
        { leaver := ⟨p.core, System.core_of_task isTask, cores⟩
          running := running
          notFirst := notFirst
          notInit := allowed
          phase := ⟨code, rfl⟩
          started := rfl
          lastPid := last
          births := rfl
          birth := rfl
          exits := rfl
          returns := rfl
          orphaned := rfl }
  | finish nr =>
      dsimp only [lifeCycle] at steps
      split at steps
      · rename_i code p isExiting isTask
        split at steps
        · cases steps
        rename_i found system ran
        cases steps
        have isCore := System.core_of_task isTask
        have notFirst : nr ≠ 0 := by
          rintro rfl
          have stays := related.firstStays
          rw [isExiting] at stays
          exact stays trivial
        have notInit : nr ≠ 1 := by
          rintro rfl
          have stays := (related.init 1 notFirst (by
            unfold Life.core
            rw [isCore]
            simp)).2.2
          rw [isExiting] at stays
          exact stays trivial
        obtain ⟨father, fatherNotFirst, ⟨c, isFather, named⟩, stays⟩ :=
          related.fathers nr p.core notFirst notInit isCore
        have different : father ≠ nr := by
          rintro rfl
          rw [isExiting] at stays
          exact stays trivial
        have isPid : p.father ≠ 0 := by
          intro isZero
          obtain ⟨first, isFirst, zero⟩ := related.first
          have same : c.pid = first.pid := by
            rw [named, zero]
            exact isZero
          exact fatherNotFirst
            (related.pids father 0 c first isFather isFirst same)
        have inTable : father < nrTasks := by
          by_contra beyond
          rw [related.bounded father (by omega)] at isFather
          cases isFather
        obtain ⟨rfl, last, cores⟩ := doExitEnd_core isTask isPid inTable
          isFather named different ran
        exact .dying nr
          { exiting := ⟨code, isExiting, p.core, isCore, rfl, cores⟩
            phase := rfl
            started := rfl
            lastPid := last
            births := rfl
            birth := rfl
            returns := rfl
            orphaned := Bool.or_false _ }
      · cases steps
  | waitpid nr pid options =>
      obtain ⟨me, isCaller, steps⟩ := Option.bind_eq_some_iff.mp steps
      obtain ⟨running, isTask⟩ := caller_some isCaller
      refine wait_change related isTask (by rw [running]; exact id)
        (by rw [running]; exact fun _ _ _ impossible => by cases impossible)
        ?_ steps
      intro waited system ran
      refine sysWaitpid_core ?_ ran
      intro p isMe
      exact related.alive (by rw [running]; simp) isMe
  | resume nr =>
      dsimp only [lifeCycle] at steps
      split at steps
      · rename_i pid options me isWaiting isTask
        refine wait_change related isTask (by rw [isWaiting]; exact id)
          (by rw [isWaiting]; exact fun _ _ _ impossible => by cases impossible)
          ?_ steps
        intro waited system ran
        exact resumeWaitpid_core isTask
          (related.alive (by rw [isWaiting]; simp) isTask) ran
      · cases steps
  | handOver nr =>
      dsimp only [lifeCycle] at steps
      split at steps
      · rename_i child pid code isReaping
        cases steps
        exact .handedOver nr
          { family := ⟨rfl, fun notStarted => ⟨notStarted, rfl⟩, rfl, rfl, rfl,
              rfl⟩
            reaping := ⟨child, pid, code, isReaping, rfl⟩
            phase := rfl }
      · cases steps
  | elsewhere memory fileTable iCount jiffies change =>
      cases steps
      refine .other ⟨?_, fun notStarted => ⟨notStarted, rfl⟩, rfl, rfl, rfl,
        rfl⟩ rfl (fun _ => Iff.rfl) (fun _ => Iff.rfl)
        (fun _ _ _ _ => Iff.rfl) related.vacant
      exact System.core_map (fun _ => rfl) fun nr p =>
        disturb_core (change nr) p

theorem reachable_recorded {system : System} {page : Nat}
    (reached : lifeCycle.Reachable InitStays (firstLife system page) life) :
    life.Related ∧ life.Recorded := by
  induction reached with
  | start =>
      exact ⟨firstLife_related system page, firstLife_recorded system page⟩
  | step action _ allowed steps induction =>
      obtain ⟨related, recorded⟩ := induction
      exact (step_change related allowed steps).kept related recorded

/-- The task `p` in slot `slot` was a zombie, and the task in slot `nr`, its
father, has released it and will return its pid and exit code. -/
def FreedBy (life : Life) (slot : Nat) (p : TaskStruct) (next : Life)
    (nr : Nat) : Prop :=
  p.state = .zombie ∧
    (∃ father, life.system.task nr = some father ∧ p.father = father.pid) ∧
    next.phase nr = .reaping (life.birth slot) p.pid p.exitCode

/-- A slot becomes free when the father of its task has it released. -/
theorem Change.freed (change : Change life next) {slot : Nat} {p : TaskStruct}
    (isTask : life.system.task slot = some p)
    (isFree : next.system.task slot = none) :
    ∃ nr, FreedBy life slot p next nr := by
  have was := System.core_of_task isTask
  have absent : next.core slot = none := System.core_eq_none.mpr isFree
  cases change with
  | other family _ _ _ _ _ =>
      rw [family.core] at absent
      exact absurd (was.symm.trans absent) (Option.some_ne_none _)
  | born nr born pid isBorn =>
      obtain ⟨_, _, _, cores⟩ := isBorn.parent
      rw [cores] at absent
      split at absent
      · cases absent
      · exact absurd (was.symm.trans absent) (Option.some_ne_none _)
  | leaving nr leaving =>
      have stays := (leaving.core_none slot).mp absent
      exact absurd (was.symm.trans stays) (Option.some_ne_none _)
  | dying nr dying =>
      have stays := (dying.core_none slot).mp absent
      exact absurd (was.symm.trans stays) (Option.some_ne_none _)
  | handedOver nr handed =>
      rw [handed.family.core] at absent
      exact absurd (was.symm.trans absent) (Option.some_ne_none _)
  | reaped nr dead reaped =>
      have here : slot = dead := by
        by_contra different
        rw [reaped.core_other different] at absent
        exact absurd (was.symm.trans absent) (Option.some_ne_none _)
      subst here
      obtain ⟨c, isZombie, zombie, phases⟩ := reaped.zombie
      obtain ⟨me, child, isFather, isChild, named⟩ := reaped.father
      obtain rfl : p.core = c := Option.some.inj (was.symm.trans isZombie)
      obtain rfl : p.core = child := Option.some.inj (was.symm.trans isChild)
      obtain ⟨father, isCaller, rfl⟩ := System.task_of_core isFather
      refine ⟨nr, of_decide_eq_true zombie, ⟨father, isCaller, named⟩, ?_⟩
      rw [phases]
      exact if_pos rfl

/-- The life cycle is in order. -/
structure Orderly (life : Life) : Prop where
  pids : ∀ i j p q, life.system.task i = some p → life.system.task j = some q →
    p.pid = q.pid → i = j
  fathers : ∀ nr p, nr ≠ 0 → nr ≠ 1 → life.system.task nr = some p →
    ∃ father q, life.system.task father = some q ∧ q.pid = p.father ∧
      q.state ≠ .zombie
  returnedOnce : (life.returns.map Departure.child).Nodup
  exitedOnce : (life.exits.map Departure.child).Nodup
  /-- What is returned is what `do_exit` was called with. -/
  own : ∀ departure ∈ life.returns, departure ∈ life.exits
  freed : ∀ action next, InitStays life action →
    lifeCycle.step life action = some next → ∀ slot p,
      life.system.task slot = some p → next.system.task slot = none →
        ∃ nr, FreedBy life slot p next nr
  cared : life.orphaned = false

theorem lifeCycle_orderly {system : System} {page : Nat}
    (reached : lifeCycle.Reachable InitStays (firstLife system page) life) :
    Orderly life := by
  obtain ⟨related, recorded⟩ := reachable_recorded reached
  refine
    { pids := ?_, fathers := ?_, returnedOnce := recorded.returned
      exitedOnce := recorded.exitedOnce, own := recorded.own
      freed := ?_, cared := related.cared }
  · intro i j p q isFirst isSecond same
    exact related.pids i j p.core q.core (System.core_of_task isFirst)
      (System.core_of_task isSecond) same
  · intro nr p notFirst notInit isTask
    obtain ⟨father, _, ⟨c, isFather, named⟩, stays⟩ := related.fathers nr p.core
      notFirst notInit (System.core_of_task isTask)
    obtain ⟨q, isOther, rfl⟩ := System.task_of_core isFather
    refine ⟨father, q, isOther, named, ?_⟩
    intro isZombie
    have isExited := (related.zombies father q.core isFather).mp
      (decide_eq_true isZombie)
    rw [isExited] at stays
    exact stays trivial
  · intro action next allowed steps slot p isTask isFree
    exact (step_change related allowed steps).freed isTask isFree

section Example

/-- Sixteen megabytes of zeros, the first task's page at 20 KB. -/
def quietSystem : System where
  memory :=
    { memMap := fun _ => 0, highMemory := 0x1000000, phys := fun _ _ => 0 }
  task := fun _ => none
  lastPid := 0
  jiffies := 0
  fileTable := fun _ => ⟨0, 0, 0, none, 0⟩
  iCount := fun _ => 0

def forkExitWait : List LifeAction :=
  [.fork 0 (initTask 5).tss.registers, .fork 1 (initTask 5).tss.registers,
    .exit 2 256, .finish 2, .waitpid 1 (-1) 0, .handOver 1]

theorem lifeCycle_orderly_forkExitWait :
    ∃ life, lifeCycle.run InitStays (firstLife quietSystem 5) forkExitWait =
      some life ∧
        life.returns.map (fun departure => (departure.pid, departure.code)) =
          [(2, 256)] ∧ Orderly life := by
  have ran : ((lifeCycle.run InitStays (firstLife quietSystem 5)
      forkExitWait).map fun life => life.returns.map fun departure =>
        (departure.pid, departure.code)) = some [(2, 256)] := by
    decide +kernel
  obtain ⟨life, runs, returned⟩ := Option.map_eq_some_iff.mp ran
  exact ⟨life, runs, returned,
    lifeCycle_orderly (Machine.reachable_of_run .start runs)⟩

end Example

end Linux011.Proc
