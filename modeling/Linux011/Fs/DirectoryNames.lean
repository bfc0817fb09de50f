import Mathlib.Tactic.SplitIfs
import Mathlib.Data.List.Range
import Linux011.Fs.Directories

/-!
# Whether the names in a directory stay apart

A call that adds a name has searched the directory for it, but adds it later
and does not look again.  As long as nothing is stored where another search
for the same name has stopped looking, the names stay apart.
-/

namespace Linux011.Fs

open Machines Machine

/-! ## Names -/

/-- A name as `namelen` cut to `NAME_LEN` leaves it. -/
structure ProperName (name : List UInt8) : Prop where
  short : name.length ≤ nameLen
  noNul : ∀ byte ∈ name, byte ≠ 0

theorem Call.isProper.wanted {call : Call} (proper : call.isProper) :
    ProperName call.wanted where
  short := by
    rw [Call.wanted, List.length_take]
    exact Nat.min_le_left _ _
  noNul := by
    intro byte member
    have whole := List.all_eq_true.mp proper.2 byte
      (List.mem_of_mem_take member)
    exact bne_iff_ne.mp whole

/-- Reading a name up to its NUL, and comparing it with another. -/
theorem takeWhile_eq_iff {name : List UInt8} (noNul : ∀ byte ∈ name, byte ≠ 0)
    {count : Nat} (short : name.length ≤ count) (bytes : Nat → UInt8) :
    (((List.range count).map bytes).takeWhile fun byte => byte != 0) = name ↔
      (count ≤ name.length ∨ bytes name.length = 0) ∧
        ∀ index, index < name.length → bytes index = name.getD index 0 := by
  induction name generalizing count bytes with
  | nil =>
      cases count with
      | zero => simp
      | succ count =>
          rw [List.range_succ_eq_map, List.map_cons, List.takeWhile_cons]
          by_cases isNul : bytes 0 = 0 <;> simp [isNul]
  | cons head tail induction =>
      cases count with
      | zero => simp at short
      | succ count =>
          have headByte : head ≠ 0 := noNul head List.mem_cons_self
          have rest := induction
            (fun byte member => noNul byte (List.mem_cons_of_mem head member))
            (Nat.le_of_succ_le_succ short) fun index => bytes (index + 1)
          rw [List.range_succ_eq_map, List.map_cons, List.map_map,
            List.takeWhile_cons]
          by_cases same : bytes 0 = head
          · rw [if_pos (by simp [same, headByte])]
            simp only [List.cons.injEq, same, true_and, List.length_cons]
            rw [show (bytes ∘ Nat.succ) = fun index => bytes (index + 1) from rfl,
              rest]
            constructor
            · rintro ⟨ends, each⟩
              refine ⟨ends.imp_left Nat.succ_le_succ, ?_⟩
              intro index inRange
              cases index with
              | zero => exact same
              | succ index => exact each index (by omega)
            · rintro ⟨ends, each⟩
              refine ⟨ends.imp_left Nat.le_of_succ_le_succ, ?_⟩
              intro index inRange
              exact each (index + 1) (Nat.succ_lt_succ inRange)
          · constructor
            · intro equal
              split at equal
              · cases equal
                exact (same rfl).elim
              · cases equal
            · rintro ⟨_, each⟩
              exact (same (each 0 (by simp))).elim

namespace DirEntry

/-- `match` compares names. -/
theorem isMatch_iff {name : List UInt8} (proper : ProperName name)
    (entry : DirEntry) :
    entry.isMatch name = true ↔ entry.inode ≠ 0 ∧ entry.text = name := by
  unfold isMatch text
  rw [takeWhile_eq_iff proper.noNul proper.short]
  simp only [Bool.and_eq_true, Bool.or_eq_true, decide_eq_true_eq, beq_iff_eq,
    List.all_eq_true, List.mem_range, proper.short, and_true]
  tauto

theorem text_named {name : List UInt8} (proper : ProperName name)
    (inode : Nat) : (named inode name).text = name := by
  unfold text
  rw [takeWhile_eq_iff proper.noNul proper.short]
  exact ⟨.inr (by simp [named]), fun _ _ => rfl⟩

end DirEntry

/-! ## What a search leaves out -/

/-- The call adds this name to this directory. -/
def Call.Adds (call : Call) (dir : Nat) (name : List UInt8) : Prop :=
  call.creates ∧ call.dir = dir ∧ call.wanted = name

namespace Phase

/-- The task is to add the name, and its search will not come upon it in this
slot of the directory, the entry being stored in `zone`: the search has passed
the slot, has taken the directory to end before it, reads another zone in its
place, or is over. -/
def misses (dir : Nat) (name : List UInt8) (slot zone : Nat) : Phase → Prop
  | seeking call _ entries block =>
      call.Adds dir name ∧
        (slot < block * dirEntriesPerBlock ∨ entries ≤ slot)
  | reading call _ entries block own =>
      call.Adds dir name ∧
        (slot < block * dirEntriesPerBlock ∨ entries ≤ slot ∨
          slot / dirEntriesPerBlock = block ∧ zone ≠ own)
  | allocating call => call.Adds dir name
  | building call _ => call.Adds dir name
  | filling call _ _ => call.Adds dir name
  | mapping call _ _ => call.Adds dir name
  | creating call _ _ => call.Adds dir name
  | loading call _ _ _ => call.Adds dir name
  | _ => False

/-- The zone the task has a buffer of. -/
def zone? : Phase → Option Nat
  | reading _ _ _ _ zone => some zone
  | filling _ _ zone => some zone
  | loading _ _ _ zone => some zone
  | removing zone _ => some zone
  | _ => none

/-- The zone that is to be the block of a new directory. -/
def fills : Phase → Option Nat
  | filling _ _ zone => some zone
  | _ => none

/-- The directory that is being made. -/
def builds : Phase → Option Nat
  | building _ number => some number
  | filling _ number _ => some number
  | mapping call number _ => if call.kind = .mkdir then some number else none
  | creating call number _ => if call.kind = .mkdir then some number else none
  | loading call number _ _ => if call.kind = .mkdir then some number else none
  | _ => none

/-- What two tasks are making is not the same. -/
structure Apart (first second : Phase) : Prop where
  zone : ∀ zone, first.fills = some zone → second.zone? ≠ some zone
  number : ∀ number, first.builds = some number →
    second.builds ≠ some number

end Phase

/-! ## The invariant -/

namespace Tree

/-- The zone of the block that a slot is in. -/
def zoneOf (tree : Tree) (dir slot : Nat) : Nat :=
  (tree.dirs dir).zone (slot / dirEntriesPerBlock)

/-- There is an entry in the slot, within the size or not. -/
structure Occupied (tree : Tree) (dir slot : Nat) : Prop where
  isBlock : tree.zoneOf dir slot ≠ 0
  isLive : (tree.data (tree.zoneOf dir slot)
    (slot % dirEntriesPerBlock)).inode ≠ 0

/-- What the task would not find is not there. -/
def Unmissed (tree : Tree) (phase : Phase) : Prop :=
  ∀ dir slot name, name ≠ dotDotName → (tree.dirs dir).zone 0 ≠ 0 →
    phase.misses dir name slot (tree.zoneOf dir slot) →
      ¬tree.Named dir slot name

structure Working (tree : Tree) (call : Call) : Prop where
  proper : call.isProper
  known : tree.known call.dir = true

structure Creating (tree : Tree) (call : Call) : Prop extends
    tree.Working call where
  creates : call.creates

/-- A zone that is, or has been, the block of the directory. -/
structure InBlock (tree : Tree) (dir block zone : Nat) : Prop where
  hasZone : zone ≠ 0
  allocated : tree.allocated zone = true
  sole : ∀ other otherBlock, (tree.dirs other).zone otherBlock = zone →
    other = dir ∧ otherBlock = block

/-- The zone is the block still, or there is nothing beyond the size in the
block that has come in its place. -/
def Overtaken (tree : Tree) (dir block zone : Nat) : Prop :=
  (tree.dirs dir).zone block = zone ∨
    ∀ slot, slot / dirEntriesPerBlock = block →
      (tree.dirs dir).entries ≤ slot → ¬tree.Occupied dir slot

structure Making (tree : Tree) (number : Nat) : Prop where
  taken : tree.taken number = true
  unknown : tree.known number = false

def Vacant (tree : Tree) (number : Nat) : Prop :=
  ∀ block, (tree.dirs number).zone block = 0

structure Adding (tree : Tree) (call : Call) (number block : Nat) :
    Prop extends tree.Creating call where
  making : call.kind = .mkdir → tree.Making number
  hasFirst : (tree.dirs call.dir).zone 0 ≠ 0
  reached : block * dirEntriesPerBlock ≤ (tree.dirs call.dir).entries

def PhaseOk (tree : Tree) : Phase → Prop
  | .idle => True
  | .exchanging call _ covered =>
      call.isProper ∧ tree.known covered = true ∧ call.wanted = dotDotName
  | .seeking call wanted _ _ =>
      tree.Working call ∧ (wanted = call.wanted ∨ call.wanted = dotDotName)
  | .reading call wanted _ block zone =>
      tree.Working call ∧ (wanted = call.wanted ∨ call.wanted = dotDotName) ∧
        tree.InBlock call.dir block zone
  | .allocating call => tree.Creating call
  | .building call number =>
      tree.Creating call ∧ tree.Making number ∧ tree.Vacant number
  | .filling call number zone =>
      tree.Creating call ∧ tree.Making number ∧ tree.Vacant number ∧
        zone ≠ 0 ∧ tree.allocated zone = true ∧
        ∀ dir block, (tree.dirs dir).zone block ≠ zone
  | .mapping call number block => tree.Adding call number block ∧ 0 < block
  | .creating call number block => tree.Adding call number block ∧ 0 < block
  | .loading call number block zone =>
      tree.Adding call number block ∧ tree.InBlock call.dir block zone ∧
        tree.Overtaken call.dir block zone
  | .removing zone _ => zone ≠ 0 ∧ tree.allocated zone = true

/-- The zones of the directories are allocated, and no two of them the
same. -/
structure Shape (tree : Tree) : Prop where
  allocated : ∀ dir block, (tree.dirs dir).zone block ≠ 0 →
    tree.allocated ((tree.dirs dir).zone block) = true
  sole : ∀ dir block other otherBlock, (tree.dirs dir).zone block ≠ 0 →
    (tree.dirs other).zone otherBlock = (tree.dirs dir).zone block →
      other = dir ∧ otherBlock = block
  covers : ∀ dir covered, tree.covers dir = some covered →
    tree.known covered = true
  unknown : ∀ dir, tree.taken dir = false → tree.known dir = false ∧
    tree.Vacant dir
  unique : tree.NoDuplicates

end Tree

structure Users.Sound (users : Users) : Prop where
  shape : users.tree.Shape
  phases : ∀ task, users.tree.PhaseOk (users.tasks task)
  unmissed : ∀ task, users.tree.Unmissed (users.tasks task)
  apart : ∀ first second, first ≠ second →
    (users.tasks first).Apart (users.tasks second)

/-! ## A step, as the other tasks see it -/

/-- What a change of the file system leaves to a task in this phase. -/
structure Bears (tree next : Tree) (phase : Phase) : Prop where
  known : ∀ dir, tree.known dir = true → next.known dir = true
  entries : ∀ dir, tree.known dir = true →
    (tree.dirs dir).entries ≤ (next.dirs dir).entries
  hasFirst : ∀ dir, tree.known dir = true →
    ((next.dirs dir).zone 0 = 0 ↔ (tree.dirs dir).zone 0 = 0)
  making : ∀ number, phase.builds = some number → tree.Making number →
    next.Making number
  vacant : ∀ number, phase.builds = some number → tree.Vacant number →
    next.Vacant number
  allocated : ∀ zone, phase.zone? = some zone → tree.allocated zone = true →
    next.allocated zone = true
  zones : ∀ zone, phase.zone? = some zone → zone ≠ 0 →
    tree.allocated zone = true → ∀ dir block,
      (next.dirs dir).zone block = zone → (tree.dirs dir).zone block = zone
  overtaken : ∀ dir block zone, tree.known dir = true →
    tree.Overtaken dir block zone → next.Overtaken dir block zone
  named : ∀ dir slot name, tree.known dir = true → name ≠ dotDotName →
    phase.misses dir name slot (next.zoneOf dir slot) →
      next.Named dir slot name →
        tree.Named dir slot name ∧ next.zoneOf dir slot = tree.zoneOf dir slot

namespace Bears

variable {tree next : Tree}

theorem refl (tree : Tree) (phase : Phase) : Bears tree tree phase where
  known := fun _ known => known
  entries := fun _ _ => Nat.le_refl _
  hasFirst := fun _ _ => Iff.rfl
  making := fun _ _ making => making
  vacant := fun _ _ vacant => vacant
  allocated := fun _ _ allocated => allocated
  zones := fun _ _ _ _ _ _ same => same
  overtaken := fun _ _ _ _ overtaken => overtaken
  named := fun _ _ _ _ _ _ named => ⟨named, rfl⟩

theorem working {phase : Phase} (bears : Bears tree next phase) {call : Call}
    (working : tree.Working call) : next.Working call :=
  ⟨working.proper, bears.known _ working.known⟩

theorem creating {phase : Phase} (bears : Bears tree next phase) {call : Call}
    (creating : tree.Creating call) : next.Creating call :=
  ⟨bears.working creating.toWorking, creating.creates⟩

theorem inBlock {phase : Phase} (bears : Bears tree next phase)
    {dir block zone : Nat} (isZone : phase.zone? = some zone)
    (inBlock : tree.InBlock dir block zone) : next.InBlock dir block zone where
  hasZone := inBlock.hasZone
  allocated := bears.allocated zone isZone inBlock.allocated
  sole := fun other otherBlock same =>
    inBlock.sole other otherBlock
      (bears.zones zone isZone inBlock.hasZone inBlock.allocated _ _ same)

theorem adding {phase : Phase} (bears : Bears tree next phase) {call : Call}
    {number block : Nat}
    (builds : call.kind = .mkdir → phase.builds = some number)
    (adding : tree.Adding call number block) :
    next.Adding call number block where
  toCreating := bears.creating adding.toCreating
  making := fun isMkdir =>
    bears.making number (builds isMkdir) (adding.making isMkdir)
  hasFirst := fun none => adding.hasFirst
    ((bears.hasFirst _ adding.known).mp none)
  reached := Nat.le_trans adding.reached
    (bears.entries _ adding.known)

theorem phaseOk {phase : Phase} (bears : Bears tree next phase)
    (isOk : tree.PhaseOk phase) : next.PhaseOk phase := by
  cases phase with
  | idle => trivial
  | exchanging call entries covered =>
      obtain ⟨proper, known, isDotDot⟩ := isOk
      exact ⟨proper, bears.known _ known, isDotDot⟩
  | seeking call wanted entries block =>
      exact ⟨bears.working isOk.1, isOk.2⟩
  | reading call wanted entries block zone =>
      obtain ⟨working, looksFor, inBlock⟩ := isOk
      exact ⟨bears.working working, looksFor, bears.inBlock rfl inBlock⟩
  | allocating call => exact bears.creating isOk
  | building call number =>
      obtain ⟨creating, making, vacant⟩ := isOk
      exact ⟨bears.creating creating, bears.making number rfl making,
        bears.vacant number rfl vacant⟩
  | filling call number zone =>
      obtain ⟨creating, making, vacant, hasZone, allocated, unused⟩ := isOk
      refine ⟨bears.creating creating, bears.making number rfl making,
        bears.vacant number rfl vacant, hasZone,
        bears.allocated zone rfl allocated, ?_⟩
      intro dir block same
      exact unused dir block (bears.zones zone rfl hasZone allocated _ _ same)
  | mapping call number block =>
      exact ⟨bears.adding (fun isMkdir => if_pos isMkdir) isOk.1, isOk.2⟩
  | creating call number block =>
      exact ⟨bears.adding (fun isMkdir => if_pos isMkdir) isOk.1, isOk.2⟩
  | loading call number block zone =>
      obtain ⟨adding, inBlock, overtaken⟩ := isOk
      exact ⟨bears.adding (fun isMkdir => if_pos isMkdir) adding,
        bears.inBlock rfl inBlock,
        bears.overtaken _ _ _ adding.known overtaken⟩
  | removing zone index =>
      exact ⟨isOk.1, bears.allocated zone rfl isOk.2⟩

/-- The directories of a task that looks for a name are known ones. -/
theorem misses_known {phase : Phase} (isOk : tree.PhaseOk phase)
    {dir slot zone : Nat} {name : List UInt8}
    (misses : phase.misses dir name slot zone) : tree.known dir = true := by
  cases phase with
  | idle => exact misses.elim
  | exchanging call entries covered => exact misses.elim
  | seeking call wanted entries block => exact misses.1.2.1 ▸ isOk.1.known
  | reading call wanted entries block zone =>
      exact misses.1.2.1 ▸ isOk.1.known
  | allocating call => exact misses.2.1 ▸ isOk.known
  | building call number => exact misses.2.1 ▸ isOk.1.known
  | filling call number zone => exact misses.2.1 ▸ isOk.1.known
  | mapping call number block => exact misses.2.1 ▸ isOk.1.known
  | creating call number block => exact misses.2.1 ▸ isOk.1.known
  | loading call number block zone => exact misses.2.1 ▸ isOk.1.known
  | removing zone index => exact misses.elim

theorem unmissed {phase : Phase} (bears : Bears tree next phase)
    (isOk : tree.PhaseOk phase) (unmissed : tree.Unmissed phase) :
    next.Unmissed phase := by
  intro dir slot name notDotDot hasFirst misses named
  have known := misses_known isOk misses
  obtain ⟨before, sameZone⟩ :=
    bears.named dir slot name known notDotDot misses named
  rw [sameZone] at misses
  exact unmissed dir slot name notDotDot
    (fun none => hasFirst ((bears.hasFirst dir known).mpr none)) misses before

end Bears

/-- What the step of a task leaves to the others. -/
structure Leaves (users : Users) (task : Nat) (next : Tree) : Prop where
  shape : next.Shape
  bears : ∀ other, other ≠ task → Bears users.tree next (users.tasks other)

/-- The new phase of the task as well. -/
structure MayEnter (users : Users) (task : Nat) (next : Tree) (phase : Phase) :
    Prop where
  leaves : Leaves users task next
  isOk : next.PhaseOk phase
  unmissed : next.Unmissed phase
  apart : ∀ other, other ≠ task →
    phase.Apart (users.tasks other) ∧ (users.tasks other).Apart phase

/-- Whatever the task does, it may do. -/
def Leads (users : Users) (task : Nat) (effect : Option (Tree × Phase)) :
    Prop :=
  ∀ next phase, effect = some (next, phase) → MayEnter users task next phase

section Step

variable {users : Users} {task : Nat} {next : Tree}

theorem Users.Sound.enter {phase : Phase} (sound : users.Sound)
    (may : MayEnter users task next phase) :
    Users.Sound
      { tree := next
        tasks := fun other =>
          if other = task then phase else users.tasks other } where
  shape := may.leaves.shape
  phases := by
    intro other
    by_cases own : other = task
    · simp only [own, if_true]
      exact may.isOk
    · simp only [own, if_false]
      exact (may.leaves.bears other own).phaseOk (sound.phases other)
  unmissed := by
    intro other
    by_cases own : other = task
    · simp only [own, if_true]
      exact may.unmissed
    · simp only [own, if_false]
      exact (may.leaves.bears other own).unmissed (sound.phases other)
        (sound.unmissed other)
  apart := by
    intro first second different
    by_cases isFirst : first = task <;> by_cases isSecond : second = task
    · exact (different (isFirst.trans isSecond.symm)).elim
    · simp only [isFirst, isSecond, if_true, if_false]
      exact (may.apart second isSecond).1
    · simp only [isFirst, isSecond, if_true, if_false]
      exact (may.apart first isFirst).2
    · simp only [isFirst, isSecond, if_false]
      exact sound.apart first second different

theorem Users.Sound.stays (sound : users.Sound) (task : Nat) :
    Leaves users task users.tree :=
  ⟨sound.shape, fun _ _ => Bears.refl _ _⟩

theorem leads_some {phase : Phase} (may : MayEnter users task next phase) :
    Leads users task (some (next, phase)) := by
  rintro _ _ ⟨⟩
  exact may

theorem leads_none : Leads users task none := by
  intro _ _ impossible
  cases impossible

/-- A phase without a zone or a directory of its own. -/
theorem apart_plain {phase : Phase} (fills : phase.fills = none)
    (zone : phase.zone? = none) (builds : phase.builds = none)
    (other : Phase) : phase.Apart other ∧ other.Apart phase := by
  constructor
  · exact ⟨fun own isOwn => by simp [fills] at isOwn,
      fun own isOwn => by simp [builds] at isOwn⟩
  · exact ⟨fun _ _ => by simp [zone], fun _ _ => by simp [builds]⟩

/-- A phase with a zone that nobody is to fill. -/
theorem apart_zone {phase other : Phase} {zone : Nat}
    (fills : phase.fills = none) (isZone : phase.zone? = some zone)
    (builds : ∀ number, phase.builds = some number →
      other.builds ≠ some number)
    (unfilled : other.fills ≠ some zone) :
    phase.Apart other ∧ other.Apart phase := by
  constructor
  · exact ⟨fun own isOwn => by simp [fills] at isOwn, builds⟩
  · refine ⟨?_, fun number isNumber same => builds number same isNumber⟩
    intro own isOwn same
    rw [isZone, Option.some.injEq] at same
    exact unfilled (same ▸ isOwn)

/-- A phase without a zone that makes what the phase before it makes. -/
theorem Users.Sound.apart_same (sound : users.Sound) {phase : Phase}
    (fills : phase.fills = none) (zone : phase.zone? = none)
    (builds : phase.builds = (users.tasks task).builds) {other : Nat}
    (isOther : other ≠ task) :
    phase.Apart (users.tasks other) ∧ (users.tasks other).Apart phase := by
  constructor
  · refine ⟨fun own isOwn => by simp [fills] at isOwn, ?_⟩
    rw [builds]
    exact (sound.apart task other (Ne.symm isOther)).number
  · refine ⟨fun _ _ => by simp [zone], ?_⟩
    rw [builds]
    exact (sound.apart other task isOther).number

theorem idle_may (leaves : Leaves users task next) :
    MayEnter users task next .idle where
  leaves := leaves
  isOk := trivial
  unmissed := fun _ _ _ _ _ misses => misses.elim
  apart := fun _ _ => apart_plain rfl rfl rfl _

theorem addFails_leads (leaves : Leaves users task next) (call : Call) :
    Leads users task (next.addFails call) := by
  unfold Tree.addFails
  split
  · exact leads_none
  · exact leads_some (idle_may leaves)

/-- A zone of a directory is not to be filled by anybody. -/
theorem Leaves.unfilled (sound : users.Sound)
    (leaves : Leaves users task next) {other dir block : Nat}
    (isOther : other ≠ task) :
    (users.tasks other).fills ≠ some ((next.dirs dir).zone block) := by
  intro fills
  have isOk := (leaves.bears other isOther).phaseOk (sound.phases other)
  cases inPhase : users.tasks other <;> rw [inPhase] at fills isOk <;>
    cases fills
  exact isOk.2.2.2.2.2 dir block rfl

theorem Tree.Shape.inBlock {tree : Tree} (shape : tree.Shape) {dir block : Nat}
    (isBlock : (tree.dirs dir).zone block ≠ 0) :
    tree.InBlock dir block ((tree.dirs dir).zone block) where
  hasZone := isBlock
  allocated := shape.allocated dir block isBlock
  sole := fun other otherBlock same =>
    shape.sole dir block other otherBlock isBlock same

end Step

end Linux011.Fs
