import Linux011.Proc.ArgumentTables

/-!
# Execve hands over its strings

The argument pages become the top of the new image, and the tables are made
below them.
-/

namespace Linux011.Proc

open Linux011.Mm Bytes Coop

variable {layout : Layout} {nr : Nat} {exec next : Exec} {p : Nat}
  {content : List Byte} {i : Nat}

/-! ## The old image goes -/

theorem Collected.setMemory (collected : Collected layout nr exec p content)
    {memory : Mm.State}
    (valid : ∀ holds, Valid layout exec.system.memory holds →
      Valid layout memory holds)
    (pde : ∀ dir, (exec.system.memory.pde dir).present = false →
      (memory.pde dir).present = false)
    (pages : ∀ i pag, exec.page i = some pag →
      memory.phys pag = exec.system.memory.phys pag) :
    Collected layout nr (exec.setMemory memory) p content := by
  obtain ⟨holds, running⟩ := collected.running
  refine ⟨⟨holds, running.setMemory (valid holds running.valid) pde
    fun _ held => held⟩, collected.extent, collected.content.stays ?_⟩
  intro q byte _ _ isByte
  unfold Exec.area at isByte ⊢
  show (exec.page (q / 4096)).map (fun pag => memory.byte pag (q % 4096)) = _
  cases isPage : exec.page (q / 4096) with
  | none =>
      rw [isPage] at isByte
      cases isByte
  | some pag =>
      rw [isPage] at isByte
      rw [Option.map_some, State.byte_congr (pages _ _ isPage)]
      exact isByte

/-- The argument pages from `i` on are in place. -/
structure Moving (layout : Layout) (nr : Nat) (exec : Exec) (i p : Nat)
    (content : List Byte) : Prop where
  started : Started layout nr exec
  free : ∀ address, Fault.At nr address →
    address < windowBase nr + 0x3fe0000 + i * 4096 →
      (exec.system.memory.entryAt address).present = false
  gone : ∀ j, i ≤ j → exec.page j = none
  waiting : ∀ k byte, content[k]? = some byte → (p + k) / 4096 < i →
    exec.area (p + k) = some byte
  placed : ∀ k byte, content[k]? = some byte → i ≤ (p + k) / 4096 →
    exec.sees layout nr (0x3fe0000 + (p + k)) = some byte

theorem below_argPage {i address : Nat}
    (below : address < windowBase nr + 0x3fe0000 + i * 4096) :
    address / 4096 ≠ (windowBase nr + 0x3fe0000 + i * 4096) / 4096 := by
  unfold windowBase at below ⊢
  omega

theorem below_next {i address : Nat}
    (below : address < windowBase nr + 0x3fe0000 + i * 4096) :
    address < windowBase nr + 0x3fe0000 + (i + 1) * 4096 :=
  lt_of_lt_of_le below
    (Nat.add_le_add_left (Nat.mul_le_mul_right 4096 (Nat.le_succ i)) _)

/-- One page is put in place. -/
theorem Moving.put {i pag : Nat} {memory : Mm.State}
    (moving : Moving layout nr exec (i + 1) p content) (inArea : i < 32)
    (extent : p + content.length ≤ 131072)
    (isPage : exec.page i = some pag)
    (put : putPage pag (windowBase nr + 0x3fe0000 + i * 4096)
      exec.system.memory = (true, memory)) :
    Moving layout nr ((exec.setMemory memory).setPage i none) i p content := by
  obtain ⟨holds, running⟩ := moving.started.running
  obtain ⟨task, isTask, segment⟩ := moving.started.segment
  obtain ⟨q, isOwn, inWindow, _⟩ := running.own
  have inside : Fault.At nr (windowBase nr + 0x3fe0000 + i * 4096) :=
    ⟨running.isTask, by omega, by omega⟩
  have absent := moving.free _ inside (by omega)
  have held := running.held i pag isPage
  have managed := running.valid.exact.owned pag (by omega)
  obtain ⟨valid, entries, keeps⟩ :=
    putPage_true running.valid inside.isUser absent held put
  have pages (j : Nat) :
      ((exec.setMemory memory).setPage i none).page j =
        if j = i then none else exec.page j := rfl
  have entry {address : Nat} (addressInside : Fault.At nr address)
      (different : address / 4096 ≠
        (windowBase nr + 0x3fe0000 + i * 4096) / 4096) :
      memory.entryAt address = exec.system.memory.entryAt address :=
    entryAt_setEntry_other entries inside addressInside different
  have here {address : Nat} (samePage : address / 4096 =
      (windowBase nr + 0x3fe0000 + i * 4096) / 4096) :
      memory.entryAt address = Word.user pag :=
    (entryAt_samePage samePage).trans (entryAt_setEntry_same entries)
  have hereMapped {address : Nat} (samePage : address / 4096 =
      (windowBase nr + 0x3fe0000 + i * 4096) / 4096) :
      Mapped layout memory address := .of_user managed (here samePage)
  have content_kept {other : Nat} (otherHeld : 0 < holds other) :
      memory.phys other = exec.system.memory.phys other := by
    have otherManaged := running.valid.exact.owned other (by omega)
    exact keeps other (Valid.managed_ne_zero otherManaged) fun _ => by omega
  have base : windowBase nr % 4096 = 0 := by
    unfold windowBase
    omega
  have stays {address : Nat} (addressInside : Fault.At nr address)
      (different : address / 4096 ≠
        (windowBase nr + 0x3fe0000 + i * 4096) / 4096)
      (mapped : Mapped layout exec.system.memory address) :=
    mapped.stays addressInside.isUser (entry addressInside different) keeps
  refine
    { started := ⟨⟨give holds pag, ?_⟩, ⟨task, isTask, segment⟩, ?_⟩
      free := ?_, gone := ?_, waiting := ?_, placed := ?_ }
  · refine
      { isTask := running.isTask
        valid := valid
        windowed := running.windowed
        own := ⟨q, isOwn, inWindow, ?_⟩
        held := ?_
        apart := ?_
        few := ?_ }
    · intro dir above below
      rw [isTask, Option.some.injEq] at isOwn
      subst isOwn
      rw [segment] at above
      dsimp only at above
      omega
    · intro j other isOther
      rw [pages] at isOther
      split at isOther <;> rename_i notHere
      · cases isOther
      · have different : other ≠ pag := by
          rintro rfl
          exact notHere (running.apart j i other isOther isPage)
        unfold give
        rw [if_neg different]
        exact running.held j other isOther
    · intro first second other isFirst isSecond
      rw [pages] at isFirst isSecond
      split at isFirst
      · cases isFirst
      · split at isSecond
        · cases isSecond
        · exact running.apart first second other isFirst isSecond
    · intro j beyond
      rw [pages]
      split
      · rfl
      · exact running.few j beyond
  · intro address addressInside isPresent
    by_cases samePage : address / 4096 =
        (windowBase nr + 0x3fe0000 + i * 4096) / 4096
    · exact hereMapped samePage
    · have same := entry addressInside samePage
      refine (stays addressInside samePage
        (moving.started.pages address addressInside ?_)).1
      rw [← same]
      exact isPresent
  · intro address addressInside below
    show (memory.entryAt address).present = false
    rw [entry addressInside (below_argPage below)]
    exact moving.free address addressInside (below_next below)
  · intro j above
    rw [pages]
    split
    · rfl
    · exact moving.gone j (by omega)
  · intro k byte isByte below
    have was := moving.waiting k byte isByte (by omega)
    unfold Exec.area at was ⊢
    rw [pages, if_neg (by omega)]
    cases isOther : exec.page ((p + k) / 4096) with
    | none =>
        rw [isOther] at was
        cases was
    | some other =>
        rw [isOther] at was
        show some (memory.byte other ((p + k) % 4096)) = some byte
        rw [State.byte_congr (content_kept (running.held _ _ isOther))]
        exact was
  · intro k byte isByte above
    have inContent : k < content.length :=
      (List.getElem?_eq_some_iff.mp isByte).1
    have small : 0x3fe0000 + (p + k) < 0x4000000 := by omega
    have atByte := moving.started.inside small
    by_cases onPage : (p + k) / 4096 = i
    · have samePage : (windowBase nr + (0x3fe0000 + (p + k))) / 4096 =
          (windowBase nr + 0x3fe0000 + i * 4096) / 4096 := by
        omega
      have mapped := hereMapped samePage
      have was := moving.waiting k byte isByte (by omega)
      unfold Exec.area at was
      rw [onPage, isPage, Option.map_some] at was
      refine sees_eq_some.mpr ⟨small, mapped, ?_⟩
      refine (userByte_of_present mapped.1).trans ?_
      rw [here samePage, Word.page_user managed.small,
        State.byte_congr (content_kept held),
        show (windowBase nr + (0x3fe0000 + (p + k))) % 4096 = (p + k) % 4096 by
          omega]
      exact was
    · obtain ⟨_, mapped, isUser⟩ :=
        sees_eq_some.mp (moving.placed k byte isByte (by omega))
      obtain ⟨nextMapped, same⟩ := stays atByte (by omega) mapped
      exact sees_eq_some.mpr ⟨small, nextMapped, same.trans isUser⟩

/-- An index without a page. -/
theorem Moving.skip (moving : Moving layout nr exec (i + 1) p content)
    (noPage : exec.page i = none) : Moving layout nr exec i p content where
  started := moving.started
  free := fun address addressInside below =>
    moving.free address addressInside (below_next below)
  gone := by
    intro j above
    rcases Nat.eq_or_lt_of_le above with rfl | further
    · exact noPage
    · exact moving.gone j further
  waiting := fun k byte isByte below =>
    moving.waiting k byte isByte (Nat.lt_succ_of_lt below)
  placed := by
    intro k byte isByte above
    rcases Nat.eq_or_lt_of_le above with same | further
    · have was := moving.waiting k byte isByte (by omega)
      unfold Exec.area at was
      rw [← same, noPage] at was
      cases was
    · exact moving.placed k byte isByte further

theorem Exec.task_onTask {task : TaskStruct}
    (isTask : exec.system.task nr = some task)
    (change : TaskStruct → TaskStruct) :
    (exec.onTask nr change).system.task nr = some (change task) := by
  unfold Exec.onTask System.onTask
  rw [System.setTask_same, isTask, Option.map_some]

theorem Running.onTask {holds : Nat → Nat}
    (running : Running layout nr exec holds)
    {change : TaskStruct → TaskStruct}
    (fits : ∀ p, p.image.InWindow nr → (change p).image.InWindow nr ∧
      p.dataSegment.limit ≤ (change p).dataSegment.limit) :
    Running layout nr (exec.onTask nr change) holds := by
  obtain ⟨p, isTask, inWindow, tables⟩ := running.own
  obtain ⟨nextInWindow, larger⟩ := fits p inWindow
  have isNext := exec.task_onTask isTask change
  refine
    { isTask := running.isTask
      valid := running.valid
      windowed := ?_
      own := ⟨change p, isNext, nextInWindow, ?_⟩
      held := running.held
      apart := running.apart
      few := running.few }
  · intro other q isOther
    by_cases same : other = nr
    · subst same
      rw [isNext, Option.some.injEq] at isOther
      subst isOther
      exact nextInWindow.start
    · refine running.windowed other q ?_
      rw [← isOther]
      exact (System.setTask_other same).symm
  · intro dir above below
    refine tables dir (le_trans ?_ above) below
    exact Nat.add_le_add_left (Nat.div_le_div_right
      (Nat.add_le_add_right larger _)) _

/-- A change of the structure that the image does not depend on. -/
theorem Collected.onTask (collected : Collected layout nr exec p content)
    {change : TaskStruct → TaskStruct}
    (fits : ∀ p, p.image.InWindow nr → (change p).image.InWindow nr ∧
      p.dataSegment.limit ≤ (change p).dataSegment.limit) :
    Collected layout nr (exec.onTask nr change) p content := by
  obtain ⟨holds, running⟩ := collected.running
  exact ⟨⟨holds, running.onTask fits⟩, collected.extent, collected.content⟩

theorem Started.onTask (started : Started layout nr exec)
    {change : TaskStruct → TaskStruct}
    (fits : ∀ p, p.image.InWindow nr → (change p).image.InWindow nr)
    (same : ∀ p, (change p).dataSegment = p.dataSegment) :
    Started layout nr (exec.onTask nr change) := by
  obtain ⟨holds, running⟩ := started.running
  obtain ⟨p, isTask, segment⟩ := started.segment
  refine ⟨⟨holds, running.onTask fun q inWindow => ⟨fits q inWindow, ?_⟩⟩,
    ⟨change p, exec.task_onTask isTask change, (same p).trans segment⟩,
    started.pages⟩
  rw [same]

/-! ## change_ldt -/

/-- No page is mapped in the window of slot `nr`. -/
def Emptied (nr : Nat) (exec : Exec) : Prop :=
  ∀ address, Fault.At nr address →
    (exec.system.memory.entryAt address).present = false

/-- The window is empty once its page tables are gone. -/
theorem Running.emptied {holds : Nat → Nat}
    (running : Running layout nr exec holds) {task : TaskStruct}
    (isTask : exec.system.task nr = some task)
    (gone : ∀ dir, nr * 16 ≤ dir →
      dir < nr * 16 + (task.dataSegment.limit + 0x3fffff) / 2 ^ 22 →
        (exec.system.memory.pde dir).present = false) :
    Emptied nr exec := by
  intro address inside
  obtain ⟨q, isOwn, _, beyond⟩ := running.own
  rw [isTask, Option.some.injEq] at isOwn
  subst isOwn
  have above := inside.above
  have below := inside.below
  have isSlot := inside.isTask
  have isDir : nr * 16 ≤ dirIndex address ∧
      dirIndex address < nr * 16 + 16 := by
    unfold windowBase at above below
    unfold dirIndex
    omega
  have absent : (exec.system.memory.pde (dirIndex address)).present =
      false := by
    by_cases within : dirIndex address < nr * 16 +
        (task.dataSegment.limit + 0x3fffff) / 2 ^ 22
    · exact gone _ isDir.1 within
    · exact beyond _ (Nat.le_of_not_lt within) isDir.2
  unfold Mm.State.entryAt Mm.State.pte
  rw [if_neg]
  · rfl
  · rintro ⟨_, isPresent⟩
    rw [absent] at isPresent
    cases isPresent

/-- The table has the address of a copy of every string and ends with a zero;
the copies lie one behind the other from `p` on. -/
structure Handed (memory : Nat → Option Byte) (table p : Nat)
    (strings : List (List Byte)) : Prop where
  entry : ∀ i string, strings[i]? = some string → ∃ pointer,
    pointer = p + (packed (strings.take i)).length ∧
      HoldsLong memory (table + 4 * i) pointer ∧
        Holds memory pointer (string ++ [0])
  ended : HoldsLong memory (table + 4 * strings.length) 0

section Handing

variable {memory other : Nat → Option Byte} {table p argv envp : Nat}
  {strings args env : List (List Byte)}

theorem Table.handed (isTable : Table memory table p strings)
    (holds : Holds memory p (packed strings)) :
    Handed memory table p strings := by
  induction strings generalizing table p with
  | nil => exact ⟨fun i string isString => (nomatch isString), isTable⟩
  | cons first rest induction =>
      obtain ⟨isEntry, isRest⟩ := isTable
      rw [packed_cons] at holds
      obtain ⟨isFirst, holdsRest⟩ := holds_append.mp holds
      rw [List.length_append, List.length_singleton, ← Nat.add_assoc]
        at holdsRest
      have further := induction isRest holdsRest
      refine ⟨?_, ?_⟩
      · intro i string isString
        cases i with
        | zero =>
            cases isString
            exact ⟨p, rfl, isEntry, isFirst⟩
        | succ i =>
            obtain ⟨pointer, isPointer, isLong, isCopy⟩ :=
              further.entry i string isString
            refine ⟨pointer, ?_, ?_, isCopy⟩
            · rw [isPointer, List.take_succ_cons, packed_cons,
                List.length_append, List.length_append, List.length_singleton]
              omega
            · rw [show table + 4 * (i + 1) = table + 4 + 4 * i by omega]
              exact isLong
      · rw [List.length_cons,
          show table + 4 * (rest.length + 1) = table + 4 + 4 * rest.length by
            omega]
        exact further.ended

/-- What can be read at `first` and above can be read there still. -/
def ReadsAbove (first : Nat) (memory other : Nat → Option Byte) : Prop :=
  ∀ address byte, first ≤ address → memory address = some byte →
    other address = some byte

theorem ReadsAbove.holds {first address : Nat} {bytes : List Byte}
    (same : ReadsAbove first memory other) (above : first ≤ address)
    (holds : Holds memory address bytes) : Holds other address bytes :=
  holds.stays fun further byte beyond _ isByte =>
    same further byte (le_trans above beyond) isByte

theorem Handed.stays {first : Nat} (handed : Handed memory table p strings)
    (same : ReadsAbove first memory other)
    (above : first ≤ table ∧ first ≤ p) : Handed other table p strings where
  entry := by
    intro i string isString
    obtain ⟨pointer, rfl, isLong, isCopy⟩ := handed.entry i string isString
    exact ⟨_, rfl, same.holds (by omega) isLong, same.holds (by omega) isCopy⟩
  ended := same.holds (by omega) handed.ended

end Handing

variable {around : Surroundings} {registers : Registers} {inode : Program}
  {ex : Header} {euid egid : UInt16} {args env : List (List Byte)}

/-- The three sizes are those of a program that fits below the stack. -/
def Header.Fits (ex : Header) : Prop :=
  ex.text.toNat + ex.data.toNat + ex.bss.toNat ≤ 0x3000000

theorem setExecutable_inWindow (inode : Program) (q : TaskStruct)
    (inWindow : q.image.InWindow nr) :
    (setExecutable inode q).image.InWindow nr ∧
      q.dataSegment.limit ≤ (setExecutable inode q).dataSegment.limit :=
  ⟨⟨inWindow.start, inWindow.codeBase, inWindow.dataBase, inWindow.codeLimit,
    inWindow.dataLimit, inWindow.endData⟩, le_refl _⟩

theorem closeMarked_inWindow (q : TaskStruct)
    (inWindow : q.image.InWindow nr) :
    (closeMarked q).image.InWindow nr ∧
      q.dataSegment.limit ≤ (closeMarked q).dataSegment.limit :=
  ⟨inWindow, le_refl _⟩

/-- A call of `execve` on a program in the a.out format, with vectors whose
strings fit in the argument pages. -/
structure Executes (around : Surroundings) (registers : Registers)
    (filename argv envp : Nat) (inode : Program) (block : Nat → Byte)
    (args env : List (List Byte)) : Prop where
  fromUser : registers.cs &&& 0xffff = 0xf
  names : ∃ name, StringAt around filename name ∧ name.length < 4294967296 ∧
    around.namei name = some inode
  regular : inode.mode &&& 0o170000 = 0o100000
  isBlock : inode.block = some block
  noScript : ¬ (block 0 = 35 ∧ block 1 = 33)
  accepted : (readHeader block).refused inode.size = false
  fits : (readHeader block).Fits
  isArgv : VectorAt around argv args
  isEnvp : VectorAt around envp env
  small : (packed args).length + (packed env).length < 128 * 1024 - 4

/-- The caller runs in a sound system and may execute the program. -/
structure Caller (layout : Layout) (nr : Nat) (inode : Program)
    (exec : Exec) : Prop where
  running : ∃ holds,
    Running layout nr { exec with page := fun _ => none } holds
  allowed : ∀ p, exec.system.task nr = some p → executable p inode = true

theorem examine_executable {task : TaskStruct} {block : Nat → Byte}
    (regular : inode.mode &&& 0o170000 = 0o100000)
    (allowed : executable task inode = true)
    (isBlock : inode.block = some block) :
    ∃ euid egid, examine task inode = .readable euid egid block := by
  unfold examine
  rw [if_neg (not_not_intro regular), if_neg (by simp [allowed]), isBlock]
  exact ⟨_, _, rfl⟩

/-- Other tasks do not change the ids of the caller. -/
theorem Caller.examines {block : Nat → Byte}
    (caller : Caller layout nr inode exec)
    (regular : inode.mode &&& 0o170000 = 0o100000)
    (isBlock : inode.block = some block) {later : Exec}
    (other : Elsewhere layout nr { exec with page := fun _ => none } later) :
    ∃ task euid egid, later.system.task nr = some task ∧
      examine task inode = .readable euid egid block := by
  obtain ⟨holds, running⟩ := caller.running
  obtain ⟨p, isTask, _⟩ := running.own
  obtain ⟨q, isNow, same⟩ := other.image p isTask
  have allowed : executable q inode = true := by
    have sameUid : q.euid = p.euid := congrArg Image.euid same
    have sameGid : q.egid = p.egid := congrArg Image.egid same
    have may := caller.allowed p isTask
    unfold executable at may ⊢
    rw [sameUid, sameGid]
    exact may
  obtain ⟨euid, egid, isReadable⟩ := examine_executable regular allowed isBlock
  exact ⟨q, euid, egid, isNow, isReadable⟩

section Example

/-- The first block of a program with sixteen bytes of text. -/
def smallBlock (address : Nat) : Byte :=
  if address = 0 then 11 else if address = 1 then 1
  else if address = 4 then 16 else 0

def smallProgram : Program where
  index := 3
  mode := 0o100755
  uid := 0
  gid := 0
  size := 1040
  block := some smallBlock

/-- `execve("a", {"b", 0}, 0)`: the name at 100, the vector at 200, its
string at 300. -/
def oneArgument : Surroundings where
  old := fun address =>
    if address = 100 then 97
    else if address = 200 then 44
    else if address = 201 then 1
    else if address = 300 then 98
    else 0
  namei := fun name => if name = [97] then some smallProgram else none
  load := fun _ _ => 0

def userRegisters : Registers :=
  { (initTask 5).tss.registers with cs := 0xf }

/-- The first task after `init` was forked. -/
def initExec : Exec where
  system :=
    { memory := boot sixteenMegabytes zeroMemory
      task := fun nr =>
        if nr = 1 then
          some
            { initTask 5 with
              startCode := 0x4000000
              codeSegment := ⟨0x4000000, 0xA0000⟩
              dataSegment := ⟨0x4000000, 0xA0000⟩ }
        else none
      lastPid := 1
      jiffies := 0
      fileTable := fun _ => ⟨0, 0, 0, none, 0⟩
      iCount := fun _ => 0 }
  page := fun _ => none

theorem initExec_caller :
    Caller sixteenMegabytes.layout 1 smallProgram initExec where
  running := by
    refine ⟨fun _ => 0, ?_⟩
    refine
      { isTask := ⟨by decide, by decide⟩
        valid := boot_valid sixteenMegabytes zeroMemory
        windowed := ?_
        own := ⟨_, rfl, ⟨rfl, rfl, rfl, by decide, by decide, by decide⟩, ?_⟩
        held := fun i pag isPage => (nomatch isPage)
        apart := fun i j pag isPage => (nomatch isPage)
        few := fun _ _ => rfl }
    · intro other p isOther
      unfold initExec at isOther
      dsimp only at isOther
      split at isOther
      · subst other
        cases isOther
        rfl
      · cases isOther
    · intro dir above below
      have member : dir ∈ userDirs := mem_userDirs.mpr ⟨by omega, by omega⟩
      show ((boot sixteenMegabytes zeroMemory).pde dir).present = false
      rw [boot_pde member]
      rfl
  allowed := by
    intro p isTask
    cases isTask
    rfl

theorem oneArgument_executes : Executes oneArgument userRegisters 100 200 0
    smallProgram smallBlock [[98]] [] where
  fromUser := by decide
  names := by
    refine ⟨[97], ⟨?_, rfl, by decide⟩, by decide, rfl⟩
    intro i byte isByte
    cases i with
    | zero =>
        cases isByte
        rfl
    | succ i => cases isByte
  regular := rfl
  isBlock := rfl
  noScript := by decide
  accepted := by decide
  fits := by
    unfold Header.Fits
    decide
  isArgv := by
    refine ⟨?_, fun _ => by decide⟩
    intro i bytes isString
    cases i with
    | zero =>
        cases isString
        refine ⟨by decide, by decide, ?_, by decide, by decide⟩
        intro i byte isByte
        cases i with
        | zero =>
            cases isByte
            decide
        | succ i => cases isByte
    | succ i => cases isString
  isEnvp := ⟨fun i string isString => (nomatch isString),
    fun notNull => absurd rfl notNull⟩
  small := by decide

end Example

end Linux011.Proc
