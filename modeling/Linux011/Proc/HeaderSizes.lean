import Linux011.Proc.Execve
import Linux011.Proc.ExecHelpers

/-!
# The sizes in the header of a program

`do_execve` adds the sizes of the header as 32-bit numbers before it compares
them, so what it accepts need not fit.  The numbers in the task structure are
what `change_ldt` and the end of the call make them.
-/

namespace Linux011.Proc

open Linux011.Mm Bytes Coop Prog

variable {nr : Nat} {around : Surroundings}

/-! ## The numbers of the new image -/

/-- The part of a task structure that says where its program is. -/
structure Outline where
  executable : Option Nat
  codeSegment : Segment
  dataSegment : Segment
  endCode : Nat
  endData : Nat
  brk : Nat

def TaskStruct.outline (task : TaskStruct) : Outline where
  executable := task.executable
  codeSegment := task.codeSegment
  dataSegment := task.dataSegment
  endCode := task.endCode
  endData := task.endData
  brk := task.brk

/-- What the other tasks may do while the task in slot `nr` sleeps. -/
def LeavesOutline (nr : Nat) (exec next : Exec) : Prop :=
  ∀ later, next.system.task nr = some later →
    ∃ task, exec.system.task nr = some task ∧ later.outline = task.outline

/-- What holds of the task in slot `nr`. -/
def Outlined (nr : Nat) (about : Outline → Prop) (exec : Exec) : Prop :=
  ∀ task, exec.system.task nr = some task → about task.outline

section Numbers

variable {about after : Outline → Prop} {exec : Exec} {ex : Header}
  {index : Nat}

theorem outlined_structural :
    Structural .any (LeavesOutline nr) (Outlined nr about) where
  panics := fun _ _ => trivial
  sleeps := by
    intro exec next outlined leaves later isLater
    obtain ⟨task, isTask, same⟩ := leaves later isLater
    rw [same]
    exact outlined task isTask
  memory := fun _ _ outlined => outlined
  page := fun _ _ _ outlined => outlined

theorem Outlined.onTask (outlined : Outlined nr about exec)
    {change : TaskStruct → TaskStruct}
    (changes : ∀ task, about task.outline → after (change task).outline) :
    Outlined nr after (exec.onTask nr change) := by
  intro later isLater
  unfold Exec.onTask System.onTask at isLater
  rw [System.setTask_same, Option.map_eq_some_iff] at isLater
  obtain ⟨task, isTask, rfl⟩ := isLater
  exact changes task (outlined task isTask)

/-- `code_limit` of `change_ldt`. -/
def codeLimit (textSize : Nat) : Nat :=
  unsigned (textSize + 4095) / 4096 * 4096

/-- The outline of a task that runs the program with a header. -/
structure Outline.Of (ex : Header) (index : Nat) (outline : Outline) :
    Prop where
  executable : outline.executable = some index
  code : outline.codeSegment.limit = codeLimit ex.text.toNat
  data : outline.dataSegment.limit = 0x4000000
  endCode : outline.endCode = ex.text.toNat
  endData : outline.endData = (ex.text + ex.data).toNat
  brk : outline.brk = (ex.text + ex.data + ex.bss).toNat

/-- The outline between `change_ldt` and the end of the call. -/
structure Outline.Segmented (ex : Header) (index : Nat) (outline : Outline) :
    Prop where
  executable : outline.executable = some index
  code : outline.codeSegment.limit = codeLimit ex.text.toNat
  data : outline.dataSegment.limit = 0x4000000

theorem changeLdt_outline :
    Hoare .any (LeavesOutline nr)
      (Outlined nr fun outline => outline.executable = some index)
      (changeLdt nr ex.text.toNat).unmarked
      fun _ => Outlined nr (Outline.Segmented ex index) := by
  unfold changeLdt
  apply hoare_unmarked_bind (myself_stays outlined_structural)
  intro p
  have segments : Hoare .any (LeavesOutline nr)
      (Outlined nr fun outline => outline.executable = some index)
      (Prog.modify fun exec => exec.onTask nr (setSegments p.codeSegment.base
        (codeLimit ex.text.toNat) 0x4000000))
      fun _ => Outlined nr (Outline.Segmented ex index) := by
    apply hoare_modify
    intro exec outlined
    exact outlined.onTask fun task isProgram => ⟨isProgram, rfl, rfl⟩
  apply hoare_unmarked_bind segments
  intro _
  exact stays_bind (putArgPages_stays outlined_structural) fun _ => stays_pure

/-- A change of the task that leads from one assertion to another. -/
theorem onTask_outline (after : Outline → Prop)
    {change : TaskStruct → TaskStruct}
    (changes : ∀ task, about task.outline → after (change task).outline) :
    Hoare .any (LeavesOutline nr) (Outlined nr about)
      (Prog.modify fun exec => exec.onTask nr change)
      fun _ => Outlined nr after :=
  hoare_modify fun _ outlined => outlined.onTask changes

/-- The task that `do_execve` returns to has the numbers of the header. -/
theorem launch_outline {registers : Registers} {inode : Program}
    {euid egid : UInt16} {argc envc : Int} {p : Nat} :
    Hoare .any (LeavesOutline nr) (Outlined nr fun _ => True)
      (launch around nr registers inode ex euid egid argc envc p).unmarked
      fun _ => Outlined nr (Outline.Of ex inode.index) := by
  have isStructural {about : Outline → Prop} :
      Structural .any (LeavesOutline nr) (Outlined nr about) :=
    outlined_structural
  unfold launch
  refine hoare_unmarked_bind (stays_sleep isStructural.sleeps) fun _ => ?_
  refine hoare_unmarked_bind (onTask_outline
    (fun outline => outline.executable = some inode.index) fun task _ => rfl) fun _ => ?_
  refine hoare_unmarked_bind (stays_sleep isStructural.sleeps) fun _ => ?_
  refine hoare_unmarked_bind (onTask_outline
    (fun outline => outline.executable = some inode.index) fun task isProgram => isProgram) fun _ => ?_
  refine hoare_unmarked_bind (myself_stays isStructural) fun task => ?_
  refine hoare_unmarked_read fun exec => ?_
  refine hoare_unmarked_bind
    (settle_stays isStructural freePageTables_known) fun _ => ?_
  refine hoare_unmarked_read fun exec => ?_
  refine hoare_unmarked_bind
    (settle_stays isStructural freePageTables_known) fun _ => ?_
  refine hoare_unmarked_bind changeLdt_outline fun dataLimit => ?_
  refine hoare_unmarked_bind (createTables_stays isStructural) fun sp => ?_
  refine hoare_unmarked_bind (onTask_outline
    (Outline.Of ex inode.index) ?_) fun _ => ?_
  · intro task segmented
    exact ⟨segmented.executable, segmented.code, segmented.data, rfl, rfl,
      rfl⟩
  exact stays_bind (clearTail_stays isStructural) fun _ => stays_pure

end Numbers

/-! ## The whole call -/

/-- A call that returns 0 leaves the numbers of the program that the file
system found for it, and the tests on its header let it pass. -/
def Launched (around : Surroundings) (nr : Nat) (result : Int × Registers)
    (next : Exec) : Prop :=
  result.1 = 0 → ∃ name inode block, around.namei name = some inode ∧
    inode.block = some block ∧
      (readHeader block).refused inode.size = false ∧
        Outlined nr (Outline.Of (readHeader block) inode.index) next

section Call

variable {registers : Registers} {pre : Exec → Prop} {errno : Int}

theorem giveUp_launched (isError : errno ≠ 0) :
    Hoare .any (LeavesOutline nr) pre (giveUp errno registers).unmarked
      (Launched around nr) :=
  hoare_unmarked_bind hoare_anything fun _ =>
    hoare_pure fun _ _ isZero => absurd isZero isError

theorem giveUpInode_launched (isError : errno ≠ 0) :
    Hoare .any (LeavesOutline nr) pre (giveUpInode errno registers).unmarked
      (Launched around nr) :=
  hoare_unmarked_bind hoare_anything fun _ => giveUp_launched isError

theorem launch_launched {name : List Byte} {inode : Program}
    {block : Nat → Byte} {euid egid : UInt16} {argc envc : Int} {p : Nat}
    (isInode : around.namei name = some inode)
    (isBlock : inode.block = some block)
    (accepted : (readHeader block).refused inode.size = false) :
    Hoare .any (LeavesOutline nr) pre
      (launch around nr registers inode (readHeader block) euid egid argc envc
        p).unmarked (Launched around nr) := by
  refine hoare_weaken launch_outline (fun _ _ _ _ => trivial) ?_
  intro _ next outlined _
  exact ⟨name, inode, block, isInode, isBlock, accepted, outlined⟩

theorem restart_launched {argc envc : Int} {p : Nat} {line : ScriptLine} :
    Hoare .any (LeavesOutline nr) pre
      (restart around nr registers argc envc p line).unmarked
      (Launched around nr) := by
  unfold restart
  split
  · exact giveUp_launched (by decide)
  refine hoare_unmarked_bind hoare_anything fun _ => ?_
  split
  · exact giveUp_launched (by decide)
  rename_i inode isInode
  refine hoare_unmarked_bind hoare_anything fun task => ?_
  split
  · rename_i errno isRefused
    exact giveUpInode_launched (examine_refused isRefused)
  rename_i euid egid block isReadable
  refine hoare_unmarked_bind hoare_anything fun _ => ?_
  dsimp only
  split
  · exact giveUpInode_launched (by decide)
  rename_i accepted
  exact launch_launched isInode (examine_readable isReadable)
    (eq_false_of_ne_true accepted)

theorem interpret_launched {filename argv envp : Nat} {argc envc : Int}
    {p : Nat} {line : ScriptLine} :
    Hoare .any (LeavesOutline nr) pre
      (interpret around nr registers filename argv envp argc envc p
        line).unmarked (Launched around nr) := by
  -- what follows the strings does not depend on where they are
  rw [interpret_eq]
  refine hoare_unmarked_bind hoare_anything fun _ => ?_
  refine hoare_unmarked_bind hoare_anything fun _ => ?_
  refine hoare_unmarked_bind hoare_anything fun _ => ?_
  dsimp only
  split
  · refine hoare_unmarked_bind hoare_anything fun _ => ?_
    exact hoare_unmarked_bind hoare_anything fun p => restart_launched
  · refine hoare_unmarked_bind hoare_anything fun _ => ?_
    exact hoare_unmarked_bind hoare_anything fun p => restart_launched

theorem start_launched {argv envp : Nat} {argc envc : Int} {p : Nat}
    {name : List Byte} {inode : Program} {block : Nat → Byte}
    {euid egid : UInt16} (isInode : around.namei name = some inode)
    (isBlock : inode.block = some block) :
    Hoare .any (LeavesOutline nr) pre
      (start around nr registers argv envp argc envc p inode
        (readHeader block) euid egid).unmarked (Launched around nr) := by
  unfold start
  split
  · exact giveUpInode_launched (by decide)
  rename_i accepted
  refine hoare_unmarked_bind hoare_anything fun _ => ?_
  refine hoare_unmarked_bind hoare_anything fun p => ?_
  split
  · exact giveUpInode_launched (by decide)
  · exact launch_launched isInode isBlock (eq_false_of_ne_true accepted)

theorem doExecve_launched {filename argv envp : Nat} :
    Hoare .any (LeavesOutline nr) pre
      (doExecve around nr registers filename argv envp).unmarked
      (Launched around nr) := by
  unfold doExecve
  split
  · exact hoare_panic trivial
  refine hoare_unmarked_bind hoare_anything fun _ => ?_
  refine hoare_unmarked_bind hoare_anything fun name => ?_
  refine hoare_unmarked_bind hoare_anything fun _ => ?_
  split
  · refine hoare_pure fun _ _ isZero => ?_
    exact absurd isZero (show (-2 : Int) ≠ 0 by decide)
  rename_i inode isInode
  refine hoare_unmarked_bind hoare_anything fun argc => ?_
  refine hoare_unmarked_bind hoare_anything fun envc => ?_
  refine hoare_unmarked_bind hoare_anything fun task => ?_
  split
  · rename_i errno isRefused
    exact giveUpInode_launched (examine_refused isRefused)
  rename_i euid egid block isReadable
  refine hoare_unmarked_bind hoare_anything fun _ => ?_
  dsimp only
  split
  · split
    · exact giveUp_launched (by decide)
    · exact interpret_launched
  · exact start_launched isInode (examine_readable isReadable)

end Call

/-! ## What is accepted -/

/-- The bytes in a segment after `set_limit`: the descriptor takes
`(limit-1)>>12`, twenty bits that count pages. -/
def segmentSpan (limit : Nat) : Nat :=
  (unsigned (limit - 1) / 4096 % 1048576 + 1) * 4096

theorem segmentSpan_pages {pages : Nat} (positive : 0 < pages)
    (small : pages ≤ 1048576) : segmentSpan (pages * 4096) = pages * 4096 := by
  unfold segmentSpan unsigned
  omega

/-- The sizes of an accepted program as integers, and the image the kernel
makes for it: the code segment is the text, in whole pages, and ends below
the data segment of 64 MB. -/
structure Sane (ex : Header) (size : Word) (outline : Outline) : Prop where
  memory : ex.text.toNat + ex.data.toNat + ex.bss.toNat ≤ 0x3000000
  file : 1024 + ex.text.toNat + ex.data.toNat + ex.syms.toNat ≤ size.toNat
  data : outline.endCode ≤ outline.endData
  bss : outline.endData ≤ outline.brk
  top : outline.brk ≤ 0x3000000
  code : segmentSpan outline.codeSegment.limit =
    (ex.text.toNat + 4095) / 4096 * 4096
  below : segmentSpan outline.codeSegment.limit <
    segmentSpan outline.dataSegment.limit
  limit : segmentSpan outline.dataSegment.limit = 0x4000000

/-- No sum of the tests wraps, and there is some text. -/
structure Header.Unwrapped (ex : Header) : Prop where
  memory : ex.text.toNat + ex.data.toNat + ex.bss.toNat < 2 ^ 32
  file : ex.text.toNat + ex.data.toNat + ex.syms.toNat + 1024 < 2 ^ 32
  text : ex.text ≠ 0

section Accepted

variable {ex : Header} {size : Word} {outline : Outline} {index : Nat}

theorem accepted_sums (accepted : ex.refused size = false) :
    (ex.text + ex.data + ex.bss).toNat ≤ 0x3000000 ∧
      (ex.text + ex.data + ex.syms + 1024#32).toNat ≤ size.toNat := by
  unfold Header.refused at accepted
  simp only [Bool.or_eq_false_iff, decide_eq_false_iff_not] at accepted
  obtain ⟨⟨_, memory⟩, file⟩ := accepted
  exact ⟨Nat.le_of_not_lt memory, Nat.le_of_not_lt file⟩

theorem Sane.unwrapped (sane : Sane ex size outline)
    (isImage : Outline.Of ex index outline) : ex.Unwrapped := by
  have memory := sane.memory
  have file := sane.file
  have small := size.isLt
  refine ⟨by omega, by omega, ?_⟩
  intro noText
  have code := sane.code
  rw [isImage.code, noText] at code
  exact absurd code (by decide)

theorem Header.Unwrapped.sane (unwrapped : ex.Unwrapped)
    (accepted : ex.refused size = false)
    (isImage : Outline.Of ex index outline) : Sane ex size outline := by
  obtain ⟨memory, file⟩ := accepted_sums accepted
  have smallMemory := unwrapped.memory
  have smallFile := unwrapped.file
  have hasText : ex.text.toNat ≠ 0 := fun noText =>
    unwrapped.text (BitVec.eq_of_toNat_eq noText)
  have isData : (ex.text + ex.data).toNat = ex.text.toNat + ex.data.toNat :=
    BitVec.toNat_add_of_lt (by omega)
  have isBrk : (ex.text + ex.data + ex.bss).toNat =
      ex.text.toNat + ex.data.toNat + ex.bss.toNat := by
    rw [BitVec.toNat_add_of_lt (by omega), isData]
  have isEnd : (ex.text + ex.data + ex.syms).toNat =
      ex.text.toNat + ex.data.toNat + ex.syms.toNat := by
    rw [BitVec.toNat_add_of_lt (by omega), isData]
  have isFile : (ex.text + ex.data + ex.syms + 1024#32).toNat =
      ex.text.toNat + ex.data.toNat + ex.syms.toNat + 1024 := by
    rw [BitVec.toNat_add_of_lt (by rw [isEnd]; exact smallFile), isEnd]
    rfl
  rw [isBrk] at memory
  rw [isFile] at file
  have code : segmentSpan outline.codeSegment.limit =
      (ex.text.toNat + 4095) / 4096 * 4096 := by
    have isLimit : codeLimit ex.text.toNat =
        (ex.text.toNat + 4095) / 4096 * 4096 := by
      unfold codeLimit
      rw [unsigned_eq (n := ex.text.toNat + 4095) (by omega) (by omega)]
    rw [isImage.code, isLimit]
    exact segmentSpan_pages (by omega) (by omega)
  have limit : segmentSpan outline.dataSegment.limit = 0x4000000 := by
    rw [isImage.data]
    rfl
  refine
    { memory := memory
      file := by omega
      data := ?_
      bss := ?_
      top := ?_
      code := code
      below := ?_
      limit := limit }
  · rw [isImage.endCode, isImage.endData, isData]
    exact Nat.le_add_right _ _
  · rw [isImage.endData, isImage.brk, isData, isBrk]
    exact Nat.le_add_right _ _
  · rw [isImage.brk, isBrk]
    exact memory
  · rw [code, limit]
    omega

theorem sane_iff (accepted : ex.refused size = false)
    (isImage : Outline.Of ex index outline) :
    Sane ex size outline ↔ ex.Unwrapped :=
  ⟨fun sane => sane.unwrapped isImage,
    fun unwrapped => unwrapped.sane accepted isImage⟩

end Accepted

/-- Whatever other tasks do, the sizes of a program that `do_execve` returns
0 for are sane exactly if the tests on its header add without wrapping and
there is some text. -/
theorem doExecve_sane_iff (around : Surroundings) (nr : Nat)
    (registers : Registers) (filename argv envp : Nat) (exec : Exec) :
    (doExecve around nr registers filename argv envp).unmarked.wp .any
      (LeavesOutline nr)
      (fun result next => result.1 = 0 → ∃ name inode block,
        around.namei name = some inode ∧ inode.block = some block ∧
          (readHeader block).refused inode.size = false ∧
            ∀ task, next.system.task nr = some task →
              task.executable = some inode.index ∧
                (Sane (readHeader block) inode.size task.outline ↔
                  (readHeader block).Unwrapped)) exec := by
  have runs : Hoare .any (LeavesOutline nr) (fun _ => True)
      (doExecve around nr registers filename argv envp).unmarked
      (Launched around nr) :=
    doExecve_launched
  refine wp_mono (runs.run exec trivial) ?_
  intro result next launched isZero
  obtain ⟨name, inode, block, isInode, isBlock, accepted, outlined⟩ :=
    launched isZero
  refine ⟨name, inode, block, isInode, isBlock, accepted, ?_⟩
  intro task isTask
  have isImage := outlined task isTask
  exact ⟨isImage.executable, sane_iff accepted isImage⟩

/-- The sizes 2 GB, 2 GB and 0 add up to nothing. -/
def wrappedHeader : Header where
  magic := zmagic
  text := 0x80000000
  data := 0x80000000
  bss := 0
  syms := 0
  entry := 0
  trsize := 0
  drsize := 0

theorem wrappedHeader_accepted :
    ¬ ∀ (ex : Header) (size : Word), ex.refused size = false →
      ∀ outline, Outline.Of ex 0 outline → Sane ex size outline := by
  intro always
  have sane := always wrappedHeader 1024 (by decide)
    ⟨some 0, ⟨0, codeLimit 0x80000000⟩, ⟨0, 0x4000000⟩, 0x80000000, 0, 0⟩
    ⟨rfl, rfl, rfl, rfl, rfl, rfl⟩
  exact absurd sane.memory (by decide)

end Linux011.Proc
