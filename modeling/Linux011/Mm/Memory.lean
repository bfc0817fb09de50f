import Linux011.Mm.Entry

/-!
# The page allocator and the page tables

The functions of `mm/memory.c` over one physical memory.  A page address is
kept as its frame number (the address shifted right by 12) and the `0` that
`get_free_page` returns when nothing is free is `none`.  Page tables live in
the same words as everything else: the page directory is frame 0 and an
entry's page table is the frame the directory entry names.
-/

namespace Linux011.Mm

/-- `LOW_MEM`, as a frame number. -/
def lowMem : Nat := 0x100000 / 4096

/-- `PAGING_PAGES`. -/
def pagingPages : Nat := 15 * 1024 * 1024 / 4096

/-- `USED`. -/
def used : UInt8 := 100

/-- `MAP_NR` of a frame at or above `LOW_MEM`. -/
def mapNr (frame : Nat) : Nat := frame - lowMem

/-- `mem_map`, `HIGH_MEMORY` and the physical memory, word by word. -/
structure State where
  memMap : Nat → UInt8
  highMemory : Nat
  phys : Nat → Nat → Word

/-- How a call ends without returning: `panic`, or `oom()`, whose `do_exit`
never comes back and so leaves the state as it was handed to it. -/
inductive Fault where
  | panic (message : String)
  | oom (state : State)

namespace State

/-- `mem_map[nr] = value`. -/
def setMap (state : State) (nr : Nat) (value : UInt8) : State :=
  { state with
    memMap := fun other => if other = nr then value else state.memMap other }

theorem memMap_setMap (state : State) (nr : Nat) (value : UInt8)
    (other : Nat) : (state.setMap nr value).memMap other =
      if other = nr then value else state.memMap other :=
  rfl

/-- Store `word` at word `index` of a frame. -/
def setWord (state : State) (frame index : Nat) (word : Word) : State :=
  { state with
    phys := fun otherFrame otherIndex =>
      if otherFrame = frame ∧ otherIndex = index then word
      else state.phys otherFrame otherIndex }

/-- Overwrite the words of a whole frame. -/
def fillPage (state : State) (frame : Nat) (content : Nat → Word) : State :=
  { state with
    phys := fun otherFrame =>
      if otherFrame = frame then content else state.phys otherFrame }

/-- The page-directory entry with the given index (`_pg_dir = 0`). -/
def pde (state : State) (dir : Nat) : Word := state.phys 0 dir

end State

/-- `(address>>20) & 0xffc`, as a word index. -/
def dirIndex (address : Nat) : Nat := address / 2 ^ 22 % 1024

/-- `(address>>10) & 0xffc`, as a word index. -/
def tableIndex (address : Nat) : Nat := address / 2 ^ 12 % 1024

/-- The backward `scasb` of `get_free_page`: the last free one of the first
`count` entries. -/
def scanFree (memMap : Nat → UInt8) : Nat → Option Nat
  | 0 => none
  | count + 1 =>
      if memMap count = 0 then some count else scanFree memMap count

def getFreePage (state : State) : Option Nat × State :=
  match scanFree state.memMap pagingPages with
  | none => (none, state)
  | some nr =>
      (some (lowMem + nr),
        (state.setMap nr 1).fillPage (lowMem + nr) fun _ => 0#32)

def freePage (frame : Nat) (state : State) : Except Fault State :=
  if frame < lowMem then .ok state
  else if state.highMemory ≤ frame * 4096 then
    .error (.panic "trying to free nonexistent page")
  else if state.memMap (mapNr frame) ≠ 0 then
    .ok (state.setMap (mapNr frame) (state.memMap (mapNr frame) - 1))
  else .error (.panic "trying to free free page")

/-- The body of the inner loop of `free_page_tables`. -/
def freeEntry (table nr : Nat) (state : State) : Except Fault State := do
  let entry := state.phys table nr
  let state ←
    if entry.present then freePage entry.page state else .ok state
  return state.setWord table nr 0#32

/-- The inner loop over the first entries of a page table. -/
def freeEntries (table : Nat) : Nat → State → Except Fault State
  | 0, state => .ok state
  | nr + 1, state => do
      let state ← freeEntries table nr state
      freeEntry table nr state

/-- One round of the outer loop of `free_page_tables`. -/
def freeTable (dir : Nat) (state : State) : Except Fault State :=
  if ¬ (state.pde dir).present then .ok state
  else do
    let table := (state.pde dir).page
    let state ← freeEntries table 1024 state
    let state ← freePage table state
    return state.setWord 0 dir 0#32

def freeTables : Nat → Nat → State → Except Fault State
  | _, 0, state => .ok state
  | dir, size + 1, state => do
      let state ← freeTable dir state
      freeTables (dir + 1) size state

def freePageTables (start size : Nat) (state : State) : Except Fault State :=
  if start % 0x400000 ≠ 0 then
    .error (.panic "free_page_tables called with wrong alignment")
  else if start = 0 then
    .error (.panic "Trying to free up swapper memory space")
  else freeTables (dirIndex start) ((size + 0x3fffff) / 2 ^ 22) state

/-- The body of the inner loop of `copy_page_tables`. -/
def copyEntry (source target nr : Nat) (state : State) : State :=
  let thisPage := state.phys source nr
  if ¬ thisPage.present then state
  else
    let thisPage := Word.protect thisPage
    let state := state.setWord target nr thisPage
    if 0x100000#32 < thisPage then
      let state := state.setWord source nr thisPage
      let index := ((thisPage - 0x100000#32) >>> 12).toNat
      state.setMap index (state.memMap index + 1)
    else state

def copyEntries (source target : Nat) : Nat → State → State
  | 0, state => state
  | nr + 1, state => copyEntry source target nr
      (copyEntries source target nr state)

/-- The outer loop of `copy_page_tables`; the flag is false for its `-1`. -/
def copyTables (entries : Nat) : Nat → Nat → Nat → State →
    Except Fault (Bool × State)
  | _, _, 0, state => .ok (true, state)
  | fromDir, toDir, size + 1, state =>
      if (state.pde toDir).present then
        .error (.panic "copy_page_tables: already exist")
      else if ¬ (state.pde fromDir).present then
        copyTables entries (fromDir + 1) (toDir + 1) size state
      else
        let source := (state.pde fromDir).page
        match getFreePage state with
        | (none, state) => .ok (false, state)
        | (some target, state) =>
            let state := state.setWord 0 toDir (Word.user target)
            copyTables entries (fromDir + 1) (toDir + 1) size
              (copyEntries source target entries state)

def copyPageTables (source target size : Nat) (state : State) :
    Except Fault (Bool × State) :=
  if source % 0x400000 ≠ 0 ∨ target % 0x400000 ≠ 0 then
    .error (.panic "copy_page_tables called with wrong alignment")
  else
    copyTables (if source = 0 then 0xA0 else 1024) (dirIndex source)
      (dirIndex target) ((size + 0x3fffff) / 2 ^ 22) state

/-- The flag is false where `put_page` returns 0.  Its two warnings only
print. -/
def putPage (frame address : Nat) (state : State) : Bool × State :=
  let dir := state.pde (dirIndex address)
  if dir.present then
    (true, state.setWord dir.page (tableIndex address) (Word.user frame))
  else
    match getFreePage state with
    | (none, state) => (false, state)
    | (some table, state) =>
        let state := state.setWord 0 (dirIndex address) (Word.user table)
        (true, state.setWord table (tableIndex address) (Word.user frame))

/-- `un_wp_page` of the entry at word `index` of the frame `table`. -/
def unWpPage (table index : Nat) (state : State) : Except Fault State :=
  let entry := state.phys table index
  let oldPage := entry.page
  if lowMem ≤ oldPage ∧ state.memMap (mapNr oldPage) = 1 then
    .ok (state.setWord table index (Word.unprotect entry))
  else
    match getFreePage state with
    | (none, state) => .error (.oom state)
    | (some newPage, state) =>
        let state :=
          if lowMem ≤ oldPage then
            state.setMap (mapNr oldPage) (state.memMap (mapNr oldPage) - 1)
          else state
        let state := state.setWord table index (Word.user newPage)
        .ok (state.fillPage newPage (state.phys oldPage))

def doWpPage (address : Nat) (state : State) : Except Fault State :=
  unWpPage (state.pde (dirIndex address)).page (tableIndex address) state

def writeVerify (address : Nat) (state : State) : Except Fault State :=
  let page := state.pde (dirIndex address)
  if ¬ page.present then .ok state
  else
    let entry := state.phys page.page (tableIndex address)
    if entry.present ∧ ¬ entry.writable then
      unWpPage page.page (tableIndex address) state
    else .ok state

def getEmptyPage (address : Nat) (state : State) : Except Fault State :=
  match getFreePage state with
  | (none, state) => .error (.oom state)
  | (some frame, state) =>
      match putPage frame address state with
      | (true, state) => .ok state
      | (false, state) => do
          let state ← freePage frame state
          .error (.oom state)

/-- `try_to_share` for the offset `address`, with the `start_code` of the
task `p` and of the current task. -/
def tryToShare (address startCode currentStart : Nat) (state : State) :
    Except Fault (Bool × State) :=
  let fromDir := dirIndex address + dirIndex startCode
  let toDir := dirIndex address + dirIndex currentStart
  let nr := tableIndex address
  if ¬ (state.pde fromDir).present then .ok (false, state)
  else
    let source := (state.pde fromDir).page
    let entry := state.phys source nr
    if ¬ (entry.present ∧ ¬ entry.dirty) then .ok (false, state)
    else if state.highMemory ≤ entry.page * 4096 ∨ entry.page < lowMem then
      .ok (false, state)
    else do
      let (target, state) ←
        if (state.pde toDir).present then
          .ok ((state.pde toDir).page, state)
        else
          match getFreePage state with
          | (none, state) => .error (.oom state)
          | (some table, state) =>
              .ok (table, state.setWord 0 toDir (Word.user table))
      if (state.phys target nr).present then
        .error (.panic "try_to_share: to_page already exists")
      else
        let state := state.setWord source nr
          (Word.protect (state.phys source nr))
        let state := state.setWord target nr (state.phys source nr)
        .ok (true, state.setMap (mapNr entry.page)
          (state.memMap (mapNr entry.page) + 1))

/-- The fields of a task that demand loading looks at. -/
structure Task where
  startCode : Nat
  endData : Nat
  executable : Option Nat

/-- The loop of `share_page` over the task slots `1 .. nr`, last first. -/
def shareWith (tasks : Nat → Option Task) (current : Nat) (mine : Task)
    (address : Nat) : Nat → State → Except Fault (Bool × State)
  | 0, state => .ok (false, state)
  | nr + 1, state =>
      match tasks (nr + 1) with
      | none => shareWith tasks current mine address nr state
      | some p =>
          if current = nr + 1 ∨ p.executable ≠ mine.executable then
            shareWith tasks current mine address nr state
          else
            match tryToShare address p.startCode mine.startCode state with
            | .error fault => .error fault
            | .ok (true, state) => .ok (true, state)
            | .ok (false, state) =>
                shareWith tasks current mine address nr state

/-- `share_page`; `iCount` is the reference count of the executable. -/
def sharePage (tasks : Nat → Option Task) (current : Nat) (mine : Task)
    (iCount address : Nat) (state : State) : Except Fault (Bool × State) :=
  if mine.executable = none ∨ iCount < 2 then .ok (false, state)
  else shareWith tasks current mine address 63 state

/-- `do_no_page` without a task switch in `bread_page`; `load` is the page as
it stands after the read and the clearing of its tail. -/
def doNoPage (tasks : Nat → Option Task) (current : Nat) (mine : Task)
    (iCount address : Nat) (load : Nat → Word) (state : State) :
    Except Fault State :=
  let address := address / 4096 * 4096
  let tmp := address - mine.startCode
  if mine.executable = none ∨ mine.endData ≤ tmp then
    getEmptyPage address state
  else
    match sharePage tasks current mine iCount tmp state with
    | .error fault => .error fault
    | .ok (true, state) => .ok state
    | .ok (false, state) =>
        match getFreePage state with
        | (none, state) => .error (.oom state)
        | (some page, state) =>
            match putPage page address (state.fillPage page load) with
            | (true, state) => .ok state
            | (false, state) => do
                let state ← freePage page state
                .error (.oom state)

def memInit (startMem endMem : Nat) (state : State) : State :=
  let first := mapNr (startMem / 4096)
  { state with
    highMemory := endMem
    memMap := fun nr =>
      if first ≤ nr ∧ nr < first + (endMem - startMem) / 4096 then 0
      else if nr < pagingPages then used
      else state.memMap nr }

end Linux011.Mm
