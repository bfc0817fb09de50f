import Linux011.Library.Machine

/-!
# Directories in the hands of several tasks

What `namei.c` does to directories, for any number of tasks.  A step of a
task leads from one place where it may lose the processor to the next: it
reads a block of a directory, or comes back from the allocation of an inode or
of a zone.  A call is taken up when its path has led to a directory; what it
does to inodes afterwards is no concern of the directories.
-/

namespace Linux011.Fs

open Machines

/-- `NAME_LEN`. -/
def nameLen : Nat := 14

/-- `DIR_ENTRIES_PER_BLOCK`. -/
def dirEntriesPerBlock : Nat := 64

/-- A `dir_entry`. -/
structure DirEntry where
  inode : Nat
  name : Nat → UInt8

namespace DirEntry

/-- `match`. -/
def isMatch (entry : DirEntry) (name : List UInt8) : Bool :=
  decide (entry.inode ≠ 0) && decide (name.length ≤ nameLen) &&
    (decide (nameLen ≤ name.length) || entry.name name.length == 0) &&
    (List.range name.length).all fun index =>
      entry.name index == name.getD index 0

/-- What `add_entry` and its caller write. -/
def named (inode : Nat) (name : List UInt8) : DirEntry where
  inode := inode
  name := fun index => name.getD index 0

def empty : DirEntry := named 0 []

end DirEntry

/-- A directory: its size, counted in entries, and its zones; 0 is a hole. -/
structure Directory where
  entries : Nat
  zone : Nat → Nat

/-- The calls that look a name up in a directory in order to change it. -/
inductive Kind where
  | openCreate
  | mknod
  | mkdir
  | link
  | unlink
  deriving DecidableEq

/-- A call: its directory, the root of its process, the last component of its
path, and for `link` the inode that gets the name. -/
structure Call where
  kind : Kind
  dir : Nat
  root : Nat
  name : List UInt8
  number : Nat

namespace Call

/-- The name with `namelen` cut to `NAME_LEN`. -/
def wanted (call : Call) : List UInt8 := call.name.take nameLen

def creates (call : Call) : Prop := call.kind ≠ .unlink

end Call

def dotName : List UInt8 := [46]

def dotDotName : List UInt8 := [46, 46]

/-- Where a task is.  In `find_entry`: giving back the directory it exchanges
for a mount point, in `bmap` for a block, in `bread` of a zone.  Then in
`new_inode`; for `mkdir` in `new_block` and in `bread` of the new block.  In
`add_entry`: in `create_block`, in its `new_block`, in `bread` of a zone.  For
`unlink`, in `iget`. -/
inductive Phase where
  | idle
  | exchanging (call : Call) (entries covered : Nat)
  | seeking (call : Call) (wanted : List UInt8) (entries block : Nat)
  | reading (call : Call) (wanted : List UInt8) (entries block zone : Nat)
  | allocating (call : Call)
  | building (call : Call) (number : Nat)
  | filling (call : Call) (number zone : Nat)
  | mapping (call : Call) (number block : Nat)
  | creating (call : Call) (number block : Nat)
  | loading (call : Call) (number block zone : Nat)
  | removing (zone index : Nat)

/-- The file system.  `data` is what the zones hold, `allocated` the zones in
use, and `taken` the inodes of directories.  A path can only lead to a `known`
directory, which one that is being made is not.  `covers` takes the root of a
mounted device to its mount point. -/
structure Tree where
  dirs : Nat → Directory
  data : Nat → Nat → DirEntry
  allocated : Nat → Bool
  taken : Nat → Bool
  known : Nat → Bool
  covers : Nat → Option Nat

/-- What a task meets with in a step: whether the read, the allocation or the
check of permissions fails; the inode or the zone it is given, and whether the
zone is to be an indirect block; and the blocks that disappear because
`create_block` puts it in the place of an indirect block that another task has
put there meanwhile. -/
structure Outcome where
  fails : Bool
  fresh : Nat
  indirect : Bool
  hidden : Nat → Bool

namespace Tree

def setDir (tree : Tree) (dir : Nat) (directory : Directory) : Tree :=
  { tree with
    dirs := fun other => if other = dir then directory else tree.dirs other }

def setData (tree : Tree) (zone : Nat) (entries : Nat → DirEntry) : Tree :=
  { tree with
    data := fun other => if other = zone then entries else tree.data other }

def setAllocated (tree : Tree) (zone : Nat) (value : Bool) : Tree :=
  { tree with
    allocated := fun other =>
      if other = zone then value else tree.allocated other }

def setTaken (tree : Tree) (number : Nat) (value : Bool) : Tree :=
  { tree with
    taken := fun other => if other = number then value else tree.taken other }

def setKnown (tree : Tree) (number : Nat) : Tree :=
  { tree with
    known := fun other => if other = number then true else tree.known other }

/-! ## `add_entry` -/

/-- `add_entry` returns `NULL`.  `sys_mkdir` then frees the zone of its new
directory twice, and panics. -/
def addFails (tree : Tree) (call : Call) : Option (Tree × Phase) :=
  match call.kind with
  | .mkdir => none
  | _ => some (tree, .idle)

def addStarts (tree : Tree) (call : Call) (number : Nat) :
    Option (Tree × Phase) :=
  let zone := (tree.dirs call.dir).zone 0
  if zone = 0 then tree.addFails call
  else some (tree, .loading call number 0 zone)

/-- The first entry of a block that `add_entry` may use: it lies behind the
end of the directory, or is free. -/
def firstFree (tree : Tree) (dir block zone : Nat) : Option Nat :=
  (List.range dirEntriesPerBlock).find? fun index =>
    decide ((tree.dirs dir).entries ≤ block * dirEntriesPerBlock + index) ||
      (tree.data zone index).inode == 0

/-- The entry is written, and the caller stores the inode in it. -/
def store (tree : Tree) (call : Call) (number block zone index : Nat) : Tree :=
  let directory := tree.dirs call.dir
  let slot := block * dirEntriesPerBlock + index
  let tree := tree.setDir call.dir
    { directory with
      entries :=
        if directory.entries ≤ slot then slot + 1 else directory.entries }
  let tree := tree.setData zone fun other =>
    if other = index then .named number call.wanted else tree.data zone other
  if call.kind = .mkdir then tree.setKnown number else tree

/-- A block has been read. -/
def load (tree : Tree) (outcome : Outcome) (call : Call)
    (number block zone : Nat) : Option (Tree × Phase) :=
  if outcome.fails = true then
    if block = 0 then tree.addFails call
    else some (tree, .mapping call number (block + 1))
  else
    match tree.firstFree call.dir block zone with
    | none => some (tree, .mapping call number (block + 1))
    | some index => some (tree.store call number block zone index, .idle)

/-- `create_block` has looked for the zone. -/
def map (tree : Tree) (outcome : Outcome) (call : Call) (number block : Nat) :
    Option (Tree × Phase) :=
  let zone := (tree.dirs call.dir).zone block
  if outcome.fails = true ∧ 7 ≤ block then tree.addFails call
  else if zone = 0 then some (tree, .creating call number block)
  else some (tree, .loading call number block zone)

/-- A zone that `new_block` may return is allocated and cleared. -/
def newBlock (tree : Tree) (zone : Nat) : Option Tree :=
  if zone = 0 ∨ tree.allocated zone = true then none
  else some ((tree.setAllocated zone true).setData zone fun _ => .empty)

/-- The zone becomes a block of the directory. -/
def setBlock (tree : Tree) (dir block zone : Nat) : Tree :=
  let directory := tree.dirs dir
  tree.setDir dir
    { directory with
      zone := fun other =>
        if other = block then zone else directory.zone other }

/-- `create_block` writes over the zone of the block, or over that of an
indirect block, without looking at it again. -/
def loseBlocks (tree : Tree) (dir block : Nat) (hidden : Nat → Bool) : Tree :=
  let directory := tree.dirs dir
  tree.setDir dir
    { directory with
      zone := fun other =>
        if (if block < 7 then other = block
            else 7 ≤ other ∧ hidden other = true) then 0
        else directory.zone other }

/-- `new_block` has returned to `create_block`. -/
def create (tree : Tree) (outcome : Outcome) (call : Call)
    (number block : Nat) : Option (Tree × Phase) :=
  let zone := outcome.fresh
  if outcome.fails = true then
    (tree.loseBlocks call.dir block outcome.hidden).addFails call
  else
    match tree.newBlock zone with
    | none => none
    | some tree =>
        if outcome.indirect = true ∧ 7 ≤ block then
          some (tree.loseBlocks call.dir block outcome.hidden,
            .mapping call number block)
        else
          some (tree.setBlock call.dir block zone,
            .loading call number block zone)

/-! ## `find_entry` -/

/-- `find_entry` returns `NULL`. -/
def searchFails (tree : Tree) (call : Call) : Option (Tree × Phase) :=
  match call.kind with
  | .unlink => some (tree, .idle)
  | .link => tree.addStarts call call.number
  | _ => some (tree, .allocating call)

def searchOn (tree : Tree) (call : Call) (wanted : List UInt8)
    (entries block : Nat) : Option (Tree × Phase) :=
  if (block + 1) * dirEntriesPerBlock < entries then
    some (tree, .seeking call wanted entries (block + 1))
  else tree.searchFails call

/-- The search goes on without the block. -/
def skip (tree : Tree) (call : Call) (wanted : List UInt8)
    (entries block : Nat) : Option (Tree × Phase) :=
  if block = 0 then tree.searchFails call
  else tree.searchOn call wanted entries block

/-- The zone of a block has been found. -/
def seek (tree : Tree) (call : Call) (wanted : List UInt8)
    (entries block : Nat) : Option (Tree × Phase) :=
  let zone := (tree.dirs call.dir).zone block
  if zone = 0 then tree.skip call wanted entries block
  else some (tree, .reading call wanted entries block zone)

def firstMatch (tree : Tree) (wanted : List UInt8) (entries block zone : Nat) :
    Option Nat :=
  (List.range dirEntriesPerBlock).find? fun index =>
    decide (block * dirEntriesPerBlock + index < entries) &&
      (tree.data zone index).isMatch wanted

/-- A block has been read. -/
def read (tree : Tree) (outcome : Outcome) (call : Call)
    (wanted : List UInt8) (entries block zone : Nat) : Option (Tree × Phase) :=
  if outcome.fails = true then tree.skip call wanted entries block
  else
    match tree.firstMatch wanted entries block zone with
    | none => tree.searchOn call wanted entries block
    | some index =>
        match call.kind with
        | .unlink => some (tree, .removing zone index)
        | _ => some (tree, .idle)

/-- The size is noted before a directory is exchanged for a mount point.  At
the root of the process `..` is looked up as `.`. -/
def searchStarts (tree : Tree) (call : Call) : Option (Tree × Phase) :=
  let entries := (tree.dirs call.dir).entries
  if call.wanted = dotDotName then
    if call.dir = call.root then tree.seek call dotName entries 0
    else
      match tree.covers call.dir with
      | some covered => some (tree, .exchanging call entries covered)
      | none => tree.seek call call.wanted entries 0
  else tree.seek call call.wanted entries 0

/-! ## The other parts of the calls -/

/-- `new_inode` has returned; a refused permission counts as its failure. -/
def allocate (tree : Tree) (outcome : Outcome) (call : Call) :
    Option (Tree × Phase) :=
  if outcome.fails = true then some (tree, .idle)
  else
    let number := outcome.fresh
    match call.kind with
    | .mkdir =>
        if tree.taken number = true then none
        else some (tree.setTaken number true, .building call number)
    | _ => tree.addStarts call number

/-- `new_block` has returned to `sys_mkdir`. -/
def build (tree : Tree) (outcome : Outcome) (call : Call) (number : Nat) :
    Option (Tree × Phase) :=
  if outcome.fails = true then some (tree.setTaken number false, .idle)
  else
    let zone := outcome.fresh
    match tree.newBlock zone with
    | none => none
    | some tree => some (tree, .filling call number zone)

/-- The new directory, with its first two entries. -/
def makeDir (tree : Tree) (number parent zone : Nat) : Tree :=
  let tree := tree.setData zone fun index =>
    if index = 0 then .named number dotName
    else if index = 1 then .named parent dotDotName
    else tree.data zone index
  tree.setDir number
    { entries := 2, zone := fun block => if block = 0 then zone else 0 }

/-- The block of the new directory has been read. -/
def fill (tree : Tree) (outcome : Outcome) (call : Call)
    (number zone : Nat) : Option (Tree × Phase) :=
  if outcome.fails = true then
    some ((tree.setAllocated zone false).setTaken number false, .idle)
  else (tree.makeDir number call.dir zone).addStarts call number

/-- `iget` has returned to `sys_unlink`, which may find that it is not
allowed to go on. -/
def remove (tree : Tree) (outcome : Outcome) (zone index : Nat) : Tree :=
  if outcome.fails = true then tree
  else
    tree.setData zone fun other =>
      if other = index then { tree.data zone other with inode := 0 }
      else tree.data zone other

/-- A task goes on from where it is. -/
def go (tree : Tree) (outcome : Outcome) : Phase → Option (Tree × Phase)
  | .idle => none
  | .exchanging call entries covered =>
      tree.seek { call with dir := covered } call.wanted entries 0
  | .seeking call wanted entries block =>
      if outcome.fails = true ∧ 7 ≤ block then
        tree.skip call wanted entries block
      else tree.seek call wanted entries block
  | .reading call wanted entries block zone =>
      tree.read outcome call wanted entries block zone
  | .allocating call => tree.allocate outcome call
  | .building call number => tree.build outcome call number
  | .filling call number zone => tree.fill outcome call number zone
  | .mapping call number block => tree.map outcome call number block
  | .creating call number block => tree.create outcome call number block
  | .loading call number block zone => tree.load outcome call number block zone
  | .removing zone index => some (tree.remove outcome zone index, .idle)

end Tree

/-- A component of a path is not empty and has no NUL in it. -/
def Call.isProper (call : Call) : Prop :=
  call.name ≠ [] ∧ (call.name.all fun byte => byte != 0) = true

instance (call : Call) : Decidable call.isProper :=
  inferInstanceAs (Decidable (_ ∧ _))

/-- The file system and the tasks that use it. -/
structure Users where
  tree : Tree
  tasks : Nat → Phase

/-- A task makes a call, or goes on with the one it has made. -/
inductive TreeAction where
  | call (task : Nat) (call : Call)
  | go (task : Nat) (outcome : Outcome)

namespace Users

/-- What comes of an action for its task and the file system. -/
def effect (users : Users) : TreeAction → Option (Tree × Phase)
  | .call task call =>
      match users.tasks task with
      | .idle =>
          if call.isProper ∧ users.tree.known call.dir = true then
            users.tree.searchStarts call
          else none
      | _ => none
  | .go task outcome => users.tree.go outcome (users.tasks task)

end Users

def TreeAction.task : TreeAction → Nat
  | call task _ => task
  | go task _ => task

def treeMachine : Machine Users TreeAction where
  step := fun users action =>
    match users.effect action with
    | none => none
    | some (tree, phase) =>
        some
          { tree
            tasks := fun other =>
              if other = action.task then phase else users.tasks other }

/-! ## Names -/

/-- The name of an entry: what stands before the first NUL. -/
def DirEntry.text (entry : DirEntry) : List UInt8 :=
  ((List.range nameLen).map entry.name).takeWhile fun byte => byte != 0

/-- The directory has a live entry of this name. -/
structure Tree.Named (tree : Tree) (dir slot : Nat) (name : List UInt8) :
    Prop where
  inSize : slot < (tree.dirs dir).entries
  isBlock : (tree.dirs dir).zone (slot / dirEntriesPerBlock) ≠ 0
  isLive : (tree.data ((tree.dirs dir).zone (slot / dirEntriesPerBlock))
    (slot % dirEntriesPerBlock)).inode ≠ 0
  text : (tree.data ((tree.dirs dir).zone (slot / dirEntriesPerBlock))
    (slot % dirEntriesPerBlock)).text = name

/-- No directory has two live entries of one name. -/
def Tree.NoDuplicates (tree : Tree) : Prop :=
  ∀ dir name first second, tree.Named dir first name →
    tree.Named dir second name → first = second

end Linux011.Fs
