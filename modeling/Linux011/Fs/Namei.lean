import Linux011.Fs.Directories
import Linux011.Fs.InodeTable
import Linux011.Fs.OpenFiles

/-!
# Looking up and changing names

`namei.c` over the inode table and the buffer cache, and the block map of
`inode.c` it finds the blocks of a directory with.  A pathname is the list of
its bytes before the NUL.  A directory entry is named by its buffer and its
index in the block.  The marks stand where `empty_dir` loses track of its
buffer.
-/

namespace Linux011.Fs

open Coop

/-! ## The block map -/

/-- A 16-bit word stored at an offset. -/
def storeShort (offset value : Nat) (data : Block) : Block := fun other =>
  if other = offset then UInt8.ofNat value
  else if other = offset + 1 then UInt8.ofNat (value / 256)
  else data other

/-- The three places where `_bmap` gives an inode a zone it lacks. -/
def createZone (fuel index entry : Nat) (create : Bool) : Sys Unit := do
  let kernel ← Prog.get
  if create = true ∧ (kernel.inodes index).zone entry = 0 then do
    let block ← newBlock fuel (kernel.inodes index).dev
    let kernel ← Prog.get
    onInode index fun inode =>
      let inode := inode.setZone entry (block % 65536)
      if block % 65536 = 0 then inode
      else { inode with ctime := kernel.now, dirt := true }
  else pure ()

/-- An entry of an indirect block, which is filled in if it may be. -/
def indirectEntry (fuel index bh entry : Nat) (create : Bool) : Sys Nat := do
  let kernel ← Prog.get
  let block := shortAt (kernel.buffers bh).data (2 * entry)
  if create = true ∧ block = 0 then do
    let block ← newBlock fuel (kernel.inodes index).dev
    if block = 0 then return 0
    else do
      storeMap bh (storeShort (2 * entry) block)
      return block
  else return block

/-- An indirect block is read for one of its entries. -/
def throughBlock (fuel index block entry : Nat) (create : Bool) :
    Sys Nat := do
  let kernel ← Prog.get
  match ← (bread fuel (kernel.inodes index).dev block).unmarked with
  | none => return 0
  | some bh => do
      let found ← indirectEntry fuel index bh entry create
      brelse (some bh)
      return found

/-- `_bmap`. -/
def bmapWith (create : Bool) (fuel index block : Nat) : Sys Nat :=
  if 7 + 512 + 512 * 512 ≤ block then Prog.panic "_bmap: block>big"
  else if block < 7 then do
    createZone fuel index block create
    let kernel ← Prog.get
    return (kernel.inodes index).zone block
  else if block - 7 < 512 then do
    createZone fuel index 7 create
    let kernel ← Prog.get
    if (kernel.inodes index).zone 7 = 0 then return 0
    else
      throughBlock fuel index ((kernel.inodes index).zone 7) (block - 7) create
  else do
    let block := block - 7 - 512
    createZone fuel index 8 create
    let kernel ← Prog.get
    if (kernel.inodes index).zone 8 = 0 then return 0
    else do
      let middle ← throughBlock fuel index ((kernel.inodes index).zone 8)
        (block / 512) create
      if middle = 0 then return 0
      else throughBlock fuel index middle (block % 512) create

def bmap : Nat → Nat → Nat → Sys Nat := bmapWith false

def createBlock : Nat → Nat → Nat → Sys Nat := bmapWith true

/-! ## Directory entries -/

/-- Entry `index` of a block of a directory. -/
def entryAt (data : Block) (index : Nat) : DirEntry where
  inode := shortAt data (16 * index)
  name := fun offset => data (16 * index + 2 + offset)

/-- `strcmp` of a text with the name of an entry. -/
def DirEntry.isCalled (entry : DirEntry) (text : List UInt8) : Bool :=
  (List.range (text.length + 1)).all fun offset =>
    entry.name offset == text.getD offset 0

/-- `de->inode = number`. -/
def storeNumber (index number : Nat) : Block → Block :=
  storeShort (16 * index) number

/-- The first bytes of the name of an entry, filled up with NULs. -/
def storeName (index count : Nat) (name : List UInt8) (data : Block) : Block :=
  fun offset =>
    if 16 * index + 2 ≤ offset ∧ offset < 16 * index + 2 + count then
      name.getD (offset - (16 * index + 2)) 0
    else data offset

/-- `strcpy` of a text to the name of an entry. -/
def storeText (index : Nat) (text : List UInt8) : Block → Block :=
  storeName index (text.length + 1) text

/-! ## Processes -/

/-- What `namei.c` reads of `current`. -/
structure Process where
  euid : Nat
  egid : Nat
  umask : BitVec 32
  root : Option Nat
  pwd : Option Nat

/-- `MAY_EXEC`. -/
def mayExec : BitVec 32 := 1

/-- `permission`. -/
def Process.permission (process : Process) (inode : Inode)
    (mask : BitVec 32) : Bool :=
  let mode := BitVec.ofNat 32 inode.mode
  if inode.dev ≠ 0 ∧ inode.nlinks = 0 then false
  else
    let mode :=
      if process.euid = inode.uid then mode >>> 6
      else if process.egid = inode.gid then mode >>> 3
      else mode
    mode &&& mask &&& 7 = mask || process.euid = 0

/-- `suser`. -/
def Process.suser (process : Process) : Bool := process.euid == 0

/-! ## Searching a directory -/

/-- The block of a directory, if there is one and it can be read. -/
def readBlock (fuel dir block : Nat) : Sys (Option Nat) := do
  let kernel ← Prog.get
  if block = 0 then return none
  else (bread fuel (kernel.inodes dir).dev block).unmarked

/-- One entry is compared with a name in `find_entry`. -/
def compareEntry (name : List UInt8)
    (next : Nat → Nat → Sys (Option (Nat × Nat))) (bh de : Nat) :
    Sys (Option (Nat × Nat)) := do
  let kernel ← Prog.get
  if (entryAt (kernel.buffers bh).data de).isMatch name = true then
    return some (bh, de)
  else next bh (de + 1)

/-- The loop of `find_entry`, with `i` entries passed.  A `bh` that is `NULL`
counts as a block that has been passed: the word at address 0, which is read
for its `b_data`, is the first entry of the page directory and lies far below
the buffers. -/
def findLoop (fuel dir entries : Nat) (name : List UInt8) :
    Nat → Option Nat → Nat → Nat → Sys (Option (Nat × Nat))
  | 0, _, _, _ => Prog.spent
  | rounds + 1, bh, de, i =>
      if entries ≤ i then do
        brelse bh
        return none
      else do
        let compare := compareEntry name fun bh de =>
          findLoop fuel dir entries name rounds (some bh) de (i + 1)
        match bh, decide (de < dirEntriesPerBlock) with
        | some bh, true => compare bh de
        | bh, _ => do
            brelse bh
            let block ← bmap fuel dir (i / dirEntriesPerBlock)
            match ← readBlock fuel dir block with
            | none =>
                findLoop fuel dir entries name rounds none de
                  (i + dirEntriesPerBlock)
            | some bh => compare bh 0

/-- The `..` of a root: at the root of the process it is `.`, at the root of
a mounted device the directory is exchanged for the mount point.  A superblock
that is not there is a `NULL` pointer. -/
def crossRoot (fuel : Nat) (process : Process) (dir : Nat)
    (name : List UInt8) : Sys (Nat × List UInt8) := do
  let kernel ← Prog.get
  if name ≠ dotDotName then return (dir, name)
  else if process.root = some dir then return (dir, dotName)
  else if (kernel.inodes dir).num ≠ rootIno then return (dir, name)
  else
    match ← getSuper (kernel.inodes dir).dev fuel with
    | none => Prog.panic "NULL superblock"
    | some sb => do
        let kernel ← Prog.get
        if (kernel.supers sb).imount = none then return (dir, name)
        else do
          iput fuel (some dir)
          let kernel ← Prog.get
          match (kernel.supers sb).imount with
          | none => Prog.panic "NULL mount point"
          | some covered => do
              onInode covered Inode.takeCount
              return (covered, name)

/-- `find_entry`: the directory that was searched in the end, and the entry,
with a reference to its buffer. -/
def findEntry (fuel : Nat) (process : Process) (dir : Nat)
    (name : List UInt8) : Sys (Nat × Option (Nat × Nat)) := do
  let kernel ← Prog.get
  let entries := (kernel.inodes dir).size / 16
  let name := name.take nameLen
  if name = [] then return (dir, none)
  else do
    let (dir, name) ← crossRoot fuel process dir name
    let kernel ← Prog.get
    match ← readBlock fuel dir ((kernel.inodes dir).zone 0) with
    | none => return (dir, none)
    | some bh => do
        let found ← findLoop fuel dir entries name (entries + 1) (some bh) 0 0
        return (dir, found)

/-- Entry `i` of a directory is used for a name in `add_entry`, if it is
free. -/
def occupyEntry (dir i : Nat) (name : List UInt8)
    (next : Nat → Nat → Sys (Option (Nat × Nat))) (bh de : Nat) :
    Sys (Option (Nat × Nat)) := do
  let kernel ← Prog.get
  let grow : Sys Unit :=
    if (kernel.inodes dir).size ≤ i * 16 then do
      onBuffer bh fun buffer =>
        { buffer with data := storeNumber de 0 buffer.data }
      onInode dir fun inode =>
        { inode with
          size := (i + 1) * 16
          dirt := true
          ctime := kernel.now }
    else pure ()
  grow
  let kernel ← Prog.get
  if (entryAt (kernel.buffers bh).data de).inode = 0 then do
    onInode dir fun inode => { inode with mtime := kernel.now }
    storeMap bh (storeName de nameLen name)
    return some (bh, de)
  else next bh (de + 1)

/-- The loop of `add_entry`. -/
def addLoop (fuel dir : Nat) (name : List UInt8) :
    Nat → Option Nat → Nat → Nat → Sys (Option (Nat × Nat))
  | 0, _, _, _ => Prog.spent
  | rounds + 1, bh, de, i => do
      let occupy := occupyEntry dir i name fun bh de =>
        addLoop fuel dir name rounds (some bh) de (i + 1)
      match bh, decide (de < dirEntriesPerBlock) with
      | some bh, true => occupy bh de
      | bh, _ => do
          brelse bh
          let block ← createBlock fuel dir (i / dirEntriesPerBlock)
          if block = 0 then return none
          else
            match ← readBlock fuel dir block with
            | none =>
                addLoop fuel dir name rounds none de (i + dirEntriesPerBlock)
            | some bh => occupy bh 0

/-- `add_entry`. -/
def addEntry (fuel dir : Nat) (name : List UInt8) :
    Sys (Option (Nat × Nat)) := do
  let kernel ← Prog.get
  let name := name.take nameLen
  if name = [] then return none
  else
    match ← readBlock fuel dir ((kernel.inodes dir).zone 0) with
    | none => return none
    | some bh => addLoop fuel dir name fuel (some bh) 0 0

/-! ## Following a path -/

def slash : UInt8 := 47

/-- The inner loop of `get_dir`: the bytes before the next slash, and what
follows it, if there is one. -/
def scanName : List UInt8 → List UInt8 × Option (List UInt8)
  | [] => ([], none)
  | c :: rest =>
      if c = slash then ([], some rest)
      else
        let (name, next) := scanName rest
        (c :: name, next)

/-- The outer loop of `get_dir`. -/
def getDirLoop (fuel : Nat) (process : Process) :
    Nat → Nat → List UInt8 → Sys (Option Nat)
  | 0, _, _ => Prog.spent
  | rounds + 1, inode, pathname => do
      let kernel ← Prog.get
      if (kernel.inodes inode).isDirectory = false ∨
          process.permission (kernel.inodes inode) mayExec = false then do
        iput fuel (some inode)
        return none
      else
        match scanName pathname with
        | (_, none) => return some inode
        | (thisname, some rest) => do
            let (inode, found) ← findEntry fuel process inode thisname
            match found with
            | none => do
                iput fuel (some inode)
                return none
            | some (bh, de) => do
                let kernel ← Prog.get
                let inr := (entryAt (kernel.buffers bh).data de).inode
                let idev := (kernel.inodes inode).dev
                brelse (some bh)
                iput fuel (some inode)
                let inode ← iget fuel idev inr
                getDirLoop fuel process rounds inode rest

/-- An inode of the process, if it is in use. -/
def inUse (kernel : Kernel) (pointer : Option Nat) : Option Nat :=
  pointer.filter fun index => (kernel.inodes index).count != 0

def getDir (fuel : Nat) (process : Process) (pathname : List UInt8) :
    Sys (Option Nat) := do
  let kernel ← Prog.get
  match inUse kernel process.root, inUse kernel process.pwd with
  | none, _ => Prog.panic "No root inode"
  | _, none => Prog.panic "No cwd inode"
  | some root, some pwd => do
      let follow (inode : Nat) (pathname : List UInt8) : Sys (Option Nat) := do
        onInode inode Inode.takeCount
        getDirLoop fuel process (pathname.length + 1) inode pathname
      match pathname with
      | [] => return none
      | c :: rest =>
          if c = slash then follow root rest else follow pwd pathname

/-- The loop of `dir_namei`: what follows the last slash. -/
def basenameFrom : List UInt8 → List UInt8 → List UInt8
  | basename, [] => basename
  | basename, c :: rest =>
      basenameFrom (if c = slash then rest else basename) rest

/-- `dir_namei`: the directory and the name in it. -/
def dirNamei (fuel : Nat) (process : Process) (pathname : List UInt8) :
    Sys (Option (Nat × List UInt8)) := do
  match ← getDir fuel process pathname with
  | none => return none
  | some dir => return some (dir, basenameFrom pathname pathname)

def namei (fuel : Nat) (process : Process) (pathname : List UInt8) :
    Sys (Option Nat) := do
  match ← dirNamei fuel process pathname with
  | none => return none
  | some (dir, basename) =>
      if basename = [] then return some dir
      else do
        let (dir, found) ← findEntry fuel process dir basename
        match found with
        | none => do
            iput fuel (some dir)
            return none
        | some (bh, de) => do
            let kernel ← Prog.get
            let inr := (entryAt (kernel.buffers bh).data de).inode
            let dev := (kernel.inodes dir).dev
            brelse (some bh)
            iput fuel (some dir)
            let inode ← iget fuel dev inr
            let kernel ← Prog.get
            onInode inode fun inode =>
              { inode with atime := kernel.now, dirt := true }
            return some inode

/-! ## The calls -/

def eperm : Int := 1

def enoent : Int := 2

def eacces : Int := 13

def eexist : Int := 17

def exdev : Int := 18

def enotdir : Int := 20

def eisdir : Int := 21

def enospc : Int := 28

def enotempty : Int := 39

/-- `ERROR`. -/
def error : Int := 99

/-- What `open_namei` and `sys_mkdir` let a process set of a mode. -/
def Process.masked (process : Process) (mode : BitVec 32) : BitVec 32 :=
  mode &&& 0o777 &&& ~~~process.umask

/-- The end of a call that has failed. -/
def fails (errno : Int) : Sys (Int × Option Nat) :=
  return (-errno, none)

/-- The entry gets its inode. -/
def fillEntry (bh de inode : Nat) : Sys Unit := do
  let kernel ← Prog.get
  storeMap bh (storeNumber de (kernel.inodes inode).num)

/-- `open_namei`, with the inode it leaves in `res_inode`. -/
def openNamei (fuel : Nat) (process : Process) (pathname : List UInt8)
    (flag mode : BitVec 32) : Sys (Int × Option Nat) := do
  let flag := Descriptors.truncFlag flag
  let mode := process.masked mode ||| 0o100000
  match ← dirNamei fuel process pathname with
  | none => fails enoent
  | some (dir, basename) =>
      if basename = [] then
        if flag &&& (oAccmode ||| oCreat ||| oTrunc) = 0 then
          return (0, some dir)
        else do
          iput fuel (some dir)
          fails eisdir
      else do
        let (dir, found) ← findEntry fuel process dir basename
        match found with
        | none => do
            let kernel ← Prog.get
            if flag &&& oCreat = 0 then do
              iput fuel (some dir)
              fails enoent
            else if process.permission (kernel.inodes dir) mayWrite = false then do
              iput fuel (some dir)
              fails eacces
            else
              match ← (newInode fuel (kernel.inodes dir).dev process.euid
                  process.egid).unmarked with
              | none => do
                  iput fuel (some dir)
                  fails enospc
              | some inode => do
                  onInode inode fun inode =>
                    { inode with
                      uid := process.euid
                      mode := mode.toNat % 65536
                      dirt := true }
                  match ← addEntry fuel dir basename with
                  | none => do
                      onInode inode fun inode =>
                        { inode with nlinks := (inode.nlinks + 255) % 256 }
                      iput fuel (some inode)
                      iput fuel (some dir)
                      fails enospc
                  | some (bh, de) => do
                      fillEntry bh de inode
                      brelse (some bh)
                      iput fuel (some dir)
                      return (0, some inode)
        | some (bh, de) => do
            let kernel ← Prog.get
            let inr := (entryAt (kernel.buffers bh).data de).inode
            let dev := (kernel.inodes dir).dev
            brelse (some bh)
            iput fuel (some dir)
            if flag &&& oExcl ≠ 0 then fails eexist
            else do
              let inode ← iget fuel dev inr
              let kernel ← Prog.get
              if ((kernel.inodes inode).isDirectory = true ∧
                    flag &&& oAccmode ≠ 0) ∨
                  process.permission (kernel.inodes inode) (accMode flag) =
                    false then do
                iput fuel (some inode)
                fails eperm
              else do
                onInode inode fun inode => { inode with atime := kernel.now }
                let cut : Sys Unit :=
                  if flag &&& oTrunc ≠ 0 then truncate fuel inode else pure ()
                cut
                return (0, some inode)

/-- How `sys_mknod` and `sys_mkdir` begin: the directory, which may be
written, and the name, which it does not have yet. -/
def newName (fuel : Nat) (process : Process) (pathname : List UInt8)
    (next : Nat → List UInt8 → Sys (Int × Option Nat)) :
    Sys (Int × Option Nat) :=
  if process.suser = false then fails eperm
  else do
    match ← dirNamei fuel process pathname with
    | none => fails enoent
    | some (dir, basename) => do
        let kernel ← Prog.get
        if basename = [] then do
          iput fuel (some dir)
          fails enoent
        else if process.permission (kernel.inodes dir) mayWrite = false then do
          iput fuel (some dir)
          fails eperm
        else do
          let (dir, found) ← findEntry fuel process dir basename
          match found with
          | some (bh, _) => do
              brelse (some bh)
              iput fuel (some dir)
              fails eexist
          | none => next dir basename

def sysMknod (fuel : Nat) (process : Process) (filename : List UInt8)
    (mode : BitVec 32) (dev : Nat) : Sys (Int × Option Nat) :=
  newName fuel process filename fun dir basename => do
    let kernel ← Prog.get
    match ← (newInode fuel (kernel.inodes dir).dev process.euid
        process.egid).unmarked with
    | none => do
        iput fuel (some dir)
        fails enospc
    | some inode => do
        let kernel ← Prog.get
        onInode inode fun inode =>
          let inode := { inode with
            mode := mode.toNat % 65536
            mtime := kernel.now
            atime := kernel.now
            dirt := true }
          if mode &&& 0o170000 = 0o60000 ∨ mode &&& 0o170000 = 0o20000 then
            inode.setZone 0 (dev % 65536)
          else inode
        match ← addEntry fuel dir basename with
        | none => do
            iput fuel (some dir)
            onInode inode fun inode => { inode with nlinks := 0 }
            iput fuel (some inode)
            fails enospc
        | some (bh, de) => do
            fillEntry bh de inode
            iput fuel (some dir)
            iput fuel (some inode)
            brelse (some bh)
            return (0, none)

def sysMkdir (fuel : Nat) (process : Process) (pathname : List UInt8)
    (mode : BitVec 32) : Sys (Int × Option Nat) :=
  newName fuel process pathname fun dir basename => do
    let kernel ← Prog.get
    match ← (newInode fuel (kernel.inodes dir).dev process.euid
        process.egid).unmarked with
    | none => do
        iput fuel (some dir)
        fails enospc
    | some inode => do
        let kernel ← Prog.get
        onInode inode fun inode =>
          { inode with
            size := 32
            dirt := true
            mtime := kernel.now
            atime := kernel.now }
        let block ← newBlock fuel (kernel.inodes inode).dev
        onInode inode fun inode => inode.setZone 0 (block % 65536)
        if block % 65536 = 0 then do
          iput fuel (some dir)
          onInode inode fun inode =>
            { inode with nlinks := (inode.nlinks + 255) % 256 }
          iput fuel (some inode)
          fails enospc
        else do
          onInode inode fun inode => { inode with dirt := true }
          let kernel ← Prog.get
          let own := kernel.inodes inode
          match ← (bread fuel own.dev (own.zone 0)).unmarked with
          | none => do
              iput fuel (some dir)
              let kernel ← Prog.get
              let own := kernel.inodes inode
              freeBlock fuel own.dev (own.zone 0)
              onInode inode fun inode =>
                { inode with nlinks := (inode.nlinks + 255) % 256 }
              iput fuel (some inode)
              fails error
          | some dirBlock => do
              let kernel ← Prog.get
              storeMap dirBlock fun data =>
                storeText 1 dotDotName (storeNumber 1 (kernel.inodes dir).num
                  (storeText 0 dotName
                    (storeNumber 0 (kernel.inodes inode).num data)))
              onInode inode fun inode => { inode with nlinks := 2 }
              brelse (some dirBlock)
              onInode inode fun inode =>
                { inode with
                  mode := 0o40000 ||| (process.masked mode).toNat
                  dirt := true }
              match ← addEntry fuel dir basename with
              | none => do
                  iput fuel (some dir)
                  let kernel ← Prog.get
                  let own := kernel.inodes inode
                  freeBlock fuel own.dev (own.zone 0)
                  onInode inode fun inode => { inode with nlinks := 0 }
                  iput fuel (some inode)
                  fails enospc
              | some (bh, de) => do
                  fillEntry bh de inode
                  onInode dir fun inode =>
                    { inode with
                      nlinks := (inode.nlinks + 1) % 256
                      dirt := true }
                  iput fuel (some dir)
                  iput fuel (some inode)
                  brelse (some bh)
                  return (0, none)

/-! ## Removing names -/

/-- One entry is looked at in `empty_dir`. -/
def checkEntry (next : Nat → Nat → Sys Bool) (bh de : Nat) : Sys Bool := do
  let kernel ← Prog.get
  if (entryAt (kernel.buffers bh).data de).inode ≠ 0 then do
    brelse (some bh)
    return false
  else next bh (de + 1)

/-- The loop of `empty_dir`.  At the mark `bh` has been given back, and is
used on. -/
def emptyLoop (fuel index len : Nat) : Nat → Nat → Nat → Nat → Sys Bool
  | 0, _, _, _ => Prog.spent
  | rounds + 1, bh, de, nr =>
      if len ≤ nr then do
        brelse (some bh)
        return true
      else do
        let check := checkEntry fun bh de =>
          emptyLoop fuel index len rounds bh de (nr + 1)
        if de < dirEntriesPerBlock then check bh de
        else do
          brelse (some bh)
          let block ← bmap fuel index (nr / dirEntriesPerBlock)
          if block = 0 then do
            Prog.cross
            emptyLoop fuel index len rounds bh de (nr + dirEntriesPerBlock)
          else
            match ← readBlock fuel index block with
            | none => return false
            | some bh => check bh 0

/-- The first two entries are those of a directory. -/
def hasDots (inode : Inode) (data : Block) : Bool :=
  (entryAt data 0).inode == inode.num && (entryAt data 1).inode != 0 &&
    (entryAt data 0).isCalled dotName && (entryAt data 1).isCalled dotDotName

/-- `empty_dir`.  At the mark it returns with `bh`. -/
def emptyDir (fuel index : Nat) : Sys Bool := do
  let kernel ← Prog.get
  let len := (kernel.inodes index).size / 16
  if len < 2 then return false
  else
    match ← readBlock fuel index ((kernel.inodes index).zone 0) with
    | none => return false
    | some bh => do
        let kernel ← Prog.get
        if hasDots (kernel.inodes index) (kernel.buffers bh).data = false then do
          Prog.cross
          return false
        else emptyLoop fuel index len (len + 1) bh 2 2

/-- `S_ISVTX`. -/
def Inode.isSticky (inode : Inode) : Bool := inode.mode.testBit 9

/-- How `sys_rmdir` and `sys_unlink` go on to the entry of the name. -/
def oldName (fuel : Nat) (process : Process) (name : List UInt8)
    (next : Nat → Nat → Nat → Nat → Sys (Int × Option Nat)) :
    Sys (Int × Option Nat) := do
  match ← dirNamei fuel process name with
  | none => fails enoent
  | some (dir, basename) => do
      let kernel ← Prog.get
      if basename = [] then do
        iput fuel (some dir)
        fails enoent
      else if process.permission (kernel.inodes dir) mayWrite = false then do
        iput fuel (some dir)
        fails eperm
      else do
        let (dir, found) ← findEntry fuel process dir basename
        match found with
        | none => do
            iput fuel (some dir)
            fails enoent
        | some (bh, de) => do
            let kernel ← Prog.get
            let inode ← iget fuel (kernel.inodes dir).dev
              (entryAt (kernel.buffers bh).data de).inode
            next dir bh de inode

/-- The three references of `sys_rmdir` and `sys_unlink` are given back, in
this order. -/
def refuse (fuel first second bh : Nat) (errno : Int) :
    Sys (Int × Option Nat) := do
  iput fuel (some first)
  iput fuel (some second)
  brelse (some bh)
  fails errno

def sysRmdir (fuel : Nat) (process : Process) (name : List UInt8) :
    Sys (Int × Option Nat) :=
  if process.suser = false then fails eperm
  else oldName fuel process name fun dir bh de inode => do
    let kernel ← Prog.get
    if (kernel.inodes dir).isSticky = true ∧ process.euid ≠ 0 ∧
        (kernel.inodes inode).uid ≠ process.euid then
      refuse fuel dir inode bh eperm
    else if (kernel.inodes inode).dev ≠ (kernel.inodes dir).dev ∨
        1 < (kernel.inodes inode).count then
      refuse fuel dir inode bh eperm
    else if inode = dir then refuse fuel inode dir bh eperm
    else if (kernel.inodes inode).isDirectory = false then
      refuse fuel inode dir bh enotdir
    else do
      let empty ← emptyDir fuel inode
      if empty = false then refuse fuel inode dir bh enotempty
      else do
        storeMap bh (storeNumber de 0)
        brelse (some bh)
        onInode inode fun inode => { inode with nlinks := 0, dirt := true }
        let kernel ← Prog.get
        onInode dir fun inode =>
          { inode with
            nlinks := (inode.nlinks + 255) % 256
            ctime := kernel.now
            mtime := kernel.now
            dirt := true }
        iput fuel (some dir)
        iput fuel (some inode)
        return (0, none)

def sysUnlink (fuel : Nat) (process : Process) (name : List UInt8) :
    Sys (Int × Option Nat) :=
  oldName fuel process name fun dir bh de inode => do
    let kernel ← Prog.get
    if (kernel.inodes dir).isSticky = true ∧ process.suser = false ∧
        process.euid ≠ (kernel.inodes inode).uid ∧
        process.euid ≠ (kernel.inodes dir).uid then
      refuse fuel dir inode bh eperm
    else if (kernel.inodes inode).isDirectory = true then
      refuse fuel inode dir bh eperm
    else do
      onInode inode fun inode =>
        { inode with nlinks := if inode.nlinks = 0 then 1 else inode.nlinks }
      storeMap bh (storeNumber de 0)
      brelse (some bh)
      let kernel ← Prog.get
      onInode inode fun inode =>
        { inode with
          nlinks := (inode.nlinks + 255) % 256
          dirt := true
          ctime := kernel.now }
      iput fuel (some inode)
      iput fuel (some dir)
      return (0, none)

def sysLink (fuel : Nat) (process : Process) (oldname newname : List UInt8) :
    Sys (Int × Option Nat) := do
  match ← namei fuel process oldname with
  | none => fails enoent
  | some oldinode => do
      let kernel ← Prog.get
      if (kernel.inodes oldinode).isDirectory = true then do
        iput fuel (some oldinode)
        fails eperm
      else
        match ← dirNamei fuel process newname with
        | none => do
            iput fuel (some oldinode)
            fails eacces
        | some (dir, basename) => do
            let kernel ← Prog.get
            if basename = [] then do
              iput fuel (some oldinode)
              iput fuel (some dir)
              fails eperm
            else if (kernel.inodes dir).dev ≠ (kernel.inodes oldinode).dev then do
              iput fuel (some dir)
              iput fuel (some oldinode)
              fails exdev
            else if process.permission (kernel.inodes dir) mayWrite = false then do
              iput fuel (some dir)
              iput fuel (some oldinode)
              fails eacces
            else do
              let (dir, found) ← findEntry fuel process dir basename
              match found with
              | some (bh, _) => do
                  brelse (some bh)
                  iput fuel (some dir)
                  iput fuel (some oldinode)
                  fails eexist
              | none =>
                  match ← addEntry fuel dir basename with
                  | none => do
                      iput fuel (some dir)
                      iput fuel (some oldinode)
                      fails enospc
                  | some (bh, de) => do
                      fillEntry bh de oldinode
                      brelse (some bh)
                      iput fuel (some dir)
                      let kernel ← Prog.get
                      onInode oldinode fun inode =>
                        { inode with
                          nlinks := (inode.nlinks + 1) % 256
                          ctime := kernel.now
                          dirt := true }
                      iput fuel (some oldinode)
                      return (0, none)

/-- A call of `namei.c` that looks up or changes a name. -/
inductive NameiCall where
  | openNamei (pathname : List UInt8) (flag mode : BitVec 32)
  | mknod (filename : List UInt8) (mode : BitVec 32) (dev : Nat)
  | mkdir (pathname : List UInt8) (mode : BitVec 32)
  | rmdir (name : List UInt8)
  | unlink (name : List UInt8)
  | link (oldname newname : List UInt8)

/-- The error code, and the inode that is handed to the caller. -/
def NameiCall.program (fuel : Nat) (process : Process) :
    NameiCall → Sys (Int × Option Nat)
  | openNamei pathname flag mode =>
      Fs.openNamei fuel process pathname flag mode
  | mknod filename mode dev => sysMknod fuel process filename mode dev
  | mkdir pathname mode => sysMkdir fuel process pathname mode
  | rmdir name => sysRmdir fuel process name
  | unlink name => sysUnlink fuel process name
  | link oldname newname => sysLink fuel process oldname newname

end Linux011.Fs
