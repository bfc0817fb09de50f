import Linux011.Fs.Namei
import Linux011.Fs.Superblocks

/-!
# Mounting

The system calls of `super.c`.  What `dev_name` stands for is found first, as
in both calls; the rest of each call is a function of its own.
-/

namespace Linux011.Fs

open Coop

def enotblk : Int := 15

def ebusy : Int := 16

/-- `put_super`, which only complains about the root device and about a
device that is still mounted. -/
def putSuper (fuel rootDev dev : Nat) : Sys Unit := do
  if dev = rootDev then return ()
  else
    match ← getSuper dev fuel with
    | none => return ()
    | some sb => do
        let kernel ← Prog.get
        if (kernel.supers sb).imount ≠ none then return ()
        else do
          lockSuper sb
          onSuper sb fun super => { super with dev := 0 }
          releaseMaps sb
          onSuper sb fun super => { super with lock := false }

/-- The start of `sys_umount` and `sys_mount`: the device of a special file, or
an error. -/
def deviceNamed (fuel : Nat) (process : Process) (devName : List UInt8)
    (notBlock : Int) : Sys (Except Int Nat) := do
  match ← namei fuel process devName with
  | none => return .error (-enoent)
  | some inode => do
      let kernel ← Prog.get
      let dev := (kernel.inodes inode).zone 0
      iput fuel (some inode)
      if (kernel.inodes inode).isBlockDevice = false then
        return .error (-notBlock)
      else return .ok dev

/-- An inode of the device is in use. -/
def Kernel.busy (kernel : Kernel) (dev : Nat) : Bool :=
  (List.range nrInode).any fun slot =>
    (kernel.inodes slot).dev == dev && (kernel.inodes slot).count != 0

/-- `sys_umount` from the device on. -/
def umountDevice (fuel rootDev dev : Nat) : Sys Int := do
  if dev = rootDev then return -ebusy
  else
    match ← getSuper dev fuel with
    | none => return -enoent
    | some sb => do
        let kernel ← Prog.get
        match (kernel.supers sb).imount with
        | none => return -enoent
        | some covered =>
            if kernel.busy dev = true then return -ebusy
            else do
              onInode covered fun inode => { inode with mount := false }
              iput fuel (some covered)
              onSuper sb fun super => { super with imount := none }
              let kernel ← Prog.get
              iput fuel (kernel.supers sb).isup
              onSuper sb fun super => { super with isup := none }
              putSuper fuel rootDev dev
              (syncDev fuel dev).unmarked
              return 0

def sysUmount (fuel rootDev : Nat) (process : Process)
    (devName : List UInt8) : Sys Int := do
  match ← deviceNamed fuel process devName enotblk with
  | .error result => return result
  | .ok dev => umountDevice fuel rootDev dev

/-- `sys_mount` from the device on.  The reference to the directory is kept
where it succeeds. -/
def mountDevice (fuel : Nat) (process : Process) (dev : Nat)
    (dirName : List UInt8) : Sys Int := do
  match ← namei fuel process dirName with
  | none => return -enoent
  | some dir => do
      let refuse (errno : Int) : Sys Int := do
        iput fuel (some dir)
        return -errno
      let kernel ← Prog.get
      if (kernel.inodes dir).count ≠ 1 ∨ (kernel.inodes dir).num = rootIno then
        refuse ebusy
      else if (kernel.inodes dir).isDirectory = false then refuse eperm
      else
        match ← readSuper fuel dev with
        | none => refuse ebusy
        | some sb => do
            let kernel ← Prog.get
            if (kernel.supers sb).imount ≠ none then refuse ebusy
            else if (kernel.inodes dir).mount = true then refuse eperm
            else do
              onSuper sb fun super => { super with imount := some dir }
              onInode dir fun inode =>
                { inode with mount := true, dirt := true }
              return 0

/-- `sys_mount`, which does not look at `rw_flag`. -/
def sysMount (fuel : Nat) (process : Process)
    (devName dirName : List UInt8) : Sys Int := do
  match ← deviceNamed fuel process devName eperm with
  | .error result => return result
  | .ok dev => mountDevice fuel process dev dirName

/-- A path is looked up and its inode put back. -/
def lookUp (fuel : Nat) (process : Process) (pathname : List UInt8) :
    Sys Unit := do
  iput fuel (← namei fuel process pathname)

end Linux011.Fs
