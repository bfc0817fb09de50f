import Linux011.Fs.Namei
import Linux011.Proc.Exec

/-!
# Three copies of the permission check

`sys_access` beside `permission` and the check of `do_execve`.  They pick the
bits of the owner, the group or the others by shifting; `sys_access` shifts
for a member of the group as far as for the owner.
-/

namespace Linux011.Fs

/-- `sys_access` of a process with these real ids, where `namei` finds an
inode or none.  The inode keeps its mode and its owner while it is put. -/
def sysAccess (uid gid : Nat) (found : Option Inode) (mode : BitVec 32) :
    Int :=
  let mode := mode &&& 7
  match found with
  | none => -13
  | some inode =>
      let iMode := BitVec.ofNat 32 inode.mode &&& 0o777
      let res :=
        if uid = inode.uid then iMode >>> 6
        else if gid = inode.gid then iMode >>> 6
        else iMode
      if res &&& 7 &&& mode = mode then 0
      else if uid = 0 ∧ (mode &&& 1 = 0 ∨ iMode &&& 0o111 ≠ 0) then 0
      else -13

/-! ## The bits each of them looks at -/

namespace Inode

def ownerBits (inode : Inode) : BitVec 32 :=
  BitVec.ofNat 32 inode.mode >>> 6 &&& 7#32

def groupBits (inode : Inode) : BitVec 32 :=
  BitVec.ofNat 32 inode.mode >>> 3 &&& 7#32

def otherBits (inode : Inode) : BitVec 32 := BitVec.ofNat 32 inode.mode &&& 7

/-- The bits for these ids. -/
def bitsFor (inode : Inode) (uid gid : Nat) : BitVec 32 :=
  if uid = inode.uid then inode.ownerBits
  else if gid = inode.gid then inode.groupBits
  else inode.otherBits

/-- The bits `sys_access` looks at. -/
def accessBits (inode : Inode) (uid gid : Nat) : BitVec 32 :=
  if uid = inode.uid ∨ gid = inode.gid then inode.ownerBits
  else inode.otherBits

end Inode

/-- All bits of the mask are there. -/
def HasBits (bits mask : BitVec 32) : Prop := bits &&& mask = mask

instance (bits mask : BitVec 32) : Decidable (HasBits bits mask) :=
  inferInstanceAs (Decidable (_ = _))

section Bits

variable {inode : Inode} {uid gid : Nat} {mask : BitVec 32}

theorem low_three (mode : BitVec 32) :
    (mode &&& 0o777) >>> 6 &&& 7#32 = mode >>> 6 &&& 7#32 ∧
      mode &&& 0o777 &&& 7 = mode &&& 7 := by
  constructor
  · have shifted : (0o777 : BitVec 32) >>> 6 = 7#32 := rfl
    rw [BitVec.ushiftRight_and_distrib, shifted, BitVec.and_assoc,
      BitVec.and_self]
  · rw [BitVec.and_assoc]
    rfl

/-- A mask that lies in the low three bits, all of which are there. -/
theorem masked_iff (mode mask : BitVec 32) :
    mode &&& mask &&& 7 = mask ↔
      mask &&& 7 = mask ∧ HasBits (mode &&& 7) mask := by
  have turned : mode &&& mask &&& 7 = mode &&& 7 &&& mask := by
    rw [BitVec.and_assoc, BitVec.and_assoc, BitVec.and_comm mask]
  constructor
  · intro same
    refine ⟨?_, turned.symm.trans same⟩
    calc mask &&& 7 = mode &&& mask &&& 7 &&& 7 := by rw [same]
      _ = mode &&& mask &&& 7 := by rw [BitVec.and_assoc, BitVec.and_self]
      _ = mask := same
  · exact fun ⟨_, has⟩ => turned.trans has

theorem sysAccess_zero_iff (notRoot : uid ≠ 0) :
    sysAccess uid gid (some inode) mask = 0 ↔
      HasBits (inode.accessBits uid gid) (mask &&& 7) := by
  have isBits : (if uid = inode.uid then
      (BitVec.ofNat 32 inode.mode &&& 0o777) >>> 6
      else if gid = inode.gid then
        (BitVec.ofNat 32 inode.mode &&& 0o777) >>> 6
      else BitVec.ofNat 32 inode.mode &&& 0o777) &&& 7 =
        inode.accessBits uid gid := by
    obtain ⟨shifted, plain⟩ := low_three (BitVec.ofNat 32 inode.mode)
    unfold Inode.accessBits
    by_cases isOwner : uid = inode.uid
    · rw [if_pos isOwner, if_pos (.inl isOwner)]
      exact shifted
    · rw [if_neg isOwner]
      by_cases isMember : gid = inode.gid
      · rw [if_pos isMember, if_pos (.inr isMember)]
        exact shifted
      · rw [if_neg isMember, if_neg (not_or.mpr ⟨isOwner, isMember⟩)]
        exact plain
  unfold sysAccess HasBits
  dsimp only
  rw [isBits]
  split <;> rename_i has
  · exact iff_of_true rfl has
  · rw [if_neg fun root => notRoot root.1]
    exact iff_of_false (by decide) has

theorem permission_iff {process : Process} (notRoot : process.euid ≠ 0)
    (linked : 0 < inode.nlinks) :
    process.permission inode mask = true ↔ mask &&& 7 = mask ∧
      HasBits (inode.bitsFor process.euid process.egid) mask := by
  have isLinked : ¬ (inode.dev ≠ 0 ∧ inode.nlinks = 0) := by omega
  unfold Process.permission
  dsimp only
  rw [if_neg isLinked, decide_eq_false notRoot, Bool.or_false,
    decide_eq_true_eq, masked_iff]
  unfold Inode.bitsFor
  split
  · rfl
  split
  · rfl
  · rfl

end Bits

/-- Where `sys_access` and `permission` come to the same: for a mask of
permissions, the bits of the owner and of the group say the same to a member
of the group; for other masks, `sys_access` finds a bit missing. -/
def Agrees (uid gid : Nat) (inode : Inode) (mask : BitVec 32) : Prop :=
  if mask &&& 7 = mask then
    uid ≠ inode.uid → gid = inode.gid →
      (HasBits inode.ownerBits mask ↔ HasBits inode.groupBits mask)
  else ¬ HasBits (inode.accessBits uid gid) (mask &&& 7)

instance (uid gid : Nat) (inode : Inode) (mask : BitVec 32) :
    Decidable (Agrees uid gid inode mask) :=
  inferInstanceAs (Decidable (ite _ _ _))

/-- Both pick the same bits, or bits that cover the mask alike. -/
theorem hasBits_iff (inode : Inode) (uid gid : Nat) (mask : BitVec 32) :
    (HasBits (inode.accessBits uid gid) mask ↔
      HasBits (inode.bitsFor uid gid) mask) ↔
      (uid ≠ inode.uid → gid = inode.gid →
        (HasBits inode.ownerBits mask ↔ HasBits inode.groupBits mask)) := by
  unfold Inode.accessBits Inode.bitsFor
  by_cases isOwner : uid = inode.uid
  · rw [if_pos (.inl isOwner), if_pos isOwner]
    exact iff_of_true Iff.rfl fun notOwner => absurd isOwner notOwner
  · rw [if_neg isOwner]
    by_cases isMember : gid = inode.gid
    · rw [if_pos (.inr isMember), if_pos isMember]
      exact ⟨fun same _ _ => same, fun same => same isOwner isMember⟩
    · rw [if_neg (not_or.mpr ⟨isOwner, isMember⟩), if_neg isMember]
      exact iff_of_true Iff.rfl fun _ member => absurd member isMember

/-- The effective ids of a task. -/
def Process.isTask (process : Process) (p : Proc.TaskStruct) : Prop :=
  process.euid = p.euid.toNat ∧ process.egid = p.egid.toNat

/-- What `do_execve` knows of an inode. -/
def Inode.isProgram (inode : Inode) (program : Proc.Program) : Prop :=
  inode.mode = program.mode.toNat ∧ inode.uid = program.uid.toNat ∧
    inode.gid = program.gid.toNat

section Execute

variable {process : Process} {p : Proc.TaskStruct} {inode : Inode}
  {program : Proc.Program}

theorem low_bit (mode : BitVec 16) (count : Nat) :
    mode >>> count &&& 1#16 ≠ 0 ↔
      HasBits (BitVec.ofNat 32 mode.toNat >>> count &&& 7#32) 1 := by
  have one (word : BitVec 32) : word &&& 7#32 &&& 1 = word &&& 1#32 := by
    rw [BitVec.and_assoc]
    rfl
  have same : (BitVec.ofNat 32 mode.toNat >>> count).getLsbD 0 =
      (mode >>> count).getLsbD 0 := by
    rw [BitVec.getLsbD_ushiftRight, BitVec.getLsbD_ushiftRight,
      BitVec.getLsbD_ofNat, BitVec.testBit_toNat]
    by_cases small : count + 0 < 32
    · rw [decide_eq_true small, Bool.true_and]
    · rw [BitVec.getLsbD_of_ge mode _ (by omega), Bool.and_false]
  unfold HasBits
  rw [one, BitVec.and_one_eq_setWidth_ofBool_getLsbD,
    BitVec.and_one_eq_setWidth_ofBool_getLsbD, same]
  cases (mode >>> count).getLsbD 0 <;> decide

/-- `do_execve` looks at the same bit as `permission`. -/
theorem executable_iff (notRoot : p.euid ≠ 0) (isTask : process.isTask p)
    (isProgram : inode.isProgram program) :
    Proc.executable p program = true ↔
      HasBits (inode.bitsFor process.euid process.egid) 1 := by
  obtain ⟨isUid, isGid⟩ := isTask
  obtain ⟨isMode, isOwner, isGroup⟩ := isProgram
  have owner : process.euid = inode.uid ↔ p.euid = program.uid := by
    rw [isUid, isOwner, UInt16.toNat_inj]
  have member : process.egid = inode.gid ↔ p.egid = program.gid.toUInt16 := by
    rw [isGid, isGroup, ← UInt16.toNat_inj, UInt8.toNat_toUInt16]
  have plain : program.mode &&& 1#16 ≠ 0 ↔
      HasBits (BitVec.ofNat 32 program.mode.toNat &&& 7#32) 1 :=
    low_bit program.mode 0
  unfold Proc.executable Inode.bitsFor Inode.ownerBits Inode.groupBits
    Inode.otherBits
  simp only [owner, member, isMode, notRoot, decide_false, Bool.and_false,
    Bool.or_false, decide_eq_true_eq]
  split
  · exact low_bit program.mode 6
  split
  · exact low_bit program.mode 3
  · exact plain

end Execute

/-- `sys_access` agrees with `permission` exactly where `Agrees` says, and
`do_execve` always. -/
theorem access_agrees_iff {uid gid : Nat} {inode : Inode} {mask : BitVec 32}
    {process : Process} (notRoot : uid ≠ 0) (linked : 0 < inode.nlinks)
    (isUid : process.euid = uid) (isGid : process.egid = gid) :
    ((sysAccess uid gid (some inode) mask = 0 ↔
      process.permission inode mask = true) ↔ Agrees uid gid inode mask) ∧
      ∀ (p : Proc.TaskStruct) (program : Proc.Program),
        process.isTask p → inode.isProgram program →
          program.mode &&& 0o170000 = 0o100000 →
            (Proc.examine p program ≠ .refused (-8) ↔
              process.permission inode mayExec = true) := by
  subst isUid isGid
  constructor
  · rw [sysAccess_zero_iff notRoot, permission_iff notRoot linked]
    unfold Agrees
    split <;> rename_i isMask
    · rw [isMask, ← hasBits_iff, and_iff_right rfl]
    · constructor
      · exact fun same has => isMask (same.mp has).1
      · exact fun missing => iff_of_false missing fun granted => isMask granted.1
  · intro p program isTask isProgram isRegular
    have notRootTask : p.euid ≠ 0 := by
      intro isRoot
      apply notRoot
      rw [isTask.1, isRoot]
      rfl
    have one : mayExec &&& 7 = mayExec := rfl
    rw [permission_iff notRoot linked, and_iff_right one]
    refine Iff.trans ?_ (executable_iff notRootTask isTask isProgram)
    unfold Proc.examine
    rw [if_neg (not_not.mpr isRegular)]
    split <;> rename_i isExecutable
    · simp [isExecutable]
    · rw [Bool.not_eq_false] at isExecutable
      refine iff_of_true ?_ isExecutable
      split <;> simp

section Example

/-- A file of user 9 and group 7. -/
def groupFile (mode : Nat) : Inode :=
  { Inode.zero with mode, uid := 9, gid := 7, nlinks := 1 }

/-- A process of user 5 and group 7. -/
def groupMember : Process where
  euid := 5
  egid := 7
  umask := 0
  root := none
  pwd := none

theorem access_agrees_iff_executable :
    (sysAccess 5 7 (some (groupFile 0o100750)) 5 = 0 ↔
      groupMember.permission (groupFile 0o100750) 5 = true) ∧
    Proc.examine { Proc.initTask 5 with euid := 5, egid := 7 }
      ⟨0, 0o100750, 9, 7, 0, none⟩ ≠ .refused (-8) := by
  obtain ⟨agrees, executes⟩ := @access_agrees_iff 5 7 (groupFile 0o100750) 5
    groupMember (by decide) (by decide) rfl rfl
  refine ⟨agrees.mpr (by decide), ?_⟩
  exact (executes _ _ ⟨rfl, rfl⟩ ⟨rfl, rfl, rfl⟩ rfl).mpr (by decide)

/-- A member of the group may not write the file, and `sys_access` says it
may. -/
theorem access_ownerBits :
    0 < (groupFile 0o100640).nlinks ∧
      sysAccess 5 7 (some (groupFile 0o100640)) 2 = 0 ∧
      groupMember.permission (groupFile 0o100640) 2 = false := by
  decide

end Example

end Linux011.Fs
