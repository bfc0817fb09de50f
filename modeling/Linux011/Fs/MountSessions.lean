import Linux011.Fs.FreeCounts
import Linux011.Fs.MountCalls

/-!
# Sessions of mounting and unmounting

One task mounts and unmounts devices and looks up paths, from `mount_root` on.
Its mount records stay in order, and `sys_umount` undoes what `sys_mount` has
done, as long as no `free_block` comes across a block in use.
-/

namespace Linux011.Fs

open Coop Prog

/-! ## The start -/

/-- The tables are as the program was loaded, and no buffer is in use. -/
structure Booted (kernel : Kernel) : Prop where
  lists : Lists kernel
  buffer : ∀ bh, (kernel.buffers bh).count = 0
  inode : ∀ slot, kernel.inodes slot = Inode.zero
  super : ∀ sb, (kernel.supers sb).isup = none ∧ (kernel.supers sb).imount = none

/-- `mount_root` clears the device numbers. -/
def Kernel.noSupers (kernel : Kernel) : Kernel :=
  { kernel with supers := fun sb =>
      if sb < nrSuper then { kernel.supers sb with dev := 0, lock := false }
      else kernel.supers sb }

section Start

variable {rootDev fuel : Nat} {boot : Kernel}

theorem noSupers_dev {sb : Nat} (inRange : sb < nrSuper) :
    (boot.noSupers.supers sb).dev = 0 := by
  show (if sb < nrSuper then _ else boot.supers sb : Super).dev = 0
  rw [if_pos inRange]

theorem Booted.pointers (booted : Booted boot) (sb : Nat) :
    (boot.noSupers.supers sb).isup = none ∧
      (boot.noSupers.supers sb).imount = none := by
  show (if sb < nrSuper then _ else boot.supers sb : Super).isup = none ∧
    (if sb < nrSuper then _ else boot.supers sb : Super).imount = none
  split
  · exact booted.super sb
  · exact booted.super sb

theorem printFree_keeps {holds : Kernel → Prop} (sb : Nat) :
    Hoare .any Interrupts holds (printFree sb) fun _ => holds := by
  have counts (map : Nat → Option Nat) (count free : Nat) :
      Hoare .any Interrupts holds (countFree map count free) fun _ => holds := by
    induction count generalizing free with
    | zero => exact hoare_pure fun _ isHeld => isHeld
    | succ count induction =>
        have tests : Hoare .any Interrupts holds (testMap map count)
            fun _ => holds := by
          unfold testMap
          split
          · exact hoare_panic trivial
          · exact hoare_read fun _ => hoare_pure fun _ isHeld => isHeld
        exact hoare_bind tests fun _ => induction _
  apply hoare_read
  intro kernel
  apply hoare_bind (counts _ _ _)
  intro _
  apply hoare_bind (counts _ _ _)
  exact fun _ => hoare_pure fun _ isHeld => isHeld

/-- The records when the root is mounted, and nothing else. -/
theorem Booted.records (booted : Booted boot) (notZero : rootDev ≠ 0)
    {sb root : Nat} (inRange : sb < nrSuper) {super : Super}
    (isDev : super.dev = rootDev) (imount : super.imount = some root)
    {inode : Inode} (count : inode.count = 4) (isPlain : inode.mount = false) :
    Records rootDev root
      (Records.changed boot.noSupers sb root super inode) := by
  have plain (slot : Nat) : ((Records.changed boot.noSupers sb root super
      inode).inodes slot).mount = false := by
    by_cases here : slot = root
    · rw [here, Records.changed_slot]
      exact isPlain
    · rw [Records.changed_inode here]
      exact congrArg Inode.mount (booted.inode slot)
  have noCover (slot other : Nat) :
      ¬Covers rootDev (Records.changed boot.noSupers sb root super inode) slot
        other := by
    rintro ⟨_, notRoot, isCovered⟩
    by_cases here : other = sb
    · rw [here, Records.changed_sb] at notRoot
      exact notRoot isDev
    · rw [Records.changed_super here, (booted.pointers other).2] at isCovered
      cases isCovered
  constructor
  · intro slot
    rw [plain]
    by_cases here : slot = root
    · rw [here, Records.changed_slot, count, if_pos rfl]
      rfl
    · rw [Records.changed_inode here, if_neg here]
      exact congrArg Inode.count (booted.inode slot)
  · exact plain root
  · intro slot isMount
    rw [plain] at isMount
    cases isMount
  · exact notZero
  · refine ⟨sb, inRange, ?_⟩
    rw [Records.changed_sb]
    exact isDev
  · intro other otherRange
    by_cases here : other = sb
    · rw [here, Records.changed_sb]
      exact fun _ => imount
    · rw [Records.changed_super here, noSupers_dev otherRange]
      exact fun isRoot => absurd isRoot.symm notZero
  · intro first second firstRange secondRange
    by_cases left : first = sb
    · by_cases right : second = sb
      · exact fun _ _ => left.trans right.symm
      · rw [left, Records.changed_sb, Records.changed_super right,
          noSupers_dev secondRange]
        exact fun isUsed same => absurd same isUsed
    · rw [Records.changed_super left, noSupers_dev firstRange]
      exact fun isUsed => absurd rfl isUsed
  · intro other otherRange
    by_cases here : other = sb
    · rw [here, Records.changed_sb, isDev]
      exact fun isZero => absurd isZero notZero
    · rw [Records.changed_super here]
      exact fun _ => booted.pointers other
  · intro other otherRange
    by_cases here : other = sb
    · rw [here, Records.changed_sb]
      exact fun _ notRoot => absurd isDev notRoot
    · rw [Records.changed_super here, noSupers_dev otherRange]
      exact fun isUsed => absurd rfl isUsed
  · intro slot
    rw [plain]
    constructor
    · intro isMount
      cases isMount
    · rintro ⟨other, covers⟩
      exact absurd covers (noCover slot other)
  · exact fun slot first _ covers => absurd covers (noCover slot first)

/-- The end of `mount_root`, before it prints. -/
theorem Booted.mounts (booted : Booted boot) (notZero : rootDev ≠ 0)
    {sb root : Nat} (inRange : sb < nrSuper) {super : Super} {kernel : Kernel}
    (isDev : super.dev = rootDev)
    (slotted : Slotted boot.noSupers sb super super.maps [root] kernel) :
    Mounts rootDev root ((kernel.setInode root
      { kernel.inodes root with
        count := (kernel.inodes root).count + 3 }).setSuper sb
      { super with isup := some root, imount := some root }) := by
  have zero (slot : Nat) : boot.noSupers.inodes slot = Inode.zero :=
    booted.inode slot
  have counts (slot : Nat) :
      (kernel.inodes slot).count = [root].count slot := by
    rw [slotted.holding.inode]
    show (boot.noSupers.inodes slot).count + _ = _
    rw [zero]
    exact Nat.zero_add _
  have one : (kernel.inodes root).count = 1 := by
    rw [counts, List.count_singleton_self]
  have isPlain : (kernel.inodes root).mount = false := by
    rw [slotted.tabled.mount]
    exact congrArg Inode.mount (zero root)
  have records := booted.records notZero inRange
    (show Super.dev { super with isup := some root, imount := some root } =
      rootDev from isDev) rfl
    (show Inode.count { kernel.inodes root with
      count := (kernel.inodes root).count + 3 } = 4 by rw [one]) isPlain
  refine records.settled slotted.changed ?_
  intro bh
  have same := @heldMaps_setSuper boot.noSupers sb inRange
    { super with isup := some root, imount := some root } bh
  have noMaps : heldMaps boot.noSupers.supers = [] := by
    unfold heldMaps
    rw [List.flatMap_eq_nil_iff]
    intro other member
    unfold Super.references
    rw [if_pos (noSupers_dev (List.mem_range.mp member))]
  have isUsed : super.dev ≠ 0 := isDev ▸ notZero
  have references : ({ super with
      isup := some root, imount := some root } : Super).references =
        super.maps := Super.references_used isUsed
  rw [noMaps, Super.references_free (noSupers_dev inRange), references,
    List.count_nil, Nat.zero_add, Nat.add_zero] at same
  show (boot.buffers bh).count + _ = _
  rw [booted.buffer, Nat.zero_add]
  exact same.symm

theorem mountRoot_mounts (booted : Booted boot) (enough : 2 ≤ fuel) :
    Hoare .any Interrupts (fun kernel => kernel = boot) (mountRoot fuel rootDev)
      fun _ kernel => ∃ root, Mounts rootDev root kernel := by
  have space : HasSpace boot.noSupers 16 := by
    constructor
    · intro bh
      show (boot.buffers bh).count + 16 + 8 ≤ 255
      rw [booted.buffer]
      decide
    · intro slot
      show (boot.inodes slot).count + 8 ≤ 65535
      rw [booted.inode]
      decide
  have clears : Hoare .any Interrupts (fun kernel => kernel = boot)
      (Prog.modify Kernel.noSupers) fun _ => Walking boot.noSupers [] [] := by
    apply hoare_modify
    rintro kernel rfl
    refine ⟨Keeping.begin (booted.lists.congr
      (SameLists.elsewhere rfl rfl rfl rfl)), Tabled.refl _⟩
  apply hoare_bind clears
  intro _
  apply hoare_bind (readSuper_walks space fuel rootDev)
  rintro (_ | sb)
  · exact hoare_panic trivial
  · constructor
    intro kernel superRead
    cases superRead with
    | present notZero isFound walking =>
        have inRange := findSuper_inRange isFound
        rw [Nat.zero_add] at inRange
        have isDev := findSuper_dev isFound
        rw [noSupers_dev inRange] at isDev
        exact absurd isDev.symm notZero
    | filled notZero missing isFree filled =>
        obtain ⟨rfl, super, isDev, _, _, _, slotted⟩ := filled
        have inRange := findSuper_inRange isFree
        rw [Nat.zero_add] at inRange
        have plain (slot : Nat) : ¬(boot.inodes slot).mount = true := by
          rw [booted.inode]
          decide
        have grounded : Grounded ((boot.noSupers.setSuper sb super).holding
            super.maps) :=
          ⟨space.slot.room super.maps_length,
            fun slot isMount => absurd isMount (plain slot),
            fun slot isMount => absurd isMount (plain slot),
            fun slot isMount => absurd isMount (plain slot)⟩
        have takes := (@iget_once _ [] [] grounded (by decide) (by decide) fuel
          enough rootDev rootIno).hoare
        have ends : Hoare .any Interrupts
            (Slotted boot.noSupers sb super super.maps []) (do
              let mi ← iget fuel rootDev rootIno
              onInode mi fun inode => { inode with count := inode.count + 3 }
              onSuper sb fun super =>
                { super with isup := some mi, imount := some mi }
              printFree sb)
            fun _ kernel => ∃ root, Mounts rootDev root kernel := by
          refine hoare_bind (hoare_pre takes
            fun _ slotted => walking_holding.mpr slotted) ?_
          intro mi
          refine hoare_pre ?_ fun _ taken => walking_holding.mp taken.2
          constructor
          intro kernel slotted
          have done := booted.mounts notZero inRange isDev slotted
          rw [← Slotted.is slotted] at done
          have prints := @printFree_keeps
            (fun kernel => ∃ root, Mounts rootDev root kernel) sb
          exact prints.run _ ⟨mi, done⟩
        exact ends.run kernel slotted

end Start

/-! ## Sessions -/

/-- The states between the calls of a session.  `past` says whether the calls
may cross marks. -/
inductive MountSession (past : Prop) (fuel rootDev root : Nat) :
    Kernel → Prop where
  | start {boot kernel : Kernel} {free : Nat × Nat} {sb : Nat}
      (booted : Booted boot)
      (returns : (mountRoot fuel rootDev boot).MayReturn past Interrupts free
        kernel)
      (inRange : sb < nrSuper) (isDev : (kernel.supers sb).dev = rootDev)
      (isRoot : (kernel.supers sb).imount = some root) :
      MountSession past fuel rootDev root kernel
  | mount {kernel next : Kernel} {process : Process}
      {devName dirName : List UInt8} {result : Int}
      (earlier : MountSession past fuel rootDev root kernel)
      (rooted : process.Rooted root)
      (returns : (sysMount fuel process devName dirName kernel).MayReturn past
        Interrupts result next) :
      MountSession past fuel rootDev root next
  | umount {kernel next : Kernel} {process : Process} {devName : List UInt8}
      {result : Int} (earlier : MountSession past fuel rootDev root kernel)
      (rooted : process.Rooted root)
      (returns : (sysUmount fuel rootDev process devName kernel).MayReturn past
        Interrupts result next) :
      MountSession past fuel rootDev root next
  | lookUp {kernel next : Kernel} {process : Process} {pathname : List UInt8}
      (earlier : MountSession past fuel rootDev root kernel)
      (rooted : process.Rooted root)
      (returns : (Fs.lookUp fuel process pathname kernel).MayReturn past
        Interrupts () next) :
      MountSession past fuel rootDev root next

section Sessions

variable {fuel rootDev root : Nat} {kernel : Kernel}

/-- The records are in order all along. -/
theorem MountSession.mounts (enough : 2 ≤ fuel)
    (session : MountSession False fuel rootDev root kernel) :
    Mounts rootDev root kernel := by
  induction session with
  | start booted returns inRange isDev isRoot =>
      obtain ⟨found, mounts⟩ := returns.meets_uncrossed
        ((mountRoot_mounts booted enough).run _ rfl)
      have isFound := mounts.records.rootSuper _ inRange isDev
      obtain rfl := Option.some.inj (isRoot.symm.trans isFound)
      exact mounts
  | mount earlier rooted returns mounts =>
      exact (returns.meets_uncrossed
        ((sysMount_mounts mounts enough rooted _ _).run _ rfl)).1
  | umount earlier rooted returns mounts =>
      exact (returns.meets_uncrossed
        ((sysUmount_mounts mounts enough rooted _).run _ rfl)).1
  | lookUp earlier rooted returns mounts =>
      exact mounts.walked (returns.meets_uncrossed
        ((lookUp_mounts mounts enough rooted _).run _ mounts.begin))

/-- Everything is as before. -/
structure Restored (kernel final : Kernel) : Prop where
  inode : ∀ slot, (final.inodes slot).count = (kernel.inodes slot).count
  buffer : ∀ bh, (final.buffers bh).count = (kernel.buffers bh).count
  super : ∀ sb, sb < nrSuper →
    ((final.supers sb).dev = 0 ↔ (kernel.supers sb).dev = 0)

/-- The slot that has been taken is given up again, and the records and the
references follow from the slots in use. -/
theorem Mounts.restored {middle final : Kernel}
    (before : Mounts rootDev root kernel) (after : Mounts rootDev root final)
    (taken : OneMore kernel middle) (given : OneMore final middle)
    (same : ∀ sb, sb < nrSuper → (kernel.supers sb).dev = 0 →
      (middle.supers sb).dev ≠ 0 → (final.supers sb).dev = 0) :
    Restored kernel final := by
  obtain ⟨sb, inRange, wasFree, isUsed, others⟩ := taken
  obtain ⟨other, otherRange, isFree, _, rest⟩ := given
  have nowFree := same sb inRange wasFree isUsed
  have isSame : sb = other := by
    by_contra different
    have kept := congrArg Super.dev (rest sb different)
    exact isUsed (kept.trans nowFree)
  subst isSame
  have beside (index : Nat) (different : index ≠ sb) :
      final.supers index = kernel.supers index :=
    (rest index different).symm.trans (others index different)
  have covers (slot index : Nat) :
      Covers rootDev final slot index ↔ Covers rootDev kernel slot index := by
    unfold Covers
    by_cases here : index = sb
    · rw [here, wasFree, isFree, (before.records.unused sb inRange wasFree).2,
        (after.records.unused sb inRange isFree).2]
    · rw [beside index here]
  have mount (slot : Nat) :
      (final.inodes slot).mount = (kernel.inodes slot).mount := by
    rw [Bool.eq_iff_iff, after.records.mount, before.records.mount]
    simp only [covers]
  have references (index : Nat) :
      (final.supers index).references = (kernel.supers index).references := by
    by_cases here : index = sb
    · unfold Super.references
      rw [here, if_pos isFree, if_pos wasFree]
    · rw [beside index here]
  constructor
  · intro slot
    rw [after.records.count, before.records.count, mount]
  · intro bh
    rw [after.buffer, before.buffer]
    unfold heldMaps
    simp only [references]
  · intro index _
    by_cases here : index = sb
    · rw [here, isFree, wasFree]
    · rw [beside index here]

/-- What one task can rely on between two calls. -/
structure MountContract (past : Prop) (fuel rootDev root : Nat)
    (kernel : Kernel) : Prop where
  records : ∀ slot, (kernel.inodes slot).mount = true ↔
    ∃! sb, Covers rootDev kernel slot sb
  held : ∀ slot, (kernel.inodes slot).mount = true →
    1 ≤ (kernel.inodes slot).count ∧ (kernel.inodes slot).num ≠ rootIno
  iget : ∀ dev nr, (iget fuel dev nr kernel).Like Interrupts
    (fun _ _ => True) (igetOnce fuel dev nr kernel)
  namei : ∀ process pathname, process.Rooted root →
    (namei fuel process pathname kernel).Like Interrupts (fun _ _ => True)
      (nameiWith (igetOnce fuel) fuel process pathname kernel)
  restores : ∀ process devName dirName otherName mounted final,
    process.Rooted root →
    (sysMount fuel process devName dirName kernel).MayReturn past Interrupts 0
      mounted →
    (sysUmount fuel rootDev process otherName mounted).MayReturn past
      Interrupts 0 final →
    (∀ sb, sb < nrSuper → (kernel.supers sb).dev = 0 →
      (mounted.supers sb).dev ≠ 0 → (final.supers sb).dev = 0) →
    Restored kernel final

/-- In a session without marks the mount records are consistent. -/
theorem mountSession_consistent (enough : 2 ≤ fuel)
    (session : MountSession False fuel rootDev root kernel) :
    MountContract False fuel rootDev root kernel := by
  have mounts := session.mounts enough
  refine ⟨mounts.records.unique, ?_, ?_, ?_, ?_⟩
  · intro slot isMount
    exact ⟨Nat.pos_of_ne_zero (mounts.records.held isMount),
      mounts.records.num slot isMount⟩
  · intro dev nr
    have once := @iget_once kernel [] [] mounts.grounded (by decide)
      (by decide) fuel enough dev nr
    exact (once.run kernel mounts.begin).mono fun _ _ _ => trivial
  · intro process pathname rooted
    have once := @namei_once kernel [] mounts.grounded (by decide) fuel enough
      process (mounts.home rooted) pathname
    exact (once.run kernel mounts.begin).mono fun _ _ _ => trivial
  · intro process devName dirName otherName mounted final rooted first second
      same
    obtain ⟨between, taken⟩ := first.meets_uncrossed
      ((sysMount_mounts mounts enough rooted _ _).run _ rfl)
    obtain ⟨after, given⟩ := second.meets_uncrossed
      ((sysUmount_mounts between enough rooted _).run _ rfl)
    exact mounts.restored after (taken rfl) (given rfl) same

end Sessions

section Example

/-- The bytes of both hard disks that are not 0 or in a map: a superblock with
room for three inodes and eight zones, the root with the entries `d` and `m`,
where `d` stands for the second disk and `m` is a directory of `links` links
whose indirect block names itself. -/
def smallBytes (links : Nat) : List (Nat × Nat) :=
  [(1024, 3), (1026, 8), (1028, 1), (1030, 1), (1032, 5), (1040, 0x7F),
    (1041, 0x13), (4096, 0xED), (4097, 0x41), (4100, 32), (4109, 1),
    (4110, 5), (4128, 0xB0), (4129, 0x61), (4141, 1), (4142, 2), (4143, 3),
    (4160, 0xED), (4161, 0x41), (4173, links), (4188, 6), (5120, 2),
    (5122, 100), (5136, 3), (5138, 109), (6144, 6)]

def smallDisk (links position : Nat) : UInt8 :=
  match (smallBytes links).lookup position with
  | some byte => UInt8.ofNat byte
  | none => if 2048 ≤ position ∧ position < 4096 then 0xFF else 0

/-- A machine with ten buffers and both disks. -/
def smallBoot (links : Nat) : Kernel :=
  bufferInit 10 idleKernel.buffers
    { idleKernel with disk := fun _ => smallDisk links }

theorem smallBoot_booted (links : Nat) : Booted (smallBoot links) where
  lists := bufferInit_lists (by decide) _ _
  buffer := fun _ => rfl
  inode := fun _ => rfl
  super := fun _ => ⟨rfl, rfl⟩

def smallProcess : Process where
  euid := 0
  egid := 0
  umask := 0
  root := some 1
  pwd := some 1

/-- `d` is mounted on `m` and unmounted again; with the states before and
between. -/
def smallTrial : Sys (Int × Int × Kernel × Kernel) := do
  let _ ← mountRoot 3 769
  let kernel ← Prog.get
  let mounts ← sysMount 3 smallProcess [100] [109]
  let mounted ← Prog.get
  let umounts ← sysUmount 3 769 smallProcess [100]
  return (mounts, umounts, kernel, mounted)

/-- Both calls succeed, the second disk is not in use any more, and a buffer
is. -/
abbrev Leaks (kernel final : Kernel) : Prop :=
  (kernel.supers 0).dev = 769 ∧ (kernel.supers 0).imount = some 1 ∧
    (∀ sb, sb < nrSuper → (kernel.supers sb).dev = 0 →
      (final.supers sb).dev = 0) ∧
    (kernel.buffers 8).count = 0 ∧ (final.buffers 8).count = 2

theorem smallTrial_leaks :
    (((smallTrial (smallBoot 0)).play true (complete 3 true)).any
      fun ((mounts, umounts, kernel, _), final) =>
        mounts = 0 ∧ umounts = 0 ∧ Leaks kernel final) = true := by
  decide +kernel

/-- The disks answer every request. -/
theorem complete_answers (kernel : Kernel) :
    Interrupts kernel (complete 3 true kernel) :=
  (Device.complete kernel 3 true).interrupts

/-- `free_block` finds the block of `m` in use and keeps its reference. -/
theorem mountContract_broken :
    ∃ kernel, MountSession True 3 769 1 kernel ∧
      ¬MountContract True 3 769 1 kernel := by
  have isBoot := smallBoot_booted 0
  have leaks := smallTrial_leaks
  rw [Option.any_eq_true] at leaks
  obtain ⟨⟨⟨mounts, umounts, kernel, mounted⟩, final⟩, played, holds⟩ := leaks
  have returns := Run.mayReturn_play complete_answers played
  obtain ⟨mountsZero, umountsZero, isDev, isRoot, sameSlots, before, after⟩ :=
    of_decide_eq_true holds
  obtain ⟨free, state, first, returns⟩ := Run.mayReturn_bind returns
  obtain ⟨_, _, ⟨rfl, rfl⟩, returns⟩ := Run.mayReturn_bind returns
  obtain ⟨result, _, second, returns⟩ := Run.mayReturn_bind returns
  obtain ⟨_, _, ⟨rfl, rfl⟩, returns⟩ := Run.mayReturn_bind returns
  obtain ⟨other, _, third, isEnd, rfl⟩ := Run.mayReturn_bind returns
  cases isEnd
  have session : MountSession True 3 769 1 kernel :=
    .start isBoot (first.mono fun _ => trivial)
      (by decide) isDev isRoot
  refine ⟨kernel, session, fun contract => ?_⟩
  have restored := contract.restores smallProcess [100] [109] [100] mounted _
    ⟨rfl, rfl⟩ (mountsZero ▸ second.mono fun _ => trivial)
    (umountsZero ▸ third.mono fun _ => trivial)
    fun sb inRange wasFree _ => sameSlots sb inRange wasFree
  have same := restored.buffer 8
  rw [after, before] at same
  cases same

/-- With one link to `m` the device stays mounted, and no mark is crossed. -/
theorem smallTrial_mounts :
    (((do
        let _ ← mountRoot 3 769
        let kernel ← Prog.get
        let _ ← sysMount 3 smallProcess [100] [109]
        return kernel : Sys Kernel) (smallBoot 1)).play false
          (complete 3 true)).any (fun (kernel, final) =>
        (kernel.supers 0).dev = 769 ∧ (kernel.supers 0).imount = some 1 ∧
          (final.supers 1).imount = some 3) = true := by
  decide +kernel

theorem mountSession_consistent_mounted :
    ∃ kernel, (kernel.supers 1).imount = some 3 ∧
      MountContract False 3 769 1 kernel := by
  have mounts := smallTrial_mounts
  rw [Option.any_eq_true] at mounts
  obtain ⟨⟨kernel, final⟩, played, holds⟩ := mounts
  have returns := Run.mayReturn_play complete_answers played
  obtain ⟨isDev, isRoot, isMounted⟩ := of_decide_eq_true holds
  obtain ⟨free, state, first, returns⟩ := Run.mayReturn_bind returns
  obtain ⟨_, _, ⟨rfl, rfl⟩, returns⟩ := Run.mayReturn_bind returns
  obtain ⟨result, _, second, rfl, rfl⟩ := Run.mayReturn_bind returns
  have started : MountSession False 3 769 1 state :=
    .start (smallBoot_booted 1) (first.mono Bool.false_ne_true) (by decide)
      isDev isRoot
  exact ⟨_, isMounted, mountSession_consistent (by decide)
    (.mount started ⟨rfl, rfl⟩ (second.mono Bool.false_ne_true))⟩

end Example

end Linux011.Fs
