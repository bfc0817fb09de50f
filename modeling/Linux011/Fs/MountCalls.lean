import Linux011.Fs.MountRecords

/-!
# The calls that mount

Each of them, with whatever result, leaves the mount records in order.  Where
`sys_mount` succeeds one more superblock is in use, and where `sys_umount`
does, one less.
-/

namespace Linux011.Fs

open Coop Prog

/-- The task has not changed its directories. -/
def Process.Rooted (process : Process) (root : Nat) : Prop :=
  process.root = some root ∧ process.pwd = some root

/-- One slot is in use afterwards that was not before. -/
def OneMore (kernel next : Kernel) : Prop :=
  ∃ sb, sb < nrSuper ∧ (kernel.supers sb).dev = 0 ∧ (next.supers sb).dev ≠ 0 ∧
    ∀ other, other ≠ sb → next.supers other = kernel.supers other

theorem findSuper_inRange {supers : Nat → Super} {dev index count sb : Nat}
    (found : findSuper supers dev index count = some sb) :
    sb < index + count := by
  induction count generalizing index with
  | zero => cases found
  | succ count induction =>
      unfold findSuper at found
      split at found
      · obtain rfl := Option.some.inj found
        omega
      · have further := induction found
        omega

theorem findSuper_missing {supers : Nat → Super} {dev index count sb : Nat}
    (missing : findSuper supers dev index count = none)
    (from_ : index ≤ sb) (inRange : sb < index + count) :
    (supers sb).dev ≠ dev := by
  induction count generalizing index with
  | zero => omega
  | succ count induction =>
      unfold findSuper at missing
      split at missing <;> rename_i here
      · cases missing
      · rcases Nat.eq_or_lt_of_le from_ with same | later
        · rw [← same]
          exact here
        · exact induction missing later (by omega)

theorem findSuper_congr {supers others : Nat → Super} {dev index count : Nat}
    (same : ∀ sb, (others sb).dev = (supers sb).dev) :
    findSuper others dev index count = findSuper supers dev index count := by
  induction count generalizing index with
  | zero => rfl
  | succ count induction =>
      unfold findSuper
      rw [same, induction]

section Calls

variable {rootDev root fuel : Nat} {base : Kernel} {process : Process}

theorem Mounts.home (mounts : Mounts rootDev root base)
    (rooted : process.Rooted root) : AtHome base process := by
  intro index isStart
  have isRoot : index = root := by
    rcases isStart with isRoot | isPwd
    · exact Option.some.inj (isRoot.symm.trans rooted.1)
    · exact Option.some.inj (isPwd.symm.trans rooted.2)
  rw [isRoot]
  exact mounts.records.isPlain

theorem namei_mounts (mounts : Mounts rootDev root base) (enough : 2 ≤ fuel)
    (rooted : process.Rooted root) (pathname : List UInt8) :
    Hoare .any Interrupts (Walking base [] []) (namei fuel process pathname)
      (Found base []) :=
  (namei_once mounts.grounded (by decide) enough (mounts.home rooted)
    pathname).hoare

theorem put_mounts (mounts : Mounts rootDev root base) (index : Nat) :
    Hoare .any Interrupts (Walking base [] [index]) (iput fuel (some index))
      fun _ => Walking base [] [] :=
  iput_walks mounts.grounded (by decide) (by decide) fuel index

theorem lookUp_mounts (mounts : Mounts rootDev root base) (enough : 2 ≤ fuel)
    (rooted : process.Rooted root) (pathname : List UInt8) :
    Hoare .any Interrupts (Walking base [] []) (lookUp fuel process pathname)
      fun _ => Walking base [] [] := by
  apply hoare_bind (namei_mounts mounts enough rooted pathname)
  rintro (_ | index)
  · exact hoare_pure fun _ found => found.2
  · exact hoare_pre (put_mounts mounts index) fun _ found => found.2

theorem deviceNamed_mounts (mounts : Mounts rootDev root base)
    (enough : 2 ≤ fuel) (rooted : process.Rooted root) (devName : List UInt8)
    {notBlock : Int} (isError : notBlock ≠ 0) :
    Hoare .any Interrupts (Walking base [] [])
      (deviceNamed fuel process devName notBlock)
      fun found kernel =>
        (∀ errno, found = .error errno → errno ≠ 0) ∧
          Walking base [] [] kernel := by
  apply hoare_bind (namei_mounts mounts enough rooted devName)
  rintro (_ | index)
  · refine hoare_pure fun _ found => ⟨?_, found.2⟩
    rintro errno ⟨⟩
    decide
  · apply hoare_read
    intro kernel
    refine hoare_bind (hoare_pre (put_mounts mounts index)
      fun _ found => found.2) fun _ => ?_
    split
    · refine hoare_pure fun _ walking => ⟨?_, walking⟩
      rintro errno ⟨⟩
      exact neg_ne_zero.mpr isError
    · refine hoare_pure fun _ walking => ⟨?_, walking⟩
      rintro errno ⟨⟩

/-! ## Mounting -/

/-- What a call leaves behind that may take one more slot. -/
def MountedOn (rootDev root : Nat) (base : Kernel) (result : Int)
    (kernel : Kernel) : Prop :=
  Mounts rootDev root kernel ∧ (result = 0 → OneMore base kernel)

theorem refuse_mounts {first : Kernel} (mounts : Mounts rootDev root base)
    (dir : Nat) {errno : Int} (isError : errno ≠ 0) :
    Hoare .any Interrupts (Walking base [] [dir])
      (do
        iput fuel (some dir)
        return -errno : Sys Int)
      (MountedOn rootDev root first) := by
  apply hoare_bind (put_mounts mounts dir)
  intro _
  refine hoare_pure fun _ walking => ⟨mounts.walked walking, ?_⟩
  exact fun isZero => absurd isZero (neg_ne_zero.mpr isError)

/-- A slot that has been given up counts as unused. -/
theorem Mounts.givenUp (mounts : Mounts rootDev root base) {sb : Nat}
    (inRange : sb < nrSuper) (isFree : (base.supers sb).dev = 0)
    {super : Super} (dev : super.dev = 0) (isup : super.isup = none)
    (imount : super.imount = none) :
    Mounts rootDev root (base.setSuper sb super) where
  lists := mounts.lists.congr (SameLists.elsewhere rfl rfl rfl rfl :
    SameLists base (base.setSuper sb super))
  buffer := by
    intro bh
    have counts := @heldMaps_setSuper base sb inRange super bh
    rw [Super.references_free isFree, Super.references_free dev,
      Nat.add_left_cancel_iff] at counts
    exact (mounts.buffer bh).trans counts.symm
  records := mounts.records.spare inRange isFree dev isup imount

/-- Every superblock in use is mounted somewhere. -/
theorem Records.isMounted {kernel : Kernel}
    (records : Records rootDev root kernel) {sb : Nat}
    (inRange : sb < nrSuper) (isUsed : (kernel.supers sb).dev ≠ 0) :
    (kernel.supers sb).imount ≠ none := by
  by_cases isRoot : (kernel.supers sb).dev = rootDev
  · rw [records.rootSuper sb inRange isRoot]
    exact Option.some_ne_none root
  · obtain ⟨_, slot, _, _, isCovered⟩ :=
      records.used sb inRange isUsed isRoot
    rw [isCovered]
    exact Option.some_ne_none slot

/-- `read_super` lets the inodes in use alone. -/
theorem SuperRead.num {dev slot : Nat} {inodes : List Nat} {found : Option Nat}
    {kernel : Kernel} (superRead : SuperRead base dev inodes found kernel)
    (isUsed : (base.inodes slot).count ≠ 0) :
    (kernel.inodes slot).num = (base.inodes slot).num := by
  cases superRead with
  | failed walking => exact walking.tabled.num slot isUsed
  | present notZero isFound walking => exact walking.tabled.num slot isUsed
  | filled notZero missing isFree filled =>
      cases found with
      | none =>
          obtain ⟨_, _, _, _, slotted⟩ := filled
          exact slotted.tabled.num slot isUsed
      | some found =>
          obtain ⟨_, _, _, _, _, _, slotted⟩ := filled
          exact slotted.tabled.num slot isUsed

/-- The end of `sys_mount`, where it succeeds. -/
theorem mounts_on (mounts : Mounts rootDev root base) {dev sb dir : Nat}
    {super : Super} {kernel : Kernel} (notZero : dev ≠ 0)
    (missing : findSuper base.supers dev 0 nrSuper = none)
    (isFree : findSuper base.supers 0 0 nrSuper = some sb)
    (isDev : super.dev = dev) (isup : super.isup = none)
    (slotted : Slotted base sb super super.maps [dir] kernel)
    (wasUnused : (base.inodes dir).count = 0)
    (num : (kernel.inodes dir).num ≠ rootIno) :
    MountedOn rootDev root base 0
      ((kernel.setSuper sb { super with imount := some dir }).setInode dir
        { kernel.inodes dir with mount := true, dirt := true }) := by
  have inRange : sb < nrSuper := by
    have bound := findSuper_inRange isFree
    rwa [Nat.zero_add] at bound
  have wasFree := findSuper_dev isFree
  have one : (kernel.inodes dir).count = 1 := by
    rw [slotted.holding.inode, List.count_singleton_self]
    show (base.inodes dir).count + 1 = 1
    rw [wasUnused]
  have notDev (other : Nat) (otherRange : other < nrSuper) :
      (base.supers other).dev ≠ super.dev := by
    rw [isDev]
    exact findSuper_missing missing (Nat.zero_le other)
      (by rw [Nat.zero_add]; exact otherRange)
  have isUsed : super.dev ≠ 0 := isDev ▸ notZero
  have records : Records rootDev root (Records.changed base sb dir
      { super with imount := some dir }
      { kernel.inodes dir with mount := true, dirt := true }) :=
    mounts.records.mounted inRange wasFree notDev isUsed isup rfl wasUnused one
      rfl num
  refine ⟨records.settled slotted.changed ?_,
    fun _ => ⟨sb, inRange, wasFree, ?_, ?_⟩⟩
  · intro bh
    have counts := @heldMaps_setSuper base sb inRange
      { super with imount := some dir } bh
    have references : ({ super with imount := some dir } : Super).references =
        super.maps := Super.references_used isUsed
    rw [Super.references_free wasFree, references, List.count_nil,
      Nat.zero_add] at counts
    show (base.buffers bh).count + _ = _
    rw [mounts.buffer, Nat.add_comm]
    exact counts.symm
  · show ((if sb = sb then { super with imount := some dir }
      else kernel.supers sb) : Super).dev ≠ 0
    rw [if_pos rfl]
    exact isUsed
  · intro other different
    show (if other = sb then _ else kernel.supers other) = _
    rw [if_neg different, slotted.tabled.supers]
    exact if_neg different

theorem mountDevice_mounts (mounts : Mounts rootDev root base)
    (enough : 2 ≤ fuel) (rooted : process.Rooted root) (dev : Nat)
    (dirName : List UInt8) :
    Hoare .any Interrupts (fun kernel => kernel = base)
      (mountDevice fuel process dev dirName)
      (MountedOn rootDev root base) := by
  have finds : Hoare .any Interrupts (fun kernel => kernel = base)
      (namei fuel process dirName) (Found base []) := by
    refine hoare_pre (namei_mounts mounts enough rooted dirName) ?_
    rintro kernel rfl
    exact mounts.begin
  apply hoare_bind finds
  rintro (_ | dir)
  · refine hoare_pure fun _ found => ⟨mounts.walked found.2, ?_⟩
    exact fun isZero => absurd isZero (by decide)
  · have refuses {errno : Int} (isError : errno ≠ 0) :=
      @refuse_mounts rootDev root fuel base base mounts dir errno isError
    apply hoare_get
    rintro kernel ⟨unmounted, walking⟩
    have wasPlain : (base.inodes dir).mount = false := unmounted dir rfl
    have count := walking.holding.inode dir
    rw [show (some dir).toList ++ [] = [dir] from rfl,
      List.count_singleton_self] at count
    split <;> rename_i single
    · exact hoare_at walking (refuses (by decide))
    split
    · exact hoare_at walking (refuses (by decide))
    rw [not_or, not_not] at single
    obtain ⟨one, num⟩ := single
    have wasUnused : (base.inodes dir).count = 0 := by omega
    have space : HasSpace kernel 16 := by
      constructor
      · intro bh
        rw [walking.holding.buffer]
        exact mounts.space.buffer bh
      · intro slot
        have most : ((some dir).toList ++ []).count slot ≤ 1 :=
          List.count_le_length
        have small := mounts.records.small slot
        rw [walking.holding.inode]
        omega
    have own : Walking kernel [] [] kernel :=
      ⟨Keeping.begin walking.holding.lists, Tabled.refl kernel⟩
    apply hoare_bind (hoare_and
      (hoare_at walking (readSuper_walks mounts.space fuel dev))
      (hoare_at own (readSuper_walks space fuel dev)))
    rintro (_ | sb)
    · constructor
      rintro state ⟨superRead, _⟩
      cases superRead with
      | failed walking => exact (refuses (by decide)).run state walking
      | filled notZero missing isFree filled =>
          obtain ⟨super, dev, isup, imount, slotted⟩ := filled
          have inRange := findSuper_inRange isFree
          rw [Nat.zero_add] at inRange
          have givenUp := mounts.givenUp inRange (findSuper_dev isFree) dev isup
            imount
          exact (refuse_mounts givenUp dir (by decide)).run state slotted
    · apply hoare_get
      rintro state ⟨superRead, again⟩
      have sameNum := again.num (show (kernel.inodes dir).count ≠ 0 by omega)
      cases superRead with
      | present notZero isFound walking =>
          have inRange := findSuper_inRange isFound
          rw [Nat.zero_add] at inRange
          have isMounted : (state.supers sb).imount ≠ none := by
            rw [walking.tabled.supers]
            apply mounts.records.isMounted inRange
            rw [findSuper_dev isFound]
            exact notZero
          rw [if_pos isMounted]
          exact hoare_at walking (refuses (by decide))
      | filled notZero missing isFree filled =>
          obtain ⟨rfl, super, isDev, isup, imount, _, slotted⟩ := filled
          have notMounted : ¬(state.supers sb).imount ≠ none := by
            rw [slotted.is, imount]
            exact not_not.mpr rfl
          have isPlain : ¬(state.inodes dir).mount = true := by
            rw [slotted.tabled.mount]
            show ¬(base.inodes dir).mount = true
            rw [wasPlain]
            decide
          rw [if_neg notMounted, if_neg isPlain]
          constructor
          rintro current rfl
          have stillNum : (current.inodes dir).num ≠ rootIno := by
            rw [sameNum]
            exact num
          have done := mounts_on mounts notZero missing isFree isDev isup slotted
            wasUnused stillNum
          rw [← Slotted.is slotted] at done
          exact done

/-! ## Unmounting -/

/-- What a call leaves behind that may take one slot less. -/
def UnmountedFrom (rootDev root : Nat) (base : Kernel) (result : Int)
    (kernel : Kernel) : Prop :=
  Mounts rootDev root kernel ∧ (result = 0 → OneMore kernel base)

/-- The slot once its device is mounted no more. -/
def Super.retired (super : Super) : Super :=
  { super with imount := none, isup := none, dev := 0, lock := false }

/-- The tables when `sys_umount` is done, with the old superblock. -/
def Kernel.uncover (kernel : Kernel) (sb covered : Nat) : Kernel :=
  let rest := heldMaps (kernel.setSuper sb (kernel.supers sb).retired).supers
  { kernel with
    buffers := fun bh => { kernel.buffers bh with count := rest.count bh }
    inodes := fun slot =>
      if slot = covered then
        { kernel.inodes covered with mount := false, count := 0 }
      else kernel.inodes slot }

section Uncover

variable {sb covered : Nat}

theorem uncover_covered :
    (base.uncover sb covered).inodes covered =
      { base.inodes covered with mount := false, count := 0 } := if_pos rfl

theorem uncover_inode {slot : Nat} (different : slot ≠ covered) :
    (base.uncover sb covered).inodes slot = base.inodes slot :=
  if_neg different

/-- The references of the old superblock are still held. -/
theorem uncover_buffer (mounts : Mounts rootDev root base)
    (inRange : sb < nrSuper) (isUsed : (base.supers sb).dev ≠ 0) (bh : Nat) :
    (base.buffers bh).count = ((base.uncover sb covered).buffers bh).count +
      (base.supers sb).maps.count bh := by
  have counts := @heldMaps_setSuper base sb inRange (base.supers sb).retired bh
  have retired : (base.supers sb).retired.dev = 0 := rfl
  rw [Super.references_used isUsed, Super.references_free retired,
    List.count_nil, Nat.zero_add] at counts
  rw [mounts.buffer, ← counts, Nat.add_comm]
  rfl

theorem uncover_space (mounts : Mounts rootDev root base)
    (inRange : sb < nrSuper) (isUsed : (base.supers sb).dev ≠ 0) :
    HasSpace (base.uncover sb covered) 16 where
  buffer := by
    intro bh
    have count := @uncover_buffer rootDev root base sb covered mounts inRange
      isUsed bh
    have bound := mounts.space.buffer bh
    omega
  inode := by
    intro slot
    have bound := mounts.space.inode slot
    by_cases here : slot = covered
    · rw [here, uncover_covered]
      exact (by decide : 0 + 8 ≤ 65535)
    · rw [uncover_inode here]
      exact bound

theorem uncover_begins (mounts : Mounts rootDev root base)
    (covers : Covers rootDev base covered sb)
    (isUsed : (base.supers sb).dev ≠ 0) :
    Slotted (base.uncover sb covered) sb (base.supers sb) (base.supers sb).maps
      [covered] (base.setInode covered
        { base.inodes covered with mount := false }) := by
  have isMount := (mounts.records.mount covered).mpr ⟨sb, covers⟩
  have one := mounts.records.count covered
  rw [isMount, if_neg (mounts.records.notRoot isMount)] at one
  refine ⟨⟨rfl, mounts.lists.congr (SameLists.elsewhere rfl rfl rfl rfl :
    SameLists base (base.setInode covered _)), ?_, ?_⟩, ?_, ?_, ?_⟩
  · exact fun bh => @uncover_buffer rootDev root base sb covered mounts
      covers.1 isUsed bh
  · intro slot
    by_cases here : slot = covered
    · subst here
      rw [List.count_singleton_self]
      simpa [Kernel.setInode, Kernel.setSuper, Kernel.uncover] using one
    · rw [List.count_singleton, if_neg (by simpa using Ne.symm here)]
      simp [Kernel.setInode, Kernel.setSuper, Kernel.uncover, here]
  · funext other
    show base.supers other = if other = sb then base.supers sb else base.supers other
    split <;> rename_i here
    · rw [here]
    · rfl
  · intro slot
    by_cases here : slot = covered
    · simp [Kernel.setInode, Kernel.setSuper, Kernel.uncover, here]
    · simp [Kernel.setInode, Kernel.setSuper, Kernel.uncover, here]
  · intro slot _
    by_cases here : slot = covered
    · simp [Kernel.setInode, Kernel.setSuper, Kernel.uncover, here]
    · simp [Kernel.setInode, Kernel.setSuper, Kernel.uncover, here]

/-- The other mount points still have their superblocks. -/
theorem uncover_grounded (mounts : Mounts rootDev root base)
    (inRange : sb < nrSuper) (isUsed : (base.supers sb).dev ≠ 0) :
    Grounded (((base.uncover sb covered).setSuper sb (base.supers sb)).holding
      (base.supers sb).maps) := by
  have other {slot : Nat}
      (isMount : ((base.uncover sb covered).inodes slot).mount = true) :
      slot ≠ covered ∧ (base.inodes slot).mount = true := by
    have different : slot ≠ covered := by
      rintro rfl
      rw [uncover_covered] at isMount
      cases isMount
    rw [uncover_inode different] at isMount
    exact ⟨different, isMount⟩
  constructor
  · exact (uncover_space mounts inRange isUsed).slot.room
      (base.supers sb).maps_length
  · intro slot isMount
    obtain ⟨different, wasMount⟩ := other isMount
    show ((base.uncover sb covered).inodes slot).count ≠ 0
    rw [uncover_inode different]
    exact mounts.records.held wasMount
  · intro slot isMount
    obtain ⟨different, wasMount⟩ := other isMount
    show ((base.uncover sb covered).inodes slot).num ≠ rootIno
    rw [uncover_inode different]
    exact mounts.records.num slot wasMount
  · intro slot isMount
    obtain ⟨_, wasMount⟩ := other isMount
    obtain ⟨found, isFound⟩ := mounts.grounded.super slot wasMount
    refine ⟨found, ?_⟩
    rw [← isFound]
    apply findMount_congr
    funext index
    show (if index = sb then base.supers sb else base.supers index) = _
    split <;> rename_i here
    · rw [here]
    · rfl

end Uncover

/-- `sys_umount` from where nothing can go wrong any more. -/
theorem unmounts (mounts : Mounts rootDev root base) {dev sb covered : Nat}
    (notRoot : dev ≠ rootDev) (notZero : dev ≠ 0)
    (found : findSuper base.supers dev 0 nrSuper = some sb)
    (isCovered : (base.supers sb).imount = some covered) :
    Hoare .any Interrupts (fun kernel => kernel = base) (do
        onInode covered fun inode => { inode with mount := false }
        iput fuel (some covered)
        onSuper sb fun super => { super with imount := none }
        let kernel ← Prog.get
        iput fuel (kernel.supers sb).isup
        onSuper sb fun super => { super with isup := none }
        putSuper fuel rootDev dev
        (syncDev fuel dev).unmarked
        return 0 : Sys Int)
      (UnmountedFrom rootDev root base) := by
  have inRange : sb < nrSuper := by
    have bound := findSuper_inRange found
    rwa [Nat.zero_add] at bound
  have isDev := findSuper_dev found
  have isUsed : (base.supers sb).dev ≠ 0 := by
    rw [isDev]
    exact notZero
  have covers : Covers rootDev base covered sb :=
    ⟨inRange, by rw [isDev]; exact notRoot, isCovered⟩
  have noIsup := (mounts.records.used sb inRange isUsed covers.2.1).1
  have space := @uncover_space rootDev root base sb covered mounts inRange isUsed
  have clears : Hoare .any Interrupts (fun kernel => kernel = base)
      (onInode covered fun inode => { inode with mount := false })
      fun _ => Slotted (base.uncover sb covered) sb (base.supers sb)
        (base.supers sb).maps [covered] := by
    apply hoare_modify
    rintro kernel rfl
    exact uncover_begins mounts covers isUsed
  apply hoare_bind clears
  intro _
  apply hoare_bind (iput_maps (uncover_grounded mounts inRange isUsed)
    (by decide) fuel covered)
  intro _
  apply hoare_bind (onSuper_slotted _)
  intro _
  apply hoare_get
  intro kernel slotted
  have noRoot : (kernel.supers sb).isup = none := by
    rw [slotted.is]
    exact noIsup
  rw [noRoot]
  apply hoare_at slotted
  have nothing : Hoare .any Interrupts
      (Slotted (base.uncover sb covered) sb
        { base.supers sb with imount := none } (base.supers sb).maps [])
      (iput fuel none)
      fun _ => Slotted (base.uncover sb covered) sb
        { base.supers sb with imount := none } (base.supers sb).maps [] :=
    hoare_pure fun _ slotted => slotted
  apply hoare_bind nothing
  intro _
  apply hoare_bind (onSuper_slotted _)
  intro _
  have stillFound : findSuper ((base.uncover sb covered).setSuper sb
      { base.supers sb with imount := none, isup := none }).supers dev 0
        nrSuper = some sb := by
    rw [← found]
    apply findSuper_congr
    intro other
    show (if other = sb then _ else base.supers other : Super).dev = _
    split <;> rename_i here
    · rw [here]
    · rfl
  apply hoare_bind (putSuper_walks space notRoot notZero stillFound rfl)
  intro _
  have room : HasRoom ((base.uncover sb covered).setSuper sb
      (base.supers sb).retired) := (HasSpace.slot space).bare
  have syncs := @syncDev_returns _ [] [] .any releasing_any room (by decide)
    fuel dev
  apply hoare_bind (walks syncs (unmarked_anchored (syncDev_within _ _)))
  intro _
  refine hoare_pure ?_
  intro kernel slotted
  have changed : Records rootDev root (Records.changed base sb covered
      (base.supers sb).retired
      { base.inodes covered with mount := false, count := 0 }) :=
    mounts.records.unmounted covers rfl rfl rfl rfl rfl
  have records : Records rootDev root ((base.uncover sb covered).setSuper sb
      (base.supers sb).retired) :=
    changed.congr rfl (fun _ => rfl) (fun _ => rfl) fun _ _ => rfl
  refine ⟨records.settled slotted fun _ => rfl, fun _ => ⟨sb, inRange, ?_,
    isUsed, ?_⟩⟩
  · rw [Slotted.is slotted]
    rfl
  · intro other different
    rw [slotted.tabled.supers]
    exact (if_neg different).symm

theorem umountDevice_mounts (mounts : Mounts rootDev root base) (dev : Nat) :
    Hoare .any Interrupts (fun kernel => kernel = base)
      (umountDevice fuel rootDev dev) (UnmountedFrom rootDev root base) := by
  have fails {kernel : Kernel} (mounts : Mounts rootDev root kernel)
      {errno : Int} (isError : errno ≠ 0) :
      Hoare .any Interrupts (fun current => current = kernel)
        (pure (-errno) : Sys Int) (UnmountedFrom rootDev root base) := by
    apply hoare_pure
    rintro current rfl
    exact ⟨mounts, fun isZero => absurd isZero (neg_ne_zero.mpr isError)⟩
  unfold umountDevice
  split <;> rename_i isRoot
  · exact fails mounts (by decide)
  have finds : Hoare .any Interrupts (fun kernel => kernel = base)
      (getSuper dev fuel) fun found kernel =>
        (found = if dev = 0 then none else
          findSuper base.supers dev 0 nrSuper) ∧ Walking base [] [] kernel := by
    refine hoare_pre (getSuper_walks dev fuel) ?_
    rintro kernel rfl
    exact mounts.begin
  apply hoare_bind finds
  rintro (_ | sb)
  · refine hoare_pure ?_
    rintro kernel ⟨_, walking⟩
    exact ⟨mounts.walked walking, fun isZero => absurd isZero (by decide)⟩
  · apply hoare_get
    rintro kernel ⟨isFound, walking⟩
    have later := mounts.walked walking
    have notZero : dev ≠ 0 := by
      rintro rfl
      cases isFound
    rw [if_neg notZero, ← walking.tabled.supers] at isFound
    cases isCovered : (kernel.supers sb).imount with
    | none => exact fails later (by decide)
    | some covered =>
        dsimp only
        split
        · exact fails later (by decide)
        · refine hoare_post (unmounts later isRoot notZero isFound.symm isCovered)
            ?_
          intro result next done
          unfold UnmountedFrom OneMore at done ⊢
          rw [walking.tabled.supers] at done
          exact done

/-! ## The system calls -/

theorem sysMount_mounts (mounts : Mounts rootDev root base) (enough : 2 ≤ fuel)
    (rooted : process.Rooted root) (devName dirName : List UInt8) :
    Hoare .any Interrupts (fun kernel => kernel = base)
      (sysMount fuel process devName dirName)
      (MountedOn rootDev root base) := by
  apply hoare_bind (hoare_at mounts.begin
    (deviceNamed_mounts mounts enough rooted devName (by decide)))
  rintro (errno | dev)
  · refine hoare_pure ?_
    rintro kernel ⟨isError, walking⟩
    exact ⟨mounts.walked walking,
      fun isZero => absurd isZero (isError errno rfl)⟩
  · constructor
    rintro kernel ⟨_, walking⟩
    have later := mountDevice_mounts (mounts.walked walking) enough rooted dev
      dirName
    refine wp_mono (later.run kernel rfl) ?_
    intro result next done
    unfold MountedOn OneMore at done ⊢
    rw [walking.tabled.supers] at done
    exact done

theorem sysUmount_mounts (mounts : Mounts rootDev root base) (enough : 2 ≤ fuel)
    (rooted : process.Rooted root) (devName : List UInt8) :
    Hoare .any Interrupts (fun kernel => kernel = base)
      (sysUmount fuel rootDev process devName)
      (UnmountedFrom rootDev root base) := by
  apply hoare_bind (hoare_at mounts.begin
    (deviceNamed_mounts mounts enough rooted devName (by decide)))
  rintro (errno | dev)
  · refine hoare_pure ?_
    rintro kernel ⟨isError, walking⟩
    exact ⟨mounts.walked walking,
      fun isZero => absurd isZero (isError errno rfl)⟩
  · constructor
    rintro kernel ⟨_, walking⟩
    have later := @umountDevice_mounts rootDev root fuel kernel
      (mounts.walked walking) dev
    refine wp_mono (later.run kernel rfl) ?_
    intro result next done
    unfold UnmountedFrom OneMore at done ⊢
    rw [walking.tabled.supers] at done
    exact done

end Calls

end Linux011.Fs
