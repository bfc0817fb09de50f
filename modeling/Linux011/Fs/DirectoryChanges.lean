import Linux011.Fs.DirectorySearch

/-!
# Changing a directory

Storing an entry, allocating the blocks of directories and directories
themselves, and removing an entry.
-/

namespace Linux011.Fs

section Change

variable {users : Users} {task : Nat} {next : Tree}

/-! ## `add_entry` -/

section Store

variable {tree : Tree} {call : Call} {number block zone index : Nat}

theorem store_zone (tree : Tree) (call : Call)
    (number block zone index dir other : Nat) :
    ((tree.store call number block zone index).dirs dir).zone other =
      (tree.dirs dir).zone other := by
  unfold Tree.store
  split <;> simp only [Tree.setKnown, Tree.setData, Tree.setDir] <;>
    split_ifs <;> simp_all

theorem store_entries (tree : Tree) (call : Call)
    (number block zone index dir : Nat) :
    ((tree.store call number block zone index).dirs dir).entries =
      if dir = call.dir ∧
          (tree.dirs dir).entries ≤ block * dirEntriesPerBlock + index then
        block * dirEntriesPerBlock + index + 1
      else (tree.dirs dir).entries := by
  unfold Tree.store
  split <;> simp only [Tree.setKnown, Tree.setData, Tree.setDir] <;>
    by_cases isDir : dir = call.dir <;> simp [isDir]

theorem store_data (tree : Tree) (call : Call)
    (number block zone index other cell : Nat) :
    (tree.store call number block zone index).data other cell =
      if other = zone ∧ cell = index then .named number call.wanted
      else tree.data other cell := by
  unfold Tree.store
  split <;> simp only [Tree.setKnown, Tree.setData, Tree.setDir] <;>
    by_cases isZone : other = zone <;> by_cases isCell : cell = index <;>
      simp [isZone, isCell]

theorem store_zoneOf (tree : Tree) (call : Call)
    (number block zone index dir slot : Nat) :
    (tree.store call number block zone index).zoneOf dir slot =
      tree.zoneOf dir slot :=
  store_zone _ _ _ _ _ _ _ _

theorem store_maps (tree : Tree) (call : Call)
    (number block zone index : Nat) :
    (tree.store call number block zone index).allocated = tree.allocated ∧
      (tree.store call number block zone index).taken = tree.taken ∧
      (tree.store call number block zone index).covers = tree.covers := by
  unfold Tree.store
  dsimp only
  split <;> exact ⟨rfl, rfl, rfl⟩

theorem store_known (tree : Tree) (call : Call)
    (number block zone index dir : Nat) :
    (tree.store call number block zone index).known dir =
      if call.kind = .mkdir ∧ dir = number then true else tree.known dir := by
  unfold Tree.store
  by_cases isMkdir : call.kind = .mkdir <;>
    simp [isMkdir, Tree.setKnown, Tree.setData, Tree.setDir]

theorem firstFree_some {dir : Nat}
    (found : tree.firstFree dir block zone = some index) :
    index < dirEntriesPerBlock ∧ ∀ earlier, earlier < index →
      block * dirEntriesPerBlock + earlier < (tree.dirs dir).entries := by
  obtain ⟨_, inBlock, none⟩ := List.find?_range_eq_some.mp found
  refine ⟨List.mem_range.mp inBlock, ?_⟩
  intro earlier isEarlier
  have passed := none earlier isEarlier
  simp only [Bool.not_eq_true', Bool.or_eq_false_iff, decide_eq_false_iff_not]
    at passed
  omega

theorem slot_parts {slot : Nat} (inBlock : index < dirEntriesPerBlock) :
    slot = block * dirEntriesPerBlock + index ↔
      slot / dirEntriesPerBlock = block ∧ slot % dirEntriesPerBlock = index := by
  unfold dirEntriesPerBlock at *
  omega

/-- What is in the directories after the entry is stored was there before, but
for the entry. -/
theorem store_named (adding : tree.Adding call number block)
    (inBlock : tree.InBlock call.dir block zone)
    (overtaken : tree.Overtaken call.dir block zone)
    (found : tree.firstFree call.dir block zone = some index)
    {dir slot : Nat} {name : List UInt8}
    (named : (tree.store call number block zone index).Named dir slot name) :
    tree.Named dir slot name ∨
      dir = call.dir ∧ slot = block * dirEntriesPerBlock + index ∧
        name = call.wanted ∧ tree.zoneOf dir slot = zone := by
  obtain ⟨inRange, earlier⟩ := firstFree_some found
  obtain ⟨inSize, isBlock, isLive, text⟩ := named
  rw [store_zone] at isBlock isLive text
  rw [store_data] at isLive text
  rw [store_entries] at inSize
  by_cases isStored : (tree.dirs dir).zone (slot / dirEntriesPerBlock) = zone ∧
      slot % dirEntriesPerBlock = index
  · right
    obtain ⟨rfl, sameBlock⟩ := inBlock.sole _ _ isStored.1
    rw [if_pos isStored, DirEntry.text_named adding.proper.wanted] at text
    exact ⟨rfl, (slot_parts inRange).mpr ⟨sameBlock, isStored.2⟩, text.symm,
      isStored.1⟩
  · left
    rw [if_neg isStored] at isLive text
    refine ⟨?_, isBlock, isLive, text⟩
    split at inSize <;> rename_i extends_
    · obtain ⟨rfl, behind⟩ := extends_
      by_contra outside
      have reached := adding.reached
      have sameBlock : slot / dirEntriesPerBlock = block := by
        unfold dirEntriesPerBlock at *
        omega
      rcases overtaken with isZone | nothing
      · apply isStored
        refine ⟨by rw [sameBlock, isZone], ?_⟩
        by_contra other
        have before : slot % dirEntriesPerBlock < index := by
          unfold dirEntriesPerBlock at *
          omega
        have used := earlier _ before
        unfold dirEntriesPerBlock at *
        omega
      · exact nothing slot sameBlock (by omega) ⟨isBlock, isLive⟩
    · exact inSize

theorem store_overtaken (inRange : index < dirEntriesPerBlock)
    (inBlock : tree.InBlock call.dir block zone) {dir other own : Nat}
    (overtaken : tree.Overtaken dir other own) :
    (tree.store call number block zone index).Overtaken dir other own := by
  rcases overtaken with isZone | nothing
  · left
    rw [store_zone]
    exact isZone
  · right
    intro slot sameBlock behind occupied
    obtain ⟨isBlock, isLive⟩ := occupied
    rw [store_zoneOf] at isBlock isLive
    rw [store_data] at isLive
    rw [store_entries] at behind
    by_cases isStored : tree.zoneOf dir slot = zone ∧
        slot % dirEntriesPerBlock = index
    · obtain ⟨rfl, here⟩ := inBlock.sole _ _ isStored.1
      have isSlot := (slot_parts inRange).mpr ⟨here, isStored.2⟩
      split at behind <;> omega
    · rw [if_neg isStored] at isLive
      refine nothing slot sameBlock ?_ ⟨isBlock, isLive⟩
      split at behind <;> omega

end Store

/-- No other task that is to add the name misses the slot, and an entry `..`
is not stored where there is one. -/
structure Users.Stores (users : Users) (task : Nat) (call : Call)
    (slot zone : Nat) : Prop where
  notDotDot : call.wanted = dotDotName →
    ∀ other, ¬users.tree.Named call.dir other dotDotName
  seen : ∀ other, other ≠ task →
    ¬(users.tasks other).misses call.dir call.wanted slot zone

section StoreStep

variable {call : Call} {number block zone index : Nat}

theorem store_bears (sound : users.Sound)
    (isLoading : users.tasks task = .loading call number block zone)
    (found : users.tree.firstFree call.dir block zone = some index)
    (stores :
      users.Stores task call (block * dirEntriesPerBlock + index) zone)
    {other : Nat} (isOther : other ≠ task) :
    Bears users.tree (users.tree.store call number block zone index)
      (users.tasks other) := by
  have isOk := sound.phases task
  have apart := sound.apart task other (Ne.symm isOther)
  rw [isLoading] at isOk apart
  obtain ⟨adding, inBlock, overtaken⟩ := isOk
  obtain ⟨allocated, taken, _⟩ :=
    store_maps users.tree call number block zone index
  have inRange := (firstFree_some found).1
  constructor
  case known =>
    intro dir known
    rw [store_known]
    split
    · rfl
    · exact known
  case entries =>
    intro dir _
    rw [store_entries]
    split <;> omega
  case hasFirst => exact fun dir _ => by rw [store_zone]
  case making =>
    intro own builds making
    refine ⟨taken ▸ making.taken, ?_⟩
    rw [store_known, if_neg]
    · exact making.unknown
    · rintro ⟨isMkdir, rfl⟩
      exact apart.number own (if_pos isMkdir) builds
  case vacant =>
    intro own _ vacant other
    rw [store_zone]
    exact vacant other
  case allocated => exact fun own _ isAllocated => allocated ▸ isAllocated
  case zones =>
    intro own _ _ _ dir other same
    rw [store_zone] at same
    exact same
  case overtaken =>
    intro dir other own _ overtaken
    exact store_overtaken inRange inBlock overtaken
  case named =>
    intro dir slot name _ _ misses named
    rw [store_zoneOf] at misses ⊢
    rcases store_named adding inBlock overtaken found named with
      before | ⟨rfl, rfl, rfl, isZone⟩
    · exact ⟨before, rfl⟩
    · rw [isZone] at misses
      exact (stores.seen other isOther misses).elim

theorem store_shape (sound : users.Sound)
    (isLoading : users.tasks task = .loading call number block zone)
    (found : users.tree.firstFree call.dir block zone = some index)
    (stores :
      users.Stores task call (block * dirEntriesPerBlock + index) zone) :
    (users.tree.store call number block zone index).Shape := by
  have isOk := sound.phases task
  have unmissed := sound.unmissed task
  have shape := sound.shape
  rw [isLoading] at isOk unmissed
  obtain ⟨adding, inBlock, overtaken⟩ := isOk
  obtain ⟨allocated, taken, covers⟩ :=
    store_maps users.tree call number block zone index
  have fresh (slot : Nat) : ¬users.tree.Named call.dir slot call.wanted := by
    by_cases isDotDot : call.wanted = dotDotName
    · rw [isDotDot]
      exact stores.notDotDot isDotDot slot
    · exact unmissed call.dir slot call.wanted isDotDot adding.hasFirst
        ⟨adding.creates, rfl, rfl⟩
  constructor
  case allocated =>
    intro dir other isBlock
    rw [store_zone] at isBlock ⊢
    rw [allocated]
    exact shape.allocated dir other isBlock
  case sole =>
    intro dir other another otherBlock isBlock same
    rw [store_zone] at isBlock
    rw [store_zone, store_zone] at same
    exact shape.sole dir other another otherBlock isBlock same
  case covers =>
    intro dir covered isMount
    rw [covers] at isMount
    rw [store_known, shape.covers dir covered isMount, ite_self]
  case unknown =>
    intro dir untaken
    rw [taken] at untaken
    obtain ⟨unknown, vacant⟩ := shape.unknown dir untaken
    constructor
    · rw [store_known, if_neg, unknown]
      rintro ⟨isMkdir, rfl⟩
      rw [(adding.making isMkdir).taken] at untaken
      cases untaken
    · intro other
      rw [store_zone]
      exact vacant other
  case unique =>
    intro dir name first second isFirst isSecond
    rcases store_named adding inBlock overtaken found isFirst with
      firstBefore | ⟨isDir, firstSlot, isName, _⟩ <;>
    rcases store_named adding inBlock overtaken found isSecond with
      secondBefore | ⟨isDir', secondSlot, isName', _⟩
    · exact shape.unique dir name first second firstBefore secondBefore
    · rw [isDir', isName'] at firstBefore
      exact (fresh first firstBefore).elim
    · rw [isDir, isName] at secondBefore
      exact (fresh second secondBefore).elim
    · exact firstSlot.trans secondSlot.symm

/-- `add_entry` reads a block, and writes the entry if there is room. -/
theorem load_leads (sound : users.Sound) {outcome : Outcome}
    (isLoading : users.tasks task = .loading call number block zone)
    (unread : outcome.fails = true → 0 < block →
      (block + 1) * dirEntriesPerBlock ≤ (users.tree.dirs call.dir).entries)
    (stores : outcome.fails = false → ∀ index,
      users.tree.firstFree call.dir block zone = some index →
        users.Stores task call (block * dirEntriesPerBlock + index) zone) :
    Leads users task (users.tree.load outcome call number block zone) := by
  have isOk := sound.phases task
  have unmissed := sound.unmissed task
  rw [isLoading] at isOk unmissed
  obtain ⟨adding, inBlock, overtaken⟩ := isOk
  have stays := sound.stays task
  -- the next block is as good as this one
  have goesOn (reached : (block + 1) * dirEntriesPerBlock ≤
      (users.tree.dirs call.dir).entries) :
      MayEnter users task users.tree (.mapping call number (block + 1)) := by
    refine ⟨stays, ⟨{ adding with reached := reached }, Nat.succ_pos _⟩,
      unmissed, ?_⟩
    intro other isOther
    exact sound.apart_same rfl rfl (by rw [isLoading]; rfl) isOther
  unfold Tree.load
  split <;> rename_i fails
  · split <;> rename_i isFirst
    · exact addFails_leads stays call
    · exact leads_some (goesOn (unread fails (Nat.pos_of_ne_zero isFirst)))
  · split
    · rename_i full
      apply leads_some
      apply goesOn
      have last := List.find?_eq_none.mp full (dirEntriesPerBlock - 1)
        (List.mem_range.mpr (by decide))
      simp only [Bool.or_eq_true, decide_eq_true_eq, not_or] at last
      unfold dirEntriesPerBlock at *
      omega
    · rename_i index found
      have isClear := stores (Bool.not_eq_true _ ▸ fails) index found
      apply leads_some
      apply idle_may
      exact ⟨store_shape sound isLoading found isClear,
        fun other isOther => store_bears sound isLoading found isClear isOther⟩

end StoreStep

/-! ## Zones and inodes are allocated -/

/-- A zone or an inode that a task has is in use. -/
theorem Tree.PhaseOk.zone_allocated {tree : Tree} {phase : Phase} {zone : Nat}
    (isOk : tree.PhaseOk phase) (isZone : phase.zone? = some zone) :
    tree.allocated zone = true := by
  cases phase with
  | reading => cases isZone; exact isOk.2.2.allocated
  | filling => cases isZone; exact isOk.2.2.2.2.1
  | loading => cases isZone; exact isOk.2.1.allocated
  | removing => cases isZone; exact isOk.2
  | _ => cases isZone

theorem Tree.PhaseOk.making {tree : Tree} {phase : Phase} {number : Nat}
    (isOk : tree.PhaseOk phase) (builds : phase.builds = some number) :
    tree.Making number := by
  have ofAdding {call : Call} {own block : Nat}
      (adding : tree.Adding call own block)
      (builds : (if call.kind = .mkdir then some own else none) =
        some number) : tree.Making number := by
    split at builds <;> cases builds
    exact adding.making ‹_›
  cases phase with
  | building => cases builds; exact isOk.2.1
  | filling => cases builds; exact isOk.2.1
  | mapping => exact ofAdding isOk.1 builds
  | creating => exact ofAdding isOk.1 builds
  | loading => exact ofAdding isOk.1 builds
  | _ => cases builds

namespace Bears

variable {tree next final : Tree} {phase : Phase}

theorem trans (first : Bears tree next phase)
    (second : Bears next final phase) : Bears tree final phase where
  known := fun dir known => second.known dir (first.known dir known)
  entries := fun dir known =>
    (first.entries dir known).trans
      (second.entries dir (first.known dir known))
  hasFirst := fun dir known =>
    (second.hasFirst dir (first.known dir known)).trans
      (first.hasFirst dir known)
  making := fun number builds making =>
    second.making number builds (first.making number builds making)
  vacant := fun number builds vacant =>
    second.vacant number builds (first.vacant number builds vacant)
  allocated := fun zone isZone allocated =>
    second.allocated zone isZone (first.allocated zone isZone allocated)
  zones := fun zone isZone hasZone allocated dir block same =>
    first.zones zone isZone hasZone allocated dir block
      (second.zones zone isZone hasZone
        (first.allocated zone isZone allocated) dir block same)
  overtaken := fun dir block zone known overtaken =>
    second.overtaken dir block zone (first.known dir known)
      (first.overtaken dir block zone known overtaken)
  named := by
    intro dir slot name known notDotDot misses named
    obtain ⟨between, sameZone⟩ :=
      second.named dir slot name (first.known dir known) notDotDot misses named
    rw [sameZone] at misses ⊢
    exact first.named dir slot name known notDotDot misses between

/-- A change beside the known directories. -/
theorem beside (known : next.known = tree.known)
    (dirs : ∀ dir, tree.known dir = true → next.dirs dir = tree.dirs dir)
    (data : ∀ dir block, (tree.dirs dir).zone block ≠ 0 →
      next.data ((tree.dirs dir).zone block) =
        tree.data ((tree.dirs dir).zone block))
    (taken : ∀ number, phase.builds = some number →
      tree.taken number = true → next.taken number = true)
    (vacant : ∀ number, phase.builds = some number →
      tree.Vacant number → next.Vacant number)
    (allocated : ∀ zone, phase.zone? = some zone →
      tree.allocated zone = true → next.allocated zone = true)
    (zones : ∀ zone, phase.zone? = some zone → zone ≠ 0 → ∀ dir block,
      (next.dirs dir).zone block = zone → (tree.dirs dir).zone block = zone) :
    Bears tree next phase where
  known := fun dir isKnown => known ▸ isKnown
  entries := fun dir isKnown => by rw [dirs dir isKnown]
  hasFirst := fun dir isKnown => by rw [dirs dir isKnown]
  making := fun number builds making =>
    ⟨taken number builds making.taken, known ▸ making.unknown⟩
  vacant := vacant
  allocated := allocated
  zones := fun zone isZone hasZone _ => zones zone isZone hasZone
  overtaken := by
    intro dir block zone isKnown overtaken
    rcases overtaken with isZone | nothing
    · left
      rw [dirs dir isKnown]
      exact isZone
    · right
      intro slot sameBlock behind occupied
      obtain ⟨isBlock, isLive⟩ := occupied
      rw [Tree.zoneOf, dirs dir isKnown] at isBlock isLive
      rw [data _ _ isBlock] at isLive
      rw [dirs dir isKnown] at behind
      exact nothing slot sameBlock behind ⟨isBlock, isLive⟩
  named := by
    intro dir slot name isKnown _ _ named
    obtain ⟨inSize, isBlock, isLive, text⟩ := named
    rw [dirs dir isKnown] at inSize isBlock isLive text
    rw [data _ _ isBlock] at isLive text
    refine ⟨⟨inSize, isBlock, isLive, text⟩, ?_⟩
    rw [Tree.zoneOf, dirs dir isKnown, Tree.zoneOf]

end Bears

/-- The directories and their blocks are what they were. -/
theorem Tree.Shape.beside {tree next : Tree} (shape : tree.Shape)
    (dirs : next.dirs = tree.dirs) (known : next.known = tree.known)
    (covers : next.covers = tree.covers)
    (data : ∀ dir block, (tree.dirs dir).zone block ≠ 0 →
      next.data ((tree.dirs dir).zone block) =
        tree.data ((tree.dirs dir).zone block))
    (allocated : ∀ dir block, (tree.dirs dir).zone block ≠ 0 →
      next.allocated ((tree.dirs dir).zone block) =
        tree.allocated ((tree.dirs dir).zone block))
    (unknown : ∀ dir, next.taken dir = false → tree.known dir = false ∧
      tree.Vacant dir) : next.Shape where
  allocated := by
    intro dir block isBlock
    rw [dirs] at isBlock ⊢
    rw [allocated dir block isBlock]
    exact shape.allocated dir block isBlock
  sole := by
    rw [dirs]
    exact shape.sole
  covers := by
    rw [covers, known]
    exact shape.covers
  unknown := by
    intro dir untaken
    rw [known, Vacant, dirs]
    exact unknown dir untaken
  unique := by
    have before {dir slot : Nat} {name : List UInt8}
        (named : next.Named dir slot name) : tree.Named dir slot name := by
      obtain ⟨inSize, isBlock, isLive, text⟩ := named
      rw [dirs] at inSize isBlock isLive text
      rw [data _ _ isBlock] at isLive text
      exact ⟨inSize, isBlock, isLive, text⟩
    intro dir name first second isFirst isSecond
    exact shape.unique dir name first second (before isFirst) (before isSecond)

section NewBlock

variable {tree : Tree} {zone : Nat}

theorem newBlock_eq (isNew : tree.newBlock zone = some next) :
    zone ≠ 0 ∧ tree.allocated zone = false ∧
      next = (tree.setAllocated zone true).setData zone fun _ => .empty := by
  unfold Tree.newBlock at isNew
  split at isNew <;> rename_i isFree
  · cases isNew
  · obtain ⟨hasZone, notAllocated⟩ := not_or.mp isFree
    exact ⟨hasZone, Bool.not_eq_true _ ▸ notAllocated,
      (Option.some.inj isNew).symm⟩

/-- A zone that is free is no block of a directory. -/
theorem Tree.Shape.free_unused (shape : tree.Shape)
    (isFree : tree.allocated zone = false) (hasZone : zone ≠ 0)
    (dir block : Nat) : (tree.dirs dir).zone block ≠ zone := by
  intro same
  have allocated := shape.allocated dir block (same ▸ hasZone)
  rw [same, isFree] at allocated
  cases allocated

theorem newBlock_bears (shape : tree.Shape)
    (isNew : tree.newBlock zone = some next) (phase : Phase) :
    Bears tree next phase := by
  obtain ⟨hasZone, isFree, rfl⟩ := newBlock_eq isNew
  have unused := shape.free_unused isFree hasZone
  apply Bears.beside
  case known => rfl
  case dirs => exact fun _ _ => rfl
  case data => exact fun dir block _ => if_neg (unused dir block)
  case taken => exact fun _ _ taken => taken
  case vacant => exact fun _ _ vacant => vacant
  case allocated =>
    intro other _ allocated
    simp only [Tree.setData, Tree.setAllocated, allocated, ite_self]
  case zones => exact fun _ _ _ _ _ same => same

theorem newBlock_shape (shape : tree.Shape)
    (isNew : tree.newBlock zone = some next) : next.Shape := by
  obtain ⟨hasZone, isFree, rfl⟩ := newBlock_eq isNew
  have unused := shape.free_unused isFree hasZone
  exact shape.beside rfl rfl rfl (fun dir block _ => if_neg (unused dir block))
    (fun dir block _ => if_neg (unused dir block)) shape.unknown

end NewBlock

/-! ## Blocks come and go -/

section LoseBlocks

variable {tree : Tree} {dir block : Nat} {hidden : Nat → Bool}

theorem loseBlocks_zone (tree : Tree) (dir block : Nat) (hidden : Nat → Bool)
    (own other : Nat) :
    ((tree.loseBlocks dir block hidden).dirs own).zone other = 0 ∧
        (0 < block → 0 < other) ∨
      ((tree.loseBlocks dir block hidden).dirs own).zone other =
        (tree.dirs own).zone other := by
  unfold Tree.loseBlocks Tree.setDir
  by_cases isDir : own = dir
  · simp only [isDir, if_true]
    split <;> split <;> rename_i isDirect isLost
    · exact .inl ⟨rfl, fun positive => isLost ▸ positive⟩
    · exact .inr rfl
    · exact .inl ⟨rfl, fun _ => Nat.lt_of_lt_of_le (by decide) isLost.1⟩
    · exact .inr rfl
  · simp only [isDir, if_false, or_true]

theorem loseBlocks_kept {own other : Nat}
    (isBlock : ((tree.loseBlocks dir block hidden).dirs own).zone other ≠ 0) :
    ((tree.loseBlocks dir block hidden).dirs own).zone other =
      (tree.dirs own).zone other :=
  (loseBlocks_zone tree dir block hidden own other).resolve_left
    fun lost => isBlock lost.1

theorem loseBlocks_entries (own : Nat) :
    ((tree.loseBlocks dir block hidden).dirs own).entries =
      (tree.dirs own).entries := by
  unfold Tree.loseBlocks Tree.setDir
  by_cases isDir : own = dir <;> simp only [isDir, if_true, if_false]

theorem loseBlocks_named {own slot : Nat} {name : List UInt8}
    (named : (tree.loseBlocks dir block hidden).Named own slot name) :
    tree.Named own slot name := by
  obtain ⟨inSize, isBlock, isLive, text⟩ := named
  have kept := loseBlocks_kept isBlock
  rw [loseBlocks_entries] at inSize
  rw [kept] at isBlock isLive text
  exact ⟨inSize, isBlock, isLive, text⟩

theorem loseBlocks_bears (behind : 0 < block) (phase : Phase) :
    Bears tree (tree.loseBlocks dir block hidden) phase where
  known := fun _ known => known
  entries := fun own _ => (loseBlocks_entries own).ge
  hasFirst := by
    intro own _
    rcases loseBlocks_zone tree dir block hidden own 0 with ⟨_, isLost⟩ | kept
    · exact (Nat.lt_irrefl 0 (isLost behind)).elim
    · rw [kept]
  making := fun _ _ making => ⟨making.taken, making.unknown⟩
  vacant := by
    intro number _ vacant other
    rcases loseBlocks_zone tree dir block hidden number other with
      ⟨lost, _⟩ | kept
    · exact lost
    · exact kept.trans (vacant other)
  allocated := fun _ _ allocated => allocated
  zones := by
    rintro zone _ hasZone _ own other rfl
    exact (loseBlocks_kept hasZone).symm
  overtaken := by
    intro own other zone _ overtaken
    by_cases isBlock : ((tree.loseBlocks dir block hidden).dirs own).zone other = 0
    · right
      rintro slot rfl _ occupied
      exact occupied.isBlock isBlock
    · have kept := loseBlocks_kept isBlock
      rcases overtaken with isZone | nothing
      · exact .inl (kept.trans isZone)
      · right
        rintro slot rfl outside occupied
        obtain ⟨hasZone, isLive⟩ := occupied
        rw [Tree.zoneOf, kept] at hasZone isLive
        rw [loseBlocks_entries] at outside
        exact nothing slot rfl outside ⟨hasZone, isLive⟩
  named := fun own slot name _ _ _ named =>
    ⟨loseBlocks_named named, loseBlocks_kept named.isBlock⟩

theorem loseBlocks_shape (shape : tree.Shape) :
    (tree.loseBlocks dir block hidden).Shape where
  allocated := by
    intro own other isBlock
    have kept := loseBlocks_kept isBlock
    rw [kept] at isBlock ⊢
    exact shape.allocated own other isBlock
  sole := by
    intro own other another otherBlock isBlock same
    have kept := loseBlocks_kept isBlock
    have kept' := loseBlocks_kept (same ▸ isBlock)
    rw [kept] at isBlock same
    exact shape.sole own other another otherBlock isBlock (kept' ▸ same)
  covers := shape.covers
  unknown := by
    intro own untaken
    obtain ⟨unknown, vacant⟩ := shape.unknown own untaken
    refine ⟨unknown, fun other => ?_⟩
    rcases loseBlocks_zone tree dir block hidden own other with ⟨lost, _⟩ | kept
    · exact lost
    · exact kept.trans (vacant other)
  unique := fun own name first second isFirst isSecond =>
    shape.unique own name first second (loseBlocks_named isFirst)
      (loseBlocks_named isSecond)

end LoseBlocks

section SetBlock

variable {tree : Tree} {dir block zone : Nat}

theorem setBlock_zone (tree : Tree) (dir block zone own other : Nat) :
    ((tree.setBlock dir block zone).dirs own).zone other =
      if own = dir ∧ other = block then zone
      else (tree.dirs own).zone other := by
  unfold Tree.setBlock Tree.setDir
  by_cases isDir : own = dir <;> simp [isDir]

theorem setBlock_entries (own : Nat) :
    ((tree.setBlock dir block zone).dirs own).entries =
      (tree.dirs own).entries := by
  unfold Tree.setBlock Tree.setDir
  by_cases isDir : own = dir <;> simp only [isDir, if_true, if_false]

/-- The zone is in use, has nothing in it and is not the block of any
directory. -/
structure Tree.Blank (tree : Tree) (zone : Nat) : Prop where
  hasZone : zone ≠ 0
  allocated : tree.allocated zone = true
  unused : ∀ dir block, (tree.dirs dir).zone block ≠ zone
  clear : ∀ index, (tree.data zone index).inode = 0

theorem setBlock_live (blank : tree.Blank zone) {own slot : Nat}
    (isLive : (tree.data ((tree.setBlock dir block zone).zoneOf own slot)
      (slot % dirEntriesPerBlock)).inode ≠ 0) :
    (tree.setBlock dir block zone).zoneOf own slot = tree.zoneOf own slot := by
  have isZone := setBlock_zone tree dir block zone own (slot / dirEntriesPerBlock)
  unfold Tree.zoneOf at *
  split at isZone
  · rw [isZone] at isLive
    exact (isLive (blank.clear _)).elim
  · exact isZone

theorem setBlock_named (blank : tree.Blank zone) {own slot : Nat}
    {name : List UInt8}
    (named : (tree.setBlock dir block zone).Named own slot name) :
    tree.Named own slot name ∧
      (tree.setBlock dir block zone).zoneOf own slot = tree.zoneOf own slot := by
  obtain ⟨inSize, isBlock, isLive, text⟩ := named
  have same := setBlock_live blank isLive
  unfold Tree.zoneOf at same
  rw [setBlock_entries] at inSize
  rw [same] at isBlock isLive text
  exact ⟨⟨inSize, isBlock, isLive, text⟩, same⟩

theorem setBlock_bears (blank : tree.Blank zone) (behind : 0 < block)
    (hasFirst : (tree.dirs dir).zone 0 ≠ 0) {phase : Phase}
    (notOwn : phase.zone? ≠ some zone) :
    Bears tree (tree.setBlock dir block zone) phase where
  known := fun _ known => known
  entries := fun own _ => (setBlock_entries own).ge
  hasFirst := by
    intro own _
    rw [setBlock_zone, if_neg]
    rintro ⟨_, rfl⟩
    exact Nat.lt_irrefl 0 behind
  making := fun _ _ making => ⟨making.taken, making.unknown⟩
  vacant := by
    intro number _ vacant other
    rw [setBlock_zone, if_neg]
    · exact vacant other
    · rintro ⟨rfl, _⟩
      exact hasFirst (vacant 0)
  allocated := fun _ _ allocated => allocated
  zones := by
    intro own isOwn _ _ other otherBlock same
    rw [setBlock_zone] at same
    split at same
    · rw [same] at notOwn
      exact (notOwn isOwn).elim
    · exact same
  overtaken := by
    intro own other another _ overtaken
    have isZone := setBlock_zone tree dir block zone own other
    split at isZone <;> rename_i isSet
    · right
      rintro slot rfl _ ⟨_, isLive⟩
      rw [Tree.zoneOf, isZone] at isLive
      exact isLive (blank.clear _)
    · rcases overtaken with isBlock | nothing
      · exact .inl (isZone.trans isBlock)
      · right
        rintro slot rfl outside ⟨isBlock, isLive⟩
        rw [Tree.zoneOf, isZone] at isBlock isLive
        rw [setBlock_entries] at outside
        exact nothing slot rfl outside ⟨isBlock, isLive⟩
  named := fun own slot name _ _ _ named => setBlock_named blank named

theorem setBlock_shape (shape : tree.Shape) (blank : tree.Blank zone)
    (hasFirst : (tree.dirs dir).zone 0 ≠ 0) :
    (tree.setBlock dir block zone).Shape where
  allocated := by
    intro own other isBlock
    rw [setBlock_zone] at isBlock ⊢
    split at isBlock <;> rename_i isSet
    · rw [if_pos isSet]
      exact blank.allocated
    · rw [if_neg isSet]
      exact shape.allocated own other isBlock
  sole := by
    intro own other another otherBlock isBlock same
    rw [setBlock_zone] at isBlock
    rw [setBlock_zone, setBlock_zone] at same
    by_cases isSet : own = dir ∧ other = block <;>
      by_cases isSet' : another = dir ∧ otherBlock = block
    · exact ⟨isSet'.1.trans isSet.1.symm, isSet'.2.trans isSet.2.symm⟩
    · rw [if_pos isSet, if_neg isSet'] at same
      exact (blank.unused _ _ same).elim
    · rw [if_neg isSet, if_pos isSet'] at same
      exact (blank.unused _ _ same.symm).elim
    · rw [if_neg isSet] at isBlock
      rw [if_neg isSet, if_neg isSet'] at same
      exact shape.sole own other another otherBlock isBlock same
  covers := shape.covers
  unknown := by
    intro own untaken
    obtain ⟨unknown, vacant⟩ := shape.unknown own untaken
    refine ⟨unknown, fun other => ?_⟩
    rw [setBlock_zone, if_neg]
    · exact vacant other
    · rintro ⟨rfl, _⟩
      exact hasFirst (vacant 0)
  unique := fun own name first second isFirst isSecond =>
    shape.unique own name first second (setBlock_named blank isFirst).1
      (setBlock_named blank isSecond).1

end SetBlock

section CreateBlock

variable {call : Call} {number block : Nat}

/-- The block that `create_block` returns is read. -/
theorem loading_may (sound : users.Sound) (leaves : Leaves users task next)
    (adding : next.Adding call number block)
    (unmissed : next.Unmissed (.loading call number block
      ((next.dirs call.dir).zone block)))
    (isBlock : (next.dirs call.dir).zone block ≠ 0)
    (builds : (Phase.loading call number block
      ((next.dirs call.dir).zone block)).builds = (users.tasks task).builds) :
    MayEnter users task next
      (.loading call number block ((next.dirs call.dir).zone block)) := by
  refine ⟨leaves, ⟨adding, leaves.shape.inBlock isBlock, .inl rfl⟩, unmissed,
    ?_⟩
  intro other isOther
  refine apart_zone rfl rfl ?_ (leaves.unfilled sound isOther)
  rw [builds]
  exact (sound.apart task other (Ne.symm isOther)).number

theorem map_leads (sound : users.Sound) {outcome : Outcome}
    (isMapping : users.tasks task = .mapping call number block) :
    Leads users task (users.tree.map outcome call number block) := by
  have isOk := sound.phases task
  have unmissed := sound.unmissed task
  rw [isMapping] at isOk unmissed
  obtain ⟨adding, behind⟩ := isOk
  have stays := sound.stays task
  unfold Tree.map
  dsimp only
  split
  · exact addFails_leads stays call
  · split <;> rename_i isBlock
    · apply leads_some
      refine ⟨stays, ⟨adding, behind⟩, unmissed, ?_⟩
      intro other isOther
      exact sound.apart_same rfl rfl (by rw [isMapping]; rfl) isOther
    · apply leads_some
      exact loading_may sound stays adding unmissed isBlock
        (by rw [isMapping]; rfl)

theorem newBlock_blank {tree middle : Tree} {zone : Nat} (shape : tree.Shape)
    (isNew : tree.newBlock zone = some middle) : middle.Blank zone := by
  obtain ⟨hasZone, isFree, rfl⟩ := newBlock_eq isNew
  refine ⟨hasZone, if_pos rfl, shape.free_unused isFree hasZone, ?_⟩
  intro index
  simp only [Tree.setData, if_true]
  rfl

theorem create_leads (sound : users.Sound) {outcome : Outcome}
    (isCreating : users.tasks task = .creating call number block) :
    Leads users task (users.tree.create outcome call number block) := by
  have isOk := sound.phases task
  have unmissed := sound.unmissed task
  rw [isCreating] at isOk unmissed
  have behind : 0 < block := isOk.2
  unfold Tree.create
  dsimp only
  split
  · exact addFails_leads
      ⟨loseBlocks_shape sound.shape, fun _ _ => loseBlocks_bears behind _⟩ call
  · split
    · exact leads_none
    · rename_i middle isNew
      have bears := newBlock_bears sound.shape isNew
      have shape := newBlock_shape sound.shape isNew
      split
      · have own : Bears users.tree
            (middle.loseBlocks call.dir block outcome.hidden)
            (.creating call number block) :=
          (bears _).trans (loseBlocks_bears behind _)
        apply leads_some
        refine ⟨⟨loseBlocks_shape shape, fun other _ =>
          (bears _).trans (loseBlocks_bears behind _)⟩, own.phaseOk isOk,
          own.unmissed isOk unmissed, ?_⟩
        intro other isOther
        exact sound.apart_same rfl rfl (by rw [isCreating]; rfl) isOther
      · obtain ⟨_, isFree, _⟩ := newBlock_eq isNew
        have blank := newBlock_blank sound.shape isNew
        have hasFirst := ((bears _).phaseOk isOk).1.hasFirst
        have own : Bears users.tree
            (middle.setBlock call.dir block outcome.fresh)
            (.creating call number block) :=
          (bears _).trans
            (setBlock_bears blank behind hasFirst fun none => by cases none)
        have leaves : Leaves users task
            (middle.setBlock call.dir block outcome.fresh) := by
          refine ⟨setBlock_shape shape blank hasFirst, fun other _ =>
            (bears _).trans (setBlock_bears blank behind hasFirst ?_)⟩
          intro isZone
          have allocated := (sound.phases other).zone_allocated isZone
          rw [isFree] at allocated
          cases allocated
        have isZone : ((middle.setBlock call.dir block outcome.fresh).dirs
            call.dir).zone block = outcome.fresh := by
          rw [setBlock_zone, if_pos ⟨rfl, rfl⟩]
        have may := loading_may sound leaves (own.phaseOk isOk).1
          (own.unmissed isOk unmissed) (by rw [isZone]; exact blank.hasZone)
          (by rw [isCreating]; rfl)
        rw [isZone] at may
        exact leads_some may

end CreateBlock

/-! ## A directory is made -/

section MakeDir

variable {call : Call} {number zone : Nat}

theorem Users.Sound.searched {phase : Phase} (sound : users.Sound)
    (inPhase : users.tasks task = phase)
    (misses : ∀ slot zone, call.creates →
      phase.misses call.dir call.wanted slot zone) :
    users.tree.Searched call := by
  have unmissed := sound.unmissed task
  rw [inPhase] at unmissed
  intro creates notDotDot hasFirst slot _
  exact unmissed call.dir slot call.wanted notDotDot hasFirst
    (misses slot _ creates)

/-- What the task is making, no other task is making. -/
theorem Users.Sound.alone {phase : Phase} (sound : users.Sound)
    (inPhase : users.tasks task = phase) (builds : phase.builds = some number)
    (other : Nat) (isOther : other ≠ task) :
    (users.tasks other).builds ≠ some number := by
  have apart := (sound.apart task other (Ne.symm isOther)).number number
  rw [inPhase] at apart
  exact apart builds

theorem setTaken_bears {tree : Tree} {value : Bool} {phase : Phase}
    (notOwn : value = true ∨ phase.builds ≠ some number) :
    Bears tree (tree.setTaken number value) phase := by
  apply Bears.beside
  case known => rfl
  case dirs => exact fun _ _ => rfl
  case data => exact fun _ _ _ => rfl
  case taken =>
    intro own builds taken
    unfold Tree.setTaken
    dsimp only
    split <;> rename_i isOwn
    · exact notOwn.resolve_right (not_not.mpr (isOwn ▸ builds))
    · exact taken
  case vacant => exact fun _ _ vacant => vacant
  case allocated => exact fun _ _ allocated => allocated
  case zones => exact fun _ _ _ _ _ same => same

theorem setTaken_shape {tree : Tree} {value : Bool} (shape : tree.Shape)
    (unknown : value = false → tree.known number = false ∧
      tree.Vacant number) : (tree.setTaken number value).Shape := by
  apply shape.beside
  case dirs => rfl
  case known => rfl
  case covers => rfl
  case data => exact fun _ _ _ => rfl
  case allocated => exact fun _ _ _ => rfl
  case unknown =>
    intro dir untaken
    unfold Tree.setTaken at untaken
    dsimp only at untaken
    split at untaken <;> rename_i isNumber
    · exact isNumber ▸ unknown untaken
    · exact shape.unknown dir untaken

theorem allocate_leads (sound : users.Sound) {outcome : Outcome}
    (isAllocating : users.tasks task = .allocating call) :
    Leads users task (users.tree.allocate outcome call) := by
  have isOk := sound.phases task
  have unmissed := sound.unmissed task
  rw [isAllocating] at isOk unmissed
  have creating : users.tree.Creating call := isOk
  have stays := sound.stays task
  unfold Tree.allocate
  dsimp only
  split
  · exact leads_some (idle_may stays)
  · split
    · split <;> rename_i isFree
      · exact leads_none
      · have untaken := Bool.not_eq_true _ ▸ isFree
        obtain ⟨unknown, vacant⟩ := sound.shape.unknown _ untaken
        have bears (phase : Phase) := @setTaken_bears outcome.fresh users.tree
          true phase (.inl rfl)
        apply leads_some
        refine ⟨⟨setTaken_shape sound.shape (fun none => by cases none),
          fun _ _ => bears _⟩,
          ⟨(bears (.allocating call)).phaseOk isOk, ⟨if_pos rfl, unknown⟩,
            vacant⟩, (bears (.allocating call)).unmissed isOk unmissed, ?_⟩
        intro other isOther
        constructor
        · refine ⟨fun _ none => by (cases none), ?_⟩
          rintro _ ⟨⟩ builds
          have making := (sound.phases other).making builds
          exact isFree making.taken
        · refine ⟨fun _ _ none => by (cases none), ?_⟩
          rintro own builds ⟨⟩
          exact isFree ((sound.phases other).making builds).taken
    · rename_i notMkdir
      exact addStarts_leads sound stays creating
        (sound.searched isAllocating fun _ _ creates => ⟨creates, rfl, rfl⟩)
        (fun isMkdir => (notMkdir isMkdir).elim)
        fun isMkdir => (notMkdir isMkdir).elim

theorem build_leads (sound : users.Sound) {outcome : Outcome}
    (isBuilding : users.tasks task = .building call number) :
    Leads users task (users.tree.build outcome call number) := by
  have isOk := sound.phases task
  have unmissed := sound.unmissed task
  rw [isBuilding] at isOk unmissed
  have making : users.tree.Making number := isOk.2.1
  have vacant : users.tree.Vacant number := isOk.2.2
  have alone := sound.alone isBuilding rfl
  unfold Tree.build
  dsimp only
  split
  · apply leads_some
    apply idle_may
    exact ⟨setTaken_shape sound.shape fun _ => ⟨making.unknown, vacant⟩,
      fun other isOther => setTaken_bears (.inr (alone other isOther))⟩
  · split
    · exact leads_none
    · rename_i middle isNew
      have bears := newBlock_bears sound.shape isNew
      have blank := newBlock_blank sound.shape isNew
      obtain ⟨_, isFree, _⟩ := newBlock_eq isNew
      have own := (bears (.building call number)).phaseOk isOk
      apply leads_some
      refine ⟨⟨newBlock_shape sound.shape isNew, fun _ _ => bears _⟩,
        ⟨own.1, own.2.1, own.2.2, blank.hasZone, blank.allocated,
          blank.unused⟩,
        (bears (.building call number)).unmissed isOk unmissed, ?_⟩
      intro other isOther
      have otherOk := sound.phases other
      constructor
      · constructor
        · rintro zone ⟨⟩ isZone
          have allocated := otherOk.zone_allocated isZone
          rw [isFree] at allocated
          cases allocated
        · rintro own ⟨⟩
          exact alone other isOther
      · constructor
        · intro zone fills same
          cases same
          cases inPhase : users.tasks other <;>
            rw [inPhase] at fills otherOk <;> cases fills
          have allocated := otherOk.zone_allocated rfl
          rw [isFree] at allocated
          cases allocated
        · rintro own builds ⟨⟩
          exact alone other isOther builds

/-- The inode and the zone of a directory that could not be made are given
back. -/
theorem fillFails_leaves (sound : users.Sound)
    (isFilling : users.tasks task = .filling call number zone) :
    Leaves users task
      ((users.tree.setAllocated zone false).setTaken number false) := by
  have isOk := sound.phases task
  rw [isFilling] at isOk
  obtain ⟨_, making, vacant, hasZone, _, unused⟩ := isOk
  have alone := sound.alone isFilling rfl
  have shape : (users.tree.setAllocated zone false).Shape := by
    apply sound.shape.beside
    case dirs => rfl
    case known => rfl
    case covers => rfl
    case data => exact fun _ _ _ => rfl
    case allocated => exact fun dir block _ => if_neg (unused dir block)
    case unknown => exact sound.shape.unknown
  refine ⟨setTaken_shape shape fun _ => ⟨making.unknown, vacant⟩, ?_⟩
  intro other isOther
  have notZone := (sound.apart task other (Ne.symm isOther)).zone
  rw [isFilling] at notZone
  apply Bears.trans _ (setTaken_bears (.inr (alone other isOther)))
  apply Bears.beside
  case known => rfl
  case dirs => exact fun _ _ => rfl
  case data => exact fun _ _ _ => rfl
  case taken => exact fun _ _ taken => taken
  case vacant => exact fun _ _ vacant => vacant
  case allocated =>
    intro own isOwn allocated
    refine (if_neg ?_).trans allocated
    rintro rfl
    exact notZone own rfl isOwn
  case zones => exact fun _ _ _ _ _ same => same

theorem makeDir_dirs (tree : Tree) (number parent zone dir : Nat) :
    (tree.makeDir number parent zone).dirs dir =
      if dir = number then
        { entries := 2, zone := fun block => if block = 0 then zone else 0 }
      else tree.dirs dir := rfl

theorem makeDir_data (tree : Tree) {number parent zone other : Nat}
    (isOther : other ≠ zone) :
    (tree.makeDir number parent zone).data other = tree.data other :=
  if_neg isOther

theorem makeDir_bears {tree : Tree} {parent : Nat} {phase : Phase}
    (unknown : tree.known number = false)
    (unused : ∀ dir block, (tree.dirs dir).zone block ≠ zone)
    (notZone : phase.zone? ≠ some zone)
    (notNumber : phase.builds ≠ some number) :
    Bears tree (tree.makeDir number parent zone) phase := by
  apply Bears.beside
  case known => rfl
  case dirs =>
    intro dir known
    rw [makeDir_dirs, if_neg]
    rintro rfl
    rw [unknown] at known
    cases known
  case data => exact fun dir block _ => makeDir_data tree (unused dir block)
  case taken => exact fun _ _ taken => taken
  case vacant =>
    intro own builds vacant block
    rw [makeDir_dirs, if_neg]
    · exact vacant block
    · rintro rfl
      exact notNumber builds
  case allocated => exact fun _ _ allocated => allocated
  case zones =>
    intro own isOwn hasOwn dir block same
    rw [makeDir_dirs] at same
    split at same
    · dsimp only at same
      split at same
      · exact (notZone (same ▸ isOwn)).elim
      · exact (hasOwn same.symm).elim
    · exact same

theorem makeDir_named {tree : Tree} {parent dir slot : Nat}
    {name : List UInt8}
    (unused : ∀ dir block, (tree.dirs dir).zone block ≠ zone)
    (named : (tree.makeDir number parent zone).Named dir slot name) :
    dir ≠ number ∧ tree.Named dir slot name ∨
      dir = number ∧
        (slot = 0 ∧ name = dotName ∨ slot = 1 ∧ name = dotDotName) := by
  obtain ⟨inSize, isBlock, isLive, text⟩ := named
  rw [makeDir_dirs] at inSize isBlock isLive text
  by_cases isNumber : dir = number
  · right
    refine ⟨isNumber, ?_⟩
    rw [if_pos isNumber] at inSize text
    dsimp only at inSize text
    have first : slot / dirEntriesPerBlock = 0 := by
      unfold dirEntriesPerBlock
      omega
    have remainder : slot % dirEntriesPerBlock = slot := by
      unfold dirEntriesPerBlock
      omega
    have isSlot : slot = 0 ∨ slot = 1 := by omega
    rw [first, remainder, if_pos rfl] at text
    have proper : ProperName dotName ∧ ProperName dotDotName := by
      constructor <;> refine ⟨by decide, ?_⟩ <;> simp [dotName, dotDotName]
    rcases isSlot with rfl | rfl
    · refine .inl ⟨rfl, text.symm.trans ?_⟩
      simp only [Tree.makeDir, Tree.setData, Tree.setDir, if_true]
      exact DirEntry.text_named proper.1 number
    · refine .inr ⟨rfl, text.symm.trans ?_⟩
      simp only [Tree.makeDir, Tree.setData, Tree.setDir, if_true,
        Nat.one_ne_zero, if_false]
      exact DirEntry.text_named proper.2 parent
  · left
    rw [if_neg isNumber] at inSize isBlock isLive text
    rw [makeDir_data tree (unused _ _)] at isLive text
    exact ⟨isNumber, inSize, isBlock, isLive, text⟩

theorem makeDir_shape {tree : Tree} {parent : Nat} (shape : tree.Shape)
    (taken : tree.taken number = true)
    (unused : ∀ dir block, (tree.dirs dir).zone block ≠ zone)
    (allocated : tree.allocated zone = true) :
    (tree.makeDir number parent zone).Shape := by
  have zones (dir block : Nat) :
      ((tree.makeDir number parent zone).dirs dir).zone block =
        if dir = number then if block = 0 then zone else 0
        else (tree.dirs dir).zone block := by
    rw [makeDir_dirs]
    split <;> rfl
  constructor
  case allocated =>
    intro dir block isBlock
    rw [zones] at isBlock ⊢
    split at isBlock <;> rename_i isNumber
    · split at isBlock <;> rename_i isFirst
      · rw [if_pos isNumber, if_pos isFirst]
        exact allocated
      · exact (isBlock rfl).elim
    · rw [if_neg isNumber]
      exact shape.allocated dir block isBlock
  case sole =>
    intro dir block other otherBlock isBlock same
    rw [zones] at isBlock
    rw [zones, zones] at same
    by_cases isNumber : dir = number <;> by_cases isOther : other = number
    · rw [if_pos isNumber] at isBlock
      rw [if_pos isNumber, if_pos isOther] at same
      refine ⟨isOther.trans isNumber.symm, ?_⟩
      split at isBlock <;> rename_i isFirst
      · rw [if_pos isFirst] at same
        split at same <;> rename_i isFirst'
        · exact isFirst'.trans isFirst.symm
        · exact (isBlock same.symm).elim
      · exact (isBlock rfl).elim
    · rw [if_pos isNumber] at isBlock
      rw [if_pos isNumber, if_neg isOther] at same
      split at isBlock <;> rename_i isFirst
      · rw [if_pos isFirst] at same
        exact (unused _ _ same).elim
      · exact (isBlock rfl).elim
    · rw [if_neg isNumber] at isBlock
      rw [if_neg isNumber, if_pos isOther] at same
      split at same
      · exact (unused _ _ same.symm).elim
      · exact (isBlock same.symm).elim
    · rw [if_neg isNumber] at isBlock
      rw [if_neg isNumber, if_neg isOther] at same
      exact shape.sole dir block other otherBlock isBlock same
  case covers => exact shape.covers
  case unknown =>
    intro dir untaken
    obtain ⟨unknown, vacant⟩ := shape.unknown dir untaken
    refine ⟨unknown, fun block => ?_⟩
    rw [zones, if_neg]
    · exact vacant block
    · rintro rfl
      rw [show tree.taken dir = false from untaken] at taken
      cases taken
  case unique =>
    intro dir name first second isFirst isSecond
    have different : dotName ≠ dotDotName := by decide
    rcases makeDir_named unused isFirst with
      ⟨notNumber, isFirst⟩ | ⟨isNumber, isFirst⟩ <;>
    rcases makeDir_named unused isSecond with
      ⟨notNumber', isSecond⟩ | ⟨isNumber', isSecond⟩
    · exact shape.unique dir name first second isFirst isSecond
    · exact (notNumber isNumber').elim
    · exact (notNumber' isNumber).elim
    · rcases isFirst with ⟨rfl, isName⟩ | ⟨rfl, isName⟩ <;>
        rcases isSecond with ⟨rfl, isName'⟩ | ⟨rfl, isName'⟩
      · rfl
      · exact (different (isName.symm.trans isName')).elim
      · exact (different (isName'.symm.trans isName)).elim
      · rfl

theorem fill_leads (sound : users.Sound) {outcome : Outcome}
    (isFilling : users.tasks task = .filling call number zone) :
    Leads users task (users.tree.fill outcome call number zone) := by
  have isOk := sound.phases task
  rw [isFilling] at isOk
  obtain ⟨creating, making, vacant, hasZone, allocated, unused⟩ := isOk
  unfold Tree.fill
  split
  · exact leads_some (idle_may (fillFails_leaves sound isFilling))
  · have alone := sound.alone isFilling rfl
    have leaves : Leaves users task
        (users.tree.makeDir number call.dir zone) := by
      refine ⟨makeDir_shape sound.shape making.taken unused allocated, ?_⟩
      intro other isOther
      have notZone := (sound.apart task other (Ne.symm isOther)).zone zone
      rw [isFilling] at notZone
      exact makeDir_bears making.unknown unused (notZone rfl)
        (alone other isOther)
    -- as the task itself sees it, but for what it makes
    have own : Bears users.tree (users.tree.makeDir number call.dir zone)
        (.allocating call) :=
      makeDir_bears making.unknown unused (fun none => by cases none)
        fun none => by cases none
    have searched := sound.searched isFilling fun _ _ creates =>
      ⟨creates, rfl, rfl⟩
    have unmissed := own.unmissed creating
      (searched.unmissed fun _ _ _ adds => ⟨adds, trivial⟩)
    apply addStarts_leads sound leaves (own.creating creating)
    · intro creates notDotDot hasFirst slot _
      exact unmissed call.dir slot call.wanted notDotDot hasFirst
        ⟨creates, rfl, rfl⟩
    · exact fun _ => ⟨making.taken, making.unknown⟩
    · exact fun _ => alone

end MakeDir

/-! ## `sys_unlink` -/

section Remove

variable {tree : Tree} {outcome : Outcome} {zone index : Nat}

theorem remove_dirs (tree : Tree) (outcome : Outcome) (zone index : Nat) :
    (tree.remove outcome zone index).dirs = tree.dirs ∧
      (tree.remove outcome zone index).allocated = tree.allocated ∧
      (tree.remove outcome zone index).taken = tree.taken ∧
      (tree.remove outcome zone index).known = tree.known ∧
      (tree.remove outcome zone index).covers = tree.covers := by
  unfold Tree.remove
  split <;> exact ⟨rfl, rfl, rfl, rfl, rfl⟩

theorem remove_live {other cell : Nat}
    (isLive :
      ((tree.remove outcome zone index).data other cell).inode ≠ 0) :
    (tree.remove outcome zone index).data other cell =
      tree.data other cell := by
  unfold Tree.remove at *
  split <;> rename_i fails
  · rfl
  · rw [if_neg fails] at isLive
    unfold Tree.setData at *
    by_cases isZone : other = zone <;> by_cases isCell : cell = index <;>
      simp_all

theorem remove_named {dir slot : Nat} {name : List UInt8}
    (named : (tree.remove outcome zone index).Named dir slot name) :
    tree.Named dir slot name := by
  obtain ⟨inSize, isBlock, isLive, text⟩ := named
  have dirs := (remove_dirs tree outcome zone index).1
  rw [remove_live isLive, dirs] at text
  rw [remove_live isLive, dirs] at isLive
  rw [dirs] at inSize isBlock
  exact ⟨inSize, isBlock, isLive, text⟩

theorem remove_bears (phase : Phase) :
    Bears tree (tree.remove outcome zone index) phase := by
  obtain ⟨dirs, allocated, taken, known, _⟩ :=
    remove_dirs tree outcome zone index
  constructor
  case known => exact fun _ isKnown => known ▸ isKnown
  case entries => exact fun _ _ => by rw [dirs]
  case hasFirst => exact fun _ _ => by rw [dirs]
  case making =>
    exact fun _ _ making => ⟨taken ▸ making.taken, known ▸ making.unknown⟩
  case vacant =>
    intro number _ vacant block
    rw [dirs]
    exact vacant block
  case allocated => exact fun _ _ isAllocated => allocated ▸ isAllocated
  case zones =>
    intro own _ _ _ dir block same
    rw [dirs] at same
    exact same
  case overtaken =>
    intro dir block own _ overtaken
    unfold Tree.Overtaken at *
    rw [dirs]
    refine overtaken.imp_right fun nothing slot sameBlock outside occupied => ?_
    obtain ⟨isBlock, isLive⟩ := occupied
    rw [remove_live isLive] at isLive
    unfold Tree.zoneOf at *
    rw [dirs] at isBlock isLive
    exact nothing slot sameBlock outside ⟨isBlock, isLive⟩
  case named =>
    intro dir slot name _ _ _ named
    refine ⟨remove_named named, ?_⟩
    unfold Tree.zoneOf
    rw [dirs]

theorem remove_shape (shape : tree.Shape) :
    (tree.remove outcome zone index).Shape := by
  obtain ⟨dirs, allocated, taken, known, covers⟩ :=
    remove_dirs tree outcome zone index
  constructor
  case allocated =>
    rw [dirs, allocated]
    exact shape.allocated
  case sole =>
    rw [dirs]
    exact shape.sole
  case covers =>
    rw [covers, known]
    exact shape.covers
  case unknown =>
    intro dir untaken
    rw [taken] at untaken
    obtain ⟨unknown, vacant⟩ := shape.unknown dir untaken
    refine ⟨known ▸ unknown, fun block => ?_⟩
    rw [dirs]
    exact vacant block
  case unique =>
    exact fun dir name first second isFirst isSecond =>
      shape.unique dir name first second (remove_named isFirst)
        (remove_named isSecond)

end Remove

end Change

end Linux011.Fs
