import Mathlib.Order.Interval.Finset.Nat
import Linux011.Library.RefCount
import Linux011.Mm.Memory

/-!
# Accounting for page frames

An abstract picture of who uses a page frame: the user half of the page
directory, one virtual table entry for each user page (zero where there is no
page table), the frames the kernel holds, and `mem_map`.  `Exact` says that
`mem_map` counts these uses and nothing else, and that a writable mapping is
the only one of its frame.  Each way memory management edits the picture
keeps it exact; physical memory does not appear here.
-/

namespace Linux011.Mm

open RefCount

/-- The frame an entry maps, if it is present. -/
def Word.target (word : Word) : Option Nat :=
  if word.present then some word.page else none

theorem Word.target_eq_some {word : Word} {frame : Nat} :
    Word.target word = some frame ↔
      word.present = true ∧ word.page = frame := by
  unfold Word.target
  split <;> simp_all

@[simp] theorem Word.target_zero : Word.target 0#32 = none := by
  decide

@[simp] theorem Word.target_protect (word : Word) :
    Word.target (Word.protect word) = Word.target word := by
  simp [Word.target]

@[simp] theorem Word.target_unprotect (word : Word) :
    Word.target (Word.unprotect word) = Word.target word := by
  simp [Word.target]

@[simp] theorem Word.target_stored (word : Word) :
    Word.target (Word.stored word) = Word.target word := by
  simp [Word.target]

theorem Word.target_user {frame : Nat} (small : frame < 2 ^ 20) :
    Word.target (Word.user frame) = some frame := by
  simp [Word.target, Word.page_user small]

/-- Directory entries of the windows of tasks 1..63. -/
@[irreducible] def userDirs : Finset Nat := Finset.Ico 16 1024

/-- Page-table entries of the windows of tasks 1..63. -/
@[irreducible] def userSlots : Finset (Nat × Nat) := userDirs ×ˢ Finset.range 1024

theorem mem_userDirs {dir : Nat} : dir ∈ userDirs ↔ 16 ≤ dir ∧ dir < 1024 := by
  simp [userDirs]

theorem mem_userSlots {dir index : Nat} :
    (dir, index) ∈ userSlots ↔ dir ∈ userDirs ∧ index < 1024 := by
  simp [userSlots]

/-- The frames `mem_init` marked free. -/
structure Layout where
  first : Nat
  last : Nat
  lowMem_le_first : lowMem ≤ first
  last_le : last ≤ lowMem + pagingPages

def Layout.Managed (layout : Layout) (frame : Nat) : Prop :=
  layout.first ≤ frame ∧ frame < layout.last

structure View where
  memMap : Nat → UInt8
  dirs : Nat → Word
  entries : Nat → Nat → Word

namespace View

def tables (view : View) (dir : Nat) : Option Nat :=
  Word.target (view.dirs dir)

def mappings (view : View) (slot : Nat × Nat) : Option Nat :=
  Word.target (view.entries slot.1 slot.2)

/-- How many user pages map `frame`. -/
def mapCount (view : View) (frame : Nat) : Nat :=
  refs userSlots view.mappings frame

/-- How many directory entries use `frame` as their page table. -/
def tableCount (view : View) (frame : Nat) : Nat :=
  refs userDirs view.tables frame

/-- The `mem_map` entry of a frame. -/
def count (view : View) (frame : Nat) : Nat :=
  (view.memMap (mapNr frame)).toNat

def setCount (view : View) (frame : Nat) (value : UInt8) : View :=
  { view with
    memMap := fun nr =>
      if nr = mapNr frame then value else view.memMap nr }

def setDir (view : View) (dir : Nat) (word : Word) : View :=
  { view with
    dirs := fun other => if other = dir then word else view.dirs other }

def setEntry (view : View) (dir index : Nat) (word : Word) : View :=
  { view with
    entries := fun otherDir otherIndex =>
      if otherDir = dir ∧ otherIndex = index then word
      else view.entries otherDir otherIndex }

@[simp] theorem setCount_entries (view : View) (frame : Nat)
    (value : UInt8) : (view.setCount frame value).entries = view.entries := rfl

@[simp] theorem setEntry_same (view : View) (dir index : Nat) (word : Word) :
    (view.setEntry dir index word).entries dir index = word := by
  simp [setEntry]

theorem setEntry_other {view : View} {dir index : Nat} {word : Word}
    {slot : Nat × Nat} (different : slot ≠ (dir, index)) :
    (view.setEntry dir index word).entries slot.1 slot.2 =
      view.entries slot.1 slot.2 := by
  have apart : ¬ (slot.1 = dir ∧ slot.2 = index) := by
    intro same
    exact different (Prod.ext same.1 same.2)
  simp [setEntry, apart]

theorem setEntry_mappings (view : View) (dir index : Nat) (word : Word)
    (slot : Nat × Nat) :
    (view.setEntry dir index word).mappings slot =
      if slot = (dir, index) then Word.target word
      else view.mappings slot := by
  by_cases same : slot = (dir, index)
  · subst same
    simp [mappings]
  · simp only [same, if_false, mappings, setEntry_other same]

@[simp] theorem setCount_mappings (view : View) (frame : Nat)
    (value : UInt8) :
    (view.setCount frame value).mappings = view.mappings := rfl

@[simp] theorem setCount_mapCount (view : View) (frame other : Nat)
    (value : UInt8) :
    (view.setCount frame value).mapCount other = view.mapCount other := rfl

@[simp] theorem setCount_tableCount (view : View) (frame other : Nat)
    (value : UInt8) :
    (view.setCount frame value).tableCount other = view.tableCount other := rfl

@[simp] theorem setEntry_tableCount (view : View) (dir index : Nat)
    (word : Word) (other : Nat) :
    (view.setEntry dir index word).tableCount other =
      view.tableCount other := rfl

@[simp] theorem setDir_mapCount (view : View) (dir : Nat) (word : Word)
    (other : Nat) :
    (view.setDir dir word).mapCount other = view.mapCount other := rfl

@[simp] theorem setEntry_count (view : View) (dir index : Nat)
    (word : Word) (other : Nat) :
    (view.setEntry dir index word).count other = view.count other := rfl

@[simp] theorem setDir_count (view : View) (dir : Nat) (word : Word)
    (other : Nat) :
    (view.setDir dir word).count other = view.count other := rfl

theorem setCount_count {view : View} {frame other : Nat} {value : UInt8}
    (high : lowMem ≤ frame) (otherHigh : lowMem ≤ other) :
    (view.setCount frame value).count other =
      if other = frame then value.toNat else view.count other := by
  have index : mapNr other = mapNr frame ↔ other = frame := by
    unfold mapNr
    omega
  unfold count setCount
  by_cases same : other = frame
  · simp [same]
  · simp [same, index]

/-- The count of a frame's mappings when one entry is rewritten. -/
theorem setEntry_mapCount (view : View) {dir index : Nat} (word : Word)
    (member : (dir, index) ∈ userSlots) (frame : Nat) :
    (view.setEntry dir index word).mapCount frame +
        weight (Word.target (view.entries dir index)) frame =
      view.mapCount frame + weight (Word.target word) frame := by
  have moved := refs_redirect view.mappings
    (view.setEntry dir index word).mappings member
    (by
      intro slot _ different
      unfold mappings
      rw [setEntry_other different]) frame
  simpa [mapCount, mappings] using moved

theorem setDir_tableCount (view : View) {dir : Nat} (word : Word)
    (member : dir ∈ userDirs) (frame : Nat) :
    (view.setDir dir word).tableCount frame +
        weight (Word.target (view.dirs dir)) frame =
      view.tableCount frame + weight (Word.target word) frame := by
  have moved := refs_redirect view.tables
    (view.setDir dir word).tables member
    (by
      intro other _ different
      simp [tables, setDir, different]) frame
  simpa [tableCount, tables, setDir] using moved

end View

/-- `mem_map` is exact for the frames of `layout`, `holds` being the frames
the kernel has taken from `get_free_page` and not yet given away. -/
structure Exact (layout : Layout) (view : View) (holds : Nat → Nat) :
    Prop where
  count : ∀ frame, layout.Managed frame →
    view.count frame =
      view.mapCount frame + view.tableCount frame + holds frame
  /-- A held frame or a page table has that one use only. -/
  single : ∀ frame, view.tableCount frame + holds frame ≤ 1
  apart : ∀ frame, 0 < view.tableCount frame + holds frame →
    view.mapCount frame = 0
  owned : ∀ frame, 0 < view.tableCount frame + holds frame →
    layout.Managed frame
  reserved : ∀ nr, nr < pagingPages → ¬ layout.Managed (lowMem + nr) →
    view.memMap nr ≠ 0
  frames : ∀ slot ∈ userSlots, ∀ frame, view.mappings slot = some frame →
    layout.Managed frame ∨ frame < lowMem
  /-- Every task sees a frame at the same offset of its window. -/
  aligned : ∀ first ∈ userSlots, ∀ second ∈ userSlots, ∀ frame,
    layout.Managed frame → view.mappings first = some frame →
      view.mappings second = some frame →
        first.1 % 16 = second.1 % 16 ∧ first.2 = second.2
  exclusive : ∀ slot ∈ userSlots, ∀ frame,
    view.mappings slot = some frame →
      (view.entries slot.1 slot.2).writable = true →
        layout.Managed frame ∧ view.mapCount frame = 1

namespace Layout.Managed

variable {layout : Layout} {frame : Nat}

theorem lowMem_le (managed : layout.Managed frame) : lowMem ≤ frame :=
  le_trans layout.lowMem_le_first managed.1

theorem lt_pages (managed : layout.Managed frame) :
    frame < lowMem + pagingPages :=
  lt_of_lt_of_le managed.2 layout.last_le

theorem small (managed : layout.Managed frame) : frame < 2 ^ 20 := by
  have := managed.lt_pages
  unfold lowMem pagingPages at this
  omega

end Layout.Managed

namespace Exact

variable {layout : Layout} {view : View} {holds : Nat → Nat}

/-- A mapped frame that is not below `LOW_MEM` is managed. -/
theorem managed_of_mapped (exact : Exact layout view holds)
    {slot : Nat × Nat} (member : slot ∈ userSlots) {frame : Nat}
    (maps : view.mappings slot = some frame) (high : lowMem ≤ frame) :
    layout.Managed frame := by
  rcases exact.frames slot member frame maps with managed | low
  · exact managed
  · exact absurd high (Nat.not_le.mpr low)

/-- No frame has more mappings than there are windows. -/
theorem mapCount_le (exact : Exact layout view holds) {frame : Nat}
    (managed : layout.Managed frame) : view.mapCount frame ≤ 63 := by
  have bound : refs userSlots view.mappings frame ≤
      (Finset.Ico 1 64).card := by
    apply refs_le_of_separated _ fun slot => slot.1 / 16
    · rintro ⟨dir, index⟩ member
      simp only [mem_userSlots, mem_userDirs, Finset.mem_Ico] at member ⊢
      omega
    · intro first inFirst second inSecond mapsFirst mapsSecond sameWindow
      obtain ⟨sameDir, sameIndex⟩ := exact.aligned first inFirst second
        inSecond frame managed mapsFirst mapsSecond
      have dirs : first.1 = second.1 := by omega
      exact Prod.ext dirs sameIndex
  simpa [View.mapCount] using bound

/-- The count byte never gets near its overflow. -/
theorem count_le (exact : Exact layout view holds) {frame : Nat}
    (managed : layout.Managed frame) : view.count frame ≤ 64 := by
  have total := exact.count frame managed
  have mapped := exact.mapCount_le managed
  have single := exact.single frame
  omega

theorem mapCount_pos {slot : Nat × Nat}
    (member : slot ∈ userSlots) {frame : Nat}
    (maps : view.mappings slot = some frame) :
    0 < view.mapCount frame :=
  refs_pos_iff.mpr ⟨slot, member, maps⟩

theorem tableCount_pos {dir : Nat} (member : dir ∈ userDirs) {frame : Nat}
    (names : view.tables dir = some frame) :
    0 < view.tableCount frame :=
  refs_pos_iff.mpr ⟨dir, member, names⟩

/-- A page table is never mapped as a page. -/
theorem table_not_mapped (exact : Exact layout view holds) {dir : Nat}
    (member : dir ∈ userDirs) {slot : Nat × Nat} (slotMember : slot ∈ userSlots)
    {frame : Nat} (names : view.tables dir = some frame) :
    view.mappings slot ≠ some frame := by
  intro maps
  have used := tableCount_pos member names
  have none := exact.apart frame (by omega)
  have some := mapCount_pos slotMember maps
  omega

/-- Two directory entries never share a page table. -/
theorem table_unique (exact : Exact layout view holds) {first second : Nat}
    (inFirst : first ∈ userDirs) (inSecond : second ∈ userDirs) {frame : Nat}
    (namesFirst : view.tables first = some frame)
    (namesSecond : view.tables second = some frame) : first = second := by
  have single := exact.single frame
  have atMostOne : view.tableCount frame ≤ 1 := by omega
  exact refs_le_one_iff.mp atMostOne first inFirst second inSecond
    namesFirst namesSecond

end Exact

/-- The holds once the kernel has taken `frame`. -/
def take (holds : Nat → Nat) (frame : Nat) : Nat → Nat :=
  fun other => if other = frame then holds other + 1 else holds other

/-- The holds once the kernel has given `frame` away. -/
def give (holds : Nat → Nat) (frame : Nat) : Nat → Nat :=
  fun other => if other = frame then holds other - 1 else holds other

@[simp] theorem give_take (holds : Nat → Nat) (frame : Nat) :
    give (take holds frame) frame = holds := by
  funext other
  by_cases same : other = frame
  · simp [give, take, same]
  · simp [give, take, same]

theorem take_pos (holds : Nat → Nat) (frame : Nat) :
    0 < take holds frame frame := by
  simp [take]

namespace Exact

variable {layout : Layout} {view : View} {holds : Nat → Nat}

/-- Only the counts of managed frames ever change. -/
theorem reserved_setCount (exact : Exact layout view holds) {frame : Nat}
    (managed : layout.Managed frame) (value : UInt8) :
    ∀ nr, nr < pagingPages → ¬ layout.Managed (lowMem + nr) →
      (view.setCount frame value).memMap nr ≠ 0 := by
  intro nr inRange unmanaged
  have different : nr ≠ mapNr frame := by
    intro same
    apply unmanaged
    have low := managed.lowMem_le
    have back : lowMem + nr = frame := by
      unfold mapNr at same
      omega
    rw [back]
    exact managed
  show (if nr = mapNr frame then value else view.memMap nr) ≠ 0
  rw [if_neg different]
  exact exact.reserved nr inRange unmanaged

/-- `get_free_page`: a frame with count zero becomes held. -/
theorem alloc (exact : Exact layout view holds) {frame : Nat}
    (managed : layout.Managed frame) (free : view.count frame = 0) :
    Exact layout (view.setCount frame 1) (take holds frame) := by
  have unused := exact.count frame managed
  refine { exact with count := ?_, single := ?_, apart := ?_, owned := ?_, reserved := ?_ }
  · intro other otherManaged
    have total := exact.count other otherManaged
    rw [View.setCount_count managed.lowMem_le otherManaged.lowMem_le]
    by_cases same : other = frame
    · subst same
      simp [take]
      omega
    · simpa [take, same] using total
  · intro other
    have single := exact.single other
    by_cases same : other = frame
    · subst same
      simp [take]
      omega
    · simpa [take, same] using single
  · intro other taken
    by_cases same : other = frame
    · subst same
      simp
      omega
    · exact exact.apart other (by simpa [take, same] using taken)
  · intro other taken
    by_cases same : other = frame
    · subst same
      exact managed
    · exact exact.owned other (by simpa [take, same] using taken)
  · exact exact.reserved_setCount managed 1

/-- `free_page` by the holder. -/
theorem release (exact : Exact layout view holds) {frame : Nat}
    (held : 0 < holds frame) :
    Exact layout (view.setCount frame 0) (give holds frame) := by
  have managed := exact.owned frame (by omega)
  have single := exact.single frame
  have unmapped := exact.apart frame (by omega)
  refine { exact with count := ?_, single := ?_, apart := ?_, owned := ?_, reserved := ?_ }
  · intro other otherManaged
    have total := exact.count other otherManaged
    rw [View.setCount_count managed.lowMem_le otherManaged.lowMem_le]
    by_cases same : other = frame
    · subst same
      simp [give]
      omega
    · simpa [give, same] using total
  · intro other
    have otherSingle := exact.single other
    by_cases same : other = frame
    · subst same
      simp [give]
      omega
    · simpa [give, same] using otherSingle
  · intro other taken
    by_cases same : other = frame
    · subst same
      simpa using unmapped
    · exact exact.apart other (by simpa [give, same] using taken)
  · intro other taken
    by_cases same : other = frame
    · subst same
      exact managed
    · exact exact.owned other (by simpa [give, same] using taken)
  · exact exact.reserved_setCount managed 0

/-- A held frame becomes a page table. -/
theorem install (exact : Exact layout view holds) {frame dir : Nat}
    (held : 0 < holds frame) (member : dir ∈ userDirs)
    (absent : (view.dirs dir).present = false) :
    Exact layout (view.setDir dir (Word.user frame)) (give holds frame) := by
  have managed := exact.owned frame (by omega)
  have before : Word.target (view.dirs dir) = none := by
    simp [Word.target, absent]
  have moved (other : Nat) :
      (view.setDir dir (Word.user frame)).tableCount other =
        view.tableCount other + weight (some frame) other := by
    have := View.setDir_tableCount view (Word.user frame)
      member other
    rwa [before, Word.target_user managed.small, weight_none,
      Nat.add_zero] at this
  have sum (other : Nat) :
      (view.setDir dir (Word.user frame)).tableCount other +
          give holds frame other =
        view.tableCount other + holds other := by
    rw [moved]
    by_cases same : other = frame
    · subst same
      simp [give]
      omega
    · simp [give, same, weight_of_ne (Ne.symm same)]
  refine { exact with count := ?_, single := ?_, apart := ?_, owned := ?_ }
  · intro other otherManaged
    have total := exact.count other otherManaged
    have same := sum other
    simp only [View.setDir_count, View.setDir_mapCount]
    omega
  · intro other
    rw [sum]
    exact exact.single other
  · intro other used
    rw [sum] at used
    exact exact.apart other used
  · intro other used
    rw [sum] at used
    exact exact.owned other used

/-- A page table with no page left in it goes back to the pool. -/
theorem uninstall (exact : Exact layout view holds) {frame dir : Nat}
    (member : dir ∈ userDirs) (names : view.tables dir = some frame) :
    Exact layout ((view.setDir dir 0#32).setCount frame 0) holds := by
  have used := tableCount_pos member names
  have managed := exact.owned frame (by omega)
  have single := exact.single frame
  have unmapped := exact.apart frame (by omega)
  have moved (other : Nat) :
      (view.setDir dir 0#32).tableCount other + weight (some frame) other =
        view.tableCount other := by
    have := View.setDir_tableCount view 0#32 member other
    rwa [show Word.target (view.dirs dir) = some frame from names,
      Word.target_zero, weight_none, Nat.add_zero] at this
  refine { exact with count := ?_, single := ?_, apart := ?_, owned := ?_, reserved := ?_ }
  · intro other otherManaged
    have total := exact.count other otherManaged
    have change := moved other
    rw [View.setCount_count managed.lowMem_le otherManaged.lowMem_le]
    by_cases same : other = frame
    · subst same
      simp at change ⊢
      omega
    · rw [weight_of_ne (Ne.symm same)] at change
      simp only [same, if_false, View.setDir_count, View.setCount_mapCount,
        View.setDir_mapCount, View.setCount_tableCount]
      omega
  · intro other
    have otherSingle := exact.single other
    have change := moved other
    simp only [View.setCount_tableCount]
    omega
  · intro other taken
    have change := moved other
    simp only [View.setCount_tableCount] at taken
    exact exact.apart other (by omega)
  · intro other taken
    have change := moved other
    simp only [View.setCount_tableCount] at taken
    exact exact.owned other (by omega)
  · exact exact.reserved_setCount managed 0

/-- `put_page`: a held frame becomes the page at an address without one. -/
theorem place (exact : Exact layout view holds) {frame dir index : Nat}
    (held : 0 < holds frame) (member : (dir, index) ∈ userSlots)
    (absent : (view.entries dir index).present = false) :
    Exact layout (view.setEntry dir index (Word.user frame))
      (give holds frame) := by
  have managed := exact.owned frame (by omega)
  have single := exact.single frame
  have unmapped := exact.apart frame (by omega)
  have before : Word.target (view.entries dir index) = none := by
    simp [Word.target, absent]
  have after := Word.target_user managed.small
  have moved (other : Nat) :
      (view.setEntry dir index (Word.user frame)).mapCount other =
        view.mapCount other + weight (some frame) other := by
    have := View.setEntry_mapCount view (Word.user frame)
      member other
    rwa [before, after, weight_none, Nat.add_zero] at this
  have elsewhere : ∀ slot ∈ userSlots, view.mappings slot ≠ some frame :=
    refs_eq_zero_iff.mp unmapped
  refine { exact with
    count := ?_, single := ?_, apart := ?_, owned := ?_, frames := ?_,
    aligned := ?_, exclusive := ?_ }
  · intro other otherManaged
    have total := exact.count other otherManaged
    simp only [View.setEntry_count, View.setEntry_tableCount, moved]
    by_cases same : other = frame
    · subst same
      simp [give]
      omega
    · simpa [give, same, weight_of_ne (Ne.symm same)] using total
  · intro other
    have otherSingle := exact.single other
    unfold give
    simp only [View.setEntry_tableCount]
    split <;> omega
  · intro other used
    rw [moved]
    by_cases same : other = frame
    · subst same
      simp [give] at used
      omega
    · simp only [give, same, if_false, View.setEntry_tableCount] at used
      simp [weight_of_ne (Ne.symm same), exact.apart other used]
  · intro other used
    apply exact.owned other
    unfold give at used
    simp only [View.setEntry_tableCount] at used
    split at used <;> omega
  · intro slot slotMember other maps
    rw [View.setEntry_mappings] at maps
    split at maps
    · rw [after, Option.some.injEq] at maps
      exact .inl (maps ▸ managed)
    · exact exact.frames slot slotMember other maps
  · intro first inFirst second inSecond other otherManaged mapsFirst mapsSecond
    rw [View.setEntry_mappings] at mapsFirst mapsSecond
    split at mapsFirst <;> rename_i atFirst <;>
      split at mapsSecond <;> rename_i atSecond
    · rw [atFirst, atSecond]
      exact ⟨rfl, rfl⟩
    · rw [after, Option.some.injEq] at mapsFirst
      exact (elsewhere second inSecond (mapsFirst ▸ mapsSecond)).elim
    · rw [after, Option.some.injEq] at mapsSecond
      exact (elsewhere first inFirst (mapsSecond ▸ mapsFirst)).elim
    · exact exact.aligned first inFirst second inSecond other otherManaged
        mapsFirst mapsSecond
  · intro slot slotMember other maps isWritable
    rw [View.setEntry_mappings] at maps
    rw [moved]
    split at maps <;> rename_i here
    · rw [after, Option.some.injEq] at maps
      subst maps
      refine ⟨managed, ?_⟩
      simp [unmapped]
    · rw [View.setEntry_other here] at isWritable
      have different : frame ≠ other := by
        intro same
        exact elsewhere slot slotMember (same ▸ maps)
      rw [weight_of_ne different]
      exact exact.exclusive slot slotMember other maps isWritable

/-- Rewriting an entry's flags.  It may become writable only where its
mapping is the frame's only one. -/
theorem restamp (exact : Exact layout view holds) {dir index : Nat}
    {word : Word}
    (sameTarget : Word.target word = Word.target (view.entries dir index))
    (keeps : word.writable = true →
      (view.entries dir index).writable = true ∨
        ∀ frame, view.mappings (dir, index) = some frame →
          layout.Managed frame ∧ view.mapCount frame = 1) :
    Exact layout (view.setEntry dir index word) holds := by
  have sameMappings : (view.setEntry dir index word).mappings =
      view.mappings := by
    funext slot
    rw [View.setEntry_mappings]
    split <;> rename_i here
    · rw [here, sameTarget]
      rfl
    · rfl
  have sameCount (other : Nat) :
      (view.setEntry dir index word).mapCount other =
        view.mapCount other := by
    unfold View.mapCount
    rw [sameMappings]
  refine { exact with
    count := ?_, apart := ?_, frames := ?_, aligned := ?_, exclusive := ?_ }
  · intro other managed
    rw [sameCount]
    exact exact.count other managed
  · intro other used
    rw [sameCount]
    exact exact.apart other used
  · rw [sameMappings]
    exact exact.frames
  · rw [sameMappings]
    exact exact.aligned
  · intro slot slotMember other maps isWritable
    rw [sameMappings] at maps
    rw [sameCount]
    by_cases here : slot = (dir, index)
    · subst here
      rw [View.setEntry_same] at isWritable
      rcases keeps isWritable with before | alone
      · exact exact.exclusive _ slotMember other maps before
      · exact alone other maps
    · rw [View.setEntry_other here] at isWritable
      exact exact.exclusive slot slotMember other maps isWritable

/-- `un_wp_page` in place: the frame's only mapping becomes writable. -/
theorem unprotect (exact : Exact layout view holds) {frame dir index : Nat}
    (member : (dir, index) ∈ userSlots)
    (maps : view.mappings (dir, index) = some frame)
    (managed : layout.Managed frame) (alone : view.count frame = 1) :
    Exact layout
      (view.setEntry dir index (Word.unprotect (view.entries dir index)))
      holds := by
  have total := exact.count frame managed
  have mapped := mapCount_pos member maps
  refine exact.restamp (Word.target_unprotect _) fun _ => .inr ?_
  intro other otherMaps
  rw [maps, Option.some.injEq] at otherMaps
  subst otherMaps
  exact ⟨managed, by omega⟩

/-- `copy_page_tables` and `try_to_share`: an empty entry gets a read-only
copy of a read-only entry at the same offset of another window. -/
theorem duplicate (exact : Exact layout view holds)
    {frame dir index source : Nat} {word : Word}
    (sourceMember : (source, index) ∈ userSlots)
    (member : (dir, index) ∈ userSlots)
    (sourceMaps : view.mappings (source, index) = some frame)
    (sourceProtected : (view.entries source index).writable = false)
    (sameOffset : dir % 16 = source % 16)
    (managed : layout.Managed frame)
    (absent : (view.entries dir index).present = false)
    (maps : Word.target word = some frame)
    (isProtected : word.writable = false) :
    Exact layout
      ((view.setEntry dir index word).setCount frame
        (view.memMap (mapNr frame) + 1)) holds := by
  have before : Word.target (view.entries dir index) = none := by
    simp [Word.target, absent]
  have moved (other : Nat) :
      (view.setEntry dir index word).mapCount other =
        view.mapCount other + weight (some frame) other := by
    have := View.setEntry_mapCount view word member other
    rwa [before, maps, weight_none, Nat.add_zero] at this
  have mapped := mapCount_pos sourceMember sourceMaps
  have unused : view.tableCount frame + holds frame = 0 := by
    by_contra used
    have := exact.apart frame (by omega)
    omega
  have bound := exact.count_le managed
  have counted : (view.memMap (mapNr frame) + 1).toNat =
      view.count frame + 1 := by
    rw [UInt8.toNat_add]
    unfold View.count at bound ⊢
    have one : (1 : UInt8).toNat = 1 := rfl
    omega
  refine { exact with
    count := ?_, apart := ?_, reserved := ?_, frames := ?_, aligned := ?_,
    exclusive := ?_ }
  · intro other otherManaged
    have total := exact.count other otherManaged
    rw [View.setCount_count managed.lowMem_le otherManaged.lowMem_le]
    simp only [View.setCount_mapCount, View.setCount_tableCount,
      View.setEntry_tableCount, View.setEntry_count, moved]
    by_cases same : other = frame
    · subst same
      simp only [if_true, weight_self, counted]
      omega
    · simpa [same, weight_of_ne (Ne.symm same)] using total
  · intro other used
    simp only [View.setCount_tableCount, View.setEntry_tableCount] at used
    rw [View.setCount_mapCount, moved, exact.apart other used]
    have different : frame ≠ other := by
      intro same
      subst same
      omega
    rw [weight_of_ne different]
  · exact exact.reserved_setCount managed _
  · intro slot slotMember other slotMaps
    rw [View.setCount_mappings, View.setEntry_mappings] at slotMaps
    split at slotMaps
    · rw [maps, Option.some.injEq] at slotMaps
      exact .inl (slotMaps ▸ managed)
    · exact exact.frames slot slotMember other slotMaps
  · intro first inFirst second inSecond other otherManaged mapsFirst mapsSecond
    rw [View.setCount_mappings, View.setEntry_mappings] at mapsFirst mapsSecond
    split at mapsFirst <;> rename_i atFirst <;>
      split at mapsSecond <;> rename_i atSecond
    · rw [atFirst, atSecond]
      exact ⟨rfl, rfl⟩
    · rw [maps, Option.some.injEq] at mapsFirst
      subst mapsFirst
      have := exact.aligned _ sourceMember second inSecond frame managed
        sourceMaps mapsSecond
      rw [atFirst]
      exact ⟨sameOffset.trans this.1, this.2⟩
    · rw [maps, Option.some.injEq] at mapsSecond
      subst mapsSecond
      have := exact.aligned first inFirst _ sourceMember frame managed
        mapsFirst sourceMaps
      rw [atSecond]
      exact ⟨this.1.trans sameOffset.symm, this.2⟩
    · exact exact.aligned first inFirst second inSecond other otherManaged
        mapsFirst mapsSecond
  · intro slot slotMember other slotMaps isWritable
    rw [View.setCount_mappings, View.setEntry_mappings] at slotMaps
    rw [View.setCount_entries] at isWritable
    split at slotMaps <;> rename_i here
    · subst here
      rw [View.setEntry_same, isProtected] at isWritable
      cases isWritable
    · rw [View.setEntry_other here] at isWritable
      have alone := exact.exclusive slot slotMember other slotMaps isWritable
      have different : frame ≠ other := by
        intro same
        subst same
        have sameSlot := refs_le_one_iff.mp (le_of_eq alone.2) slot slotMember
          _ sourceMember slotMaps sourceMaps
        subst sameSlot
        rw [sourceProtected] at isWritable
        cases isWritable
      rw [View.setCount_mapCount, moved, weight_of_ne different]
      exact alone

/-- A page below `LOW_MEM` is mapped read-only and not counted. -/
theorem placeLow (exact : Exact layout view holds) {frame dir index : Nat}
    {word : Word} (member : (dir, index) ∈ userSlots)
    (absent : (view.entries dir index).present = false)
    (maps : Word.target word = some frame) (low : frame < lowMem)
    (isProtected : word.writable = false) :
    Exact layout (view.setEntry dir index word) holds := by
  have before : Word.target (view.entries dir index) = none := by
    simp [Word.target, absent]
  have notManaged {other : Nat} (managed : layout.Managed other) :
      frame ≠ other := by
    have := managed.lowMem_le
    omega
  have moved (other : Nat) :
      (view.setEntry dir index word).mapCount other =
        view.mapCount other + weight (some frame) other := by
    have := View.setEntry_mapCount view word member other
    rwa [before, maps, weight_none, Nat.add_zero] at this
  refine { exact with
    count := ?_, apart := ?_, frames := ?_, aligned := ?_, exclusive := ?_ }
  · intro other managed
    rw [moved, weight_of_ne (notManaged managed)]
    exact exact.count other managed
  · intro other used
    rw [moved, weight_of_ne (notManaged (exact.owned other used))]
    exact exact.apart other used
  · intro slot slotMember other slotMaps
    rw [View.setEntry_mappings] at slotMaps
    split at slotMaps
    · rw [maps, Option.some.injEq] at slotMaps
      exact .inr (slotMaps ▸ low)
    · exact exact.frames slot slotMember other slotMaps
  · intro first inFirst second inSecond other managed mapsFirst mapsSecond
    have different := notManaged managed
    rw [View.setEntry_mappings, maps] at mapsFirst mapsSecond
    split at mapsFirst
    · exact (different (Option.some.inj mapsFirst)).elim
    · split at mapsSecond
      · exact (different (Option.some.inj mapsSecond)).elim
      · exact exact.aligned first inFirst second inSecond other managed
          mapsFirst mapsSecond
  · intro slot slotMember other slotMaps isWritable
    rw [View.setEntry_mappings] at slotMaps
    split at slotMaps <;> rename_i here
    · subst here
      rw [View.setEntry_same, isProtected] at isWritable
      cases isWritable
    · rw [View.setEntry_other here] at isWritable
      have alone := exact.exclusive slot slotMember other slotMaps isWritable
      rw [moved, weight_of_ne (notManaged alone.1)]
      exact alone

/-- Clearing an entry takes its mapping out of the count. -/
theorem clear (exact : Exact layout view holds) {dir index : Nat}
    (member : (dir, index) ∈ userSlots) (counts : Nat → UInt8)
    (others : ∀ nr, view.mappings (dir, index) ≠ some (lowMem + nr) →
      counts nr = view.memMap nr)
    (dropped : ∀ frame, layout.Managed frame →
      view.mappings (dir, index) = some frame →
        (counts (mapNr frame)).toNat + 1 = view.count frame) :
    Exact layout
      { view.setEntry dir index 0#32 with memMap := counts } holds := by
  let after : View := { view.setEntry dir index 0#32 with memMap := counts }
  have moved (other : Nat) :
      after.mapCount other + weight (view.mappings (dir, index)) other =
        view.mapCount other := by
    have := View.setEntry_mapCount view 0#32 member other
    rwa [Word.target_zero, weight_none, Nat.add_zero] at this
  have smaller (other : Nat) : after.mapCount other ≤ view.mapCount other := by
    have := moved other
    omega
  have survives {slot : Nat × Nat} {other : Nat}
      (maps : after.mappings slot = some other) :
      slot ≠ (dir, index) ∧ view.mappings slot = some other := by
    have := View.setEntry_mappings view dir index 0#32 slot
    have same : after.mappings slot =
        (view.setEntry dir index 0#32).mappings slot := rfl
    rw [same, this] at maps
    split at maps
    · simp at maps
    · exact ⟨‹_›, maps⟩
  refine { exact with
    count := ?_, apart := ?_, reserved := ?_, frames := ?_, aligned := ?_,
    exclusive := ?_ }
  · intro other managed
    have total := exact.count other managed
    have change := moved other
    have tables : after.tableCount other = view.tableCount other := rfl
    show (counts (mapNr other)).toNat =
      after.mapCount other + after.tableCount other + holds other
    by_cases here : view.mappings (dir, index) = some other
    · rw [here, weight_self] at change
      have := dropped other managed here
      omega
    · have zero : weight (view.mappings (dir, index)) other = 0 := by
        simp [weight, here]
      have inverse : lowMem + mapNr other = other := by
        have := managed.lowMem_le
        unfold mapNr
        omega
      rw [others (mapNr other) (by rwa [inverse])]
      unfold View.count at total
      omega
  · intro other used
    have := exact.apart other used
    have := smaller other
    show after.mapCount other = 0
    omega
  · intro nr inRange unmanaged
    have before := exact.reserved nr inRange unmanaged
    show counts nr ≠ 0
    rw [others nr]
    · exact before
    · intro maps
      rcases exact.frames _ member _ maps with managed | low
      · exact unmanaged managed
      · omega
  · intro slot slotMember other maps
    exact exact.frames slot slotMember other (survives maps).2
  · intro first inFirst second inSecond other managed mapsFirst mapsSecond
    exact exact.aligned first inFirst second inSecond other managed
      (survives mapsFirst).2 (survives mapsSecond).2
  · intro slot slotMember other maps isWritable
    obtain ⟨different, before⟩ := survives maps
    have sameEntry : after.entries slot.1 slot.2 =
        view.entries slot.1 slot.2 := View.setEntry_other different
    have alone := exact.exclusive slot slotMember other before
      (sameEntry ▸ isWritable)
    have stillMapped : 0 < after.mapCount other :=
      mapCount_pos slotMember maps
    have := smaller other
    exact ⟨alone.1, by show after.mapCount other = 1; omega⟩

end Exact

end Linux011.Mm
