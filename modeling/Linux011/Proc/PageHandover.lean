import Linux011.Library.Histories
import Linux011.Proc.ArgumentLimit

/-!
# The hand-over of the argument pages

From the point of no return on, the pages of the array become pages of the
new image.  `change_ldt` does not look at what `put_page` returns; a page for
the page table is there because the old image has just given up one.
-/

namespace Linux011.Proc

open Linux011.Mm Bytes Coop Prog

variable {layout : Layout} {nr : Nat} {exec next : Exec} {holds : Nat → Nat}
  {around : Surroundings}

/-! ## Pages of a window -/

/-- The page at an address is the frame. -/
def Exec.Maps (exec : Exec) (address frame : Nat) : Prop :=
  Word.target (exec.system.memory.entryAt address) = some frame

/-- The frame is one page of the window of slot `nr`, and no other. -/
def Exec.MapsOnce (exec : Exec) (nr frame : Nat) : Prop :=
  ∃ address, Fault.At nr address ∧ exec.Maps address frame ∧
    ∀ other, Fault.At nr other → exec.Maps other frame →
      other / 4096 = address / 4096

/-- The accounts of memory are right, and every task is in its window. -/
structure Sound (layout : Layout) (exec : Exec) : Prop where
  valid : ∃ holds, Valid layout exec.system.memory holds
  windowed : ∀ other p, exec.system.task other = some p →
    p.startCode = windowBase other

/-- What the other tasks may do while the task sleeps: they keep the accounts
right, and the pages of its window where they are. -/
structure Spares (layout : Layout) (nr : Nat) (exec next : Exec) : Prop
    extends Elsewhere layout nr exec next where
  sound : Sound layout exec → Sound layout next
  maps : ∀ address frame, Fault.At nr address → exec.Maps address frame →
    next.Maps address frame

theorem Exec.Maps.present {address frame : Nat}
    (maps : exec.Maps address frame) :
    (exec.system.memory.entryAt address).present = true :=
  (Word.target_eq_some.mp maps).1

/-- The task runs in the whole of its window, whose pages are pages of main
memory. -/
structure Seated (layout : Layout) (nr : Nat) (exec : Exec) : Prop where
  isTask : 1 ≤ nr ∧ nr < 64
  sound : Sound layout exec
  own : ∃ p, exec.system.task nr = some p ∧ p.startCode = windowBase nr ∧
    p.dataSegment = ⟨windowBase nr, 0x4000000⟩
  pages : exec.Paged layout nr

theorem Seated.elsewhere (seated : Seated layout nr exec)
    (other : Spares layout nr exec next) : Seated layout nr next where
  isTask := seated.isTask
  sound := other.sound seated.sound
  own := by
    obtain ⟨p, isTask, start, segment⟩ := seated.own
    obtain ⟨q, isNext, same⟩ := other.image p isTask
    exact ⟨q, isNext, (congrArg Image.startCode same).trans start,
      (congrArg Image.dataSegment same).trans segment⟩
  pages := other.pages seated.pages

theorem Seated.setMemory (seated : Seated layout nr exec) {memory : Mm.State}
    {holds : Nat → Nat} (valid : Valid layout memory holds)
    (pages : ∀ address, Fault.At nr address →
      (memory.entryAt address).present = true → Mapped layout memory address) :
    Seated layout nr (exec.setMemory memory) :=
  ⟨seated.isTask, ⟨⟨holds, valid⟩, seated.sound.windowed⟩, seated.own, pages⟩

theorem Seated.setPage (seated : Seated layout nr exec) (i : Nat)
    (page : Option Nat) : Seated layout nr (exec.setPage i page) :=
  ⟨seated.isTask, ⟨seated.sound.valid, seated.sound.windowed⟩, seated.own,
    seated.pages⟩

theorem Sound.onTask (sound : Sound layout exec)
    {change : TaskStruct → TaskStruct}
    (same : ∀ p, (change p).startCode = p.startCode) :
    Sound layout (exec.onTask nr change) := by
  refine ⟨sound.valid, ?_⟩
  intro other q isOther
  unfold Exec.onTask System.onTask at isOther
  by_cases isSelf : other = nr
  · subst isSelf
    rw [System.setTask_same, Option.map_eq_some_iff] at isOther
    obtain ⟨p, isTask, rfl⟩ := isOther
    rw [same]
    exact sound.windowed other p isTask
  · rw [System.setTask_other isSelf] at isOther
    exact sound.windowed other q isOther

theorem Seated.onTask (seated : Seated layout nr exec)
    {change : TaskStruct → TaskStruct}
    (same : ∀ p, (change p).startCode = p.startCode ∧
      (change p).dataSegment = p.dataSegment) :
    Seated layout nr (exec.onTask nr change) := by
  obtain ⟨p, isTask, start, segment⟩ := seated.own
  exact ⟨seated.isTask, seated.sound.onTask fun p => (same p).1,
    ⟨change p, exec.task_onTask isTask change, (same p).1.trans start,
      (same p).2.trans segment⟩, seated.pages⟩

/-- A frame at one address of the window is at no other. -/
theorem Seated.mapsOnce (seated : Seated layout nr exec) {address frame : Nat}
    (inside : Fault.At nr address) (maps : exec.Maps address frame) :
    exec.MapsOnce nr frame := by
  refine ⟨address, inside, maps, ?_⟩
  intro other otherInside otherMaps
  obtain ⟨holds, valid⟩ := seated.sound.valid
  obtain ⟨_, managed⟩ := seated.pages address inside maps.present
  rw [(Word.target_eq_some.mp maps).2] at managed
  obtain ⟨sameDir, sameTable⟩ := valid.exact.aligned _
    (address_slot otherInside.isUser) _ (address_slot inside.isUser) frame
    managed otherMaps maps
  exact inside.samePage otherInside sameDir sameTable

/-! ## Accesses of the kernel -/

/-- The task is in its window, and the frame at the address. -/
def Seats (layout : Layout) (nr address frame : Nat) (exec : Exec) : Prop :=
  Seated layout nr exec ∧ exec.Maps address frame

section Access

variable {address frame offset : Nat}

theorem settle_hoare {pre : Exec → Prop} {post : Unit → Exec → Prop}
    {result : Except Fault Mm.State} {env : Exec → Exec → Prop}
    (holds : ∀ memory, result = .ok memory → ∀ exec, pre exec →
      post () (exec.setMemory memory)) :
    Hoare .any env pre (settle result).unmarked post := by
  cases result with
  | ok memory => exact ⟨holds memory rfl⟩
  | error fault =>
      cases fault with
      | panic message => exact hoare_panic trivial
      | oom memory => exact ⟨fun _ _ => trivial⟩

theorem settle_ok {α : Type} {fate : Fate} {env : Exec → Exec → Prop}
    {memory : Mm.State} {following : Unit → ExecProg α}
    {post : α → Exec → Prop} :
    (settle (.ok memory) >>= following).unmarked.wp fate env post exec ↔
      (following ()).unmarked.wp fate env post (exec.setMemory memory) :=
  Iff.rfl

/-- What the running task is, from its slot. -/
theorem myself_hoare {pre : Exec → Prop} {env : Exec → Exec → Prop} :
    Hoare .any env pre (myself nr).unmarked fun p exec =>
      pre exec ∧ exec.system.task nr = some p := by
  unfold myself
  apply hoare_unmarked_get
  intro exec isPre
  cases isTask : exec.system.task nr with
  | none => exact hoare_panic trivial
  | some p =>
      apply hoare_pure
      rintro state rfl
      exact ⟨isPre, isTask⟩

theorem loadPage_seats (inside : Fault.At nr address) {at_ : Nat}
    (atInside : Fault.At nr at_) :
    Hoare .any (Spares layout nr) (Seats layout nr address frame)
      (loadPage around nr at_).unmarked fun _ exec =>
        Seats layout nr address frame exec ∧
          Mapped layout exec.system.memory at_ := by
  have there {exec : Exec} (seats : Seats layout nr address frame exec)
      (isPresent : (exec.system.memory.entryAt at_).present = true) :
      Seats layout nr address frame exec ∧
        Mapped layout exec.system.memory at_ :=
    ⟨seats, seats.1.pages at_ atInside isPresent⟩
  unfold loadPage
  apply hoare_unmarked_get
  intro exec seats
  split <;> rename_i isPresent
  · apply hoare_pure
    rintro state rfl
    exact there seats isPresent
  · refine hoare_at seats (hoare_unmarked_bind (stays_sleep ?_) fun _ => ?_)
    · intro state next seats other
      exact ⟨seats.1.elsewhere other, other.maps _ _ inside seats.2⟩
    apply hoare_unmarked_get
    intro awake seats
    split <;> rename_i nowPresent
    · apply hoare_pure
      rintro state rfl
      exact there seats nowPresent
    · refine hoare_unmarked_bind myself_hoare fun p => ?_
      apply settle_hoare
      rintro memory loaded state ⟨rfl, isTask⟩
      obtain ⟨q, isOwn, start, _⟩ := seats.1.own
      rw [isTask, Option.some.injEq] at isOwn
      subst isOwn
      obtain ⟨holds, valid⟩ := seats.1.sound.valid
      have absent := eq_false_of_ne_true nowPresent
      have windowed : Windowed fun other =>
          (state.system.task other).map TaskStruct.paging := by
        intro other task isOther
        obtain ⟨q, isQ, rfl⟩ := Option.map_eq_some_iff.mp isOther
        exact seats.1.sound.windowed other q isQ
      have paged := @doNoPage_paged layout state.system.memory holds valid _
        windowed nr (state.programCount p) at_ p.paging
        (around.load (at_ / 4096)) start atInside absent
      rw [loaded] at paged
      dsimp only at paged
      refine ⟨⟨seats.1.setMemory paged.valid ?_, ?_⟩, paged.mapped⟩
      · intro other otherInside otherPresent
        by_cases samePage : other / 4096 = at_ / 4096
        · have mapped := paged.mapped
          unfold Mapped at mapped ⊢
          rw [entryAt_samePage samePage]
          exact mapped
        · rw [paged.entry atInside otherInside samePage] at otherPresent
          exact (paged.others absent atInside otherInside
            (seats.1.pages other otherInside otherPresent)).1
      · have different : address / 4096 ≠ at_ / 4096 := by
          intro samePage
          have isPresent := seats.2.present
          rw [entryAt_samePage samePage, absent] at isPresent
          cases isPresent
        unfold Exec.Maps
        exact (congrArg Word.target
          (paged.entry atInside inside different)).trans seats.2

/-- Within the limit of its segment the task stays in its window. -/
theorem Seated.inside (seated : Seated layout nr exec) {p : TaskStruct}
    (isTask : exec.system.task nr = some p)
    (small : offset < p.dataSegment.limit) :
    Fault.At nr (p.dataSegment.base + offset) := by
  obtain ⟨q, isOwn, _, segment⟩ := seated.own
  rw [isTask, Option.some.injEq] at isOwn
  subst isOwn
  rw [segment] at small ⊢
  exact ⟨seated.isTask, by dsimp only; omega, by dsimp only at small ⊢; omega⟩

theorem getFsByte_seats (inside : Fault.At nr address) :
    Stays .any (Spares layout nr) (Seats layout nr address frame)
      (getFsByte around nr offset) := by
  unfold getFsByte
  refine hoare_unmarked_bind myself_hoare fun p => ?_
  dsimp only
  split <;> rename_i small
  · constructor
    rintro exec ⟨seats, isTask⟩
    have loads := @loadPage_seats layout nr around address frame inside _
      (seats.1.inside isTask small)
    exact (hoare_unmarked_bind loads fun _ => hoare_unmarked_read fun _ =>
      hoare_pure fun _ loaded => loaded.1).run exec seats
  · exact hoare_panic trivial

theorem putFsByte_seats (inside : Fault.At nr address) {value : Byte} :
    Stays .any (Spares layout nr) (Seats layout nr address frame)
      (putFsByte around nr value offset) := by
  unfold putFsByte
  refine hoare_unmarked_bind myself_hoare fun p => ?_
  dsimp only
  split <;> rename_i small
  · constructor
    rintro exec ⟨seats, isTask⟩
    have atInside := seats.1.inside isTask small
    have loads := @loadPage_seats layout nr around address frame inside _
      atInside
    refine (hoare_unmarked_bind loads fun _ => ⟨?_⟩).run exec seats
    rintro loaded ⟨⟨seated, maps⟩, mapped⟩
    obtain ⟨holds, valid⟩ := seated.sound.valid
    have stored := kernelStore_spec valid atInside.isUser mapped.1 mapped.2
      value
    have target (other : Nat) :
        Word.target ((kernelStore (p.dataSegment.base + offset) value
          loaded.system.memory).entryAt other) =
            Word.target (loaded.system.memory.entryAt other) := by
      unfold State.entryAt
      rw [stored.entries]
      split
      · exact Word.target_stored _
      · rfl
    refine ⟨seated.setMemory stored.valid ?_, (target address).trans maps⟩
    intro other otherInside isPresent
    obtain ⟨wasPresent, _⟩ := Word.target_eq_some.mp
      ((target other).symm.trans (Word.target_eq_some.mpr ⟨isPresent, rfl⟩))
    exact stored.mapped (seated.pages other otherInside wasPresent)
  · exact hoare_panic trivial

theorem accesses_seats (inside : Fault.At nr address) :
    Accesses around nr fun _ program =>
      Stays .any (Spares layout nr) (Seats layout nr address frame)
        program where
  pure := fun _ => stays_pure
  bind := stays_bind
  panic := fun _ _ => stays_panic trivial
  gets := fun _ => getFsByte_seats inside
  puts := fun _ _ => putFsByte_seats inside

end Access

/-! ## The array -/

/-- The array gets no pages. -/
def Shrinks (exec next : Exec) : Prop :=
  ∀ i frame, next.page i = some frame → exec.page i = some frame

instance : Steady Shrinks where
  refl := fun _ _ _ isPage => isPage
  trans := fun first second i frame isPage =>
    first i frame (second i frame isPage)

section Shrinks

theorem settle_within {relation : Exec → Exec → Prop} [Steady relation]
    (same : ∀ exec memory, relation exec (exec.setMemory memory))
    {result : Except Fault Mm.State} : (settle result).Within relation := by
  cases result with
  | ok memory => exact within_modify fun exec => same exec memory
  | error fault =>
      cases fault with
      | panic message => exact keeps_panic
      | oom memory => exact within_bind within_cross fun _ => keeps_panic

theorem myself_within {relation : Exec → Exec → Prop} [Steady relation] :
    (myself nr).Within relation := by
  apply within_get
  intro exec
  split
  · exact within_pure _
  · exact keeps_panic

theorem settle_shrinks {result : Except Fault Mm.State} :
    (settle result).Within Shrinks :=
  settle_within fun _ _ _ _ isPage => isPage

theorem loadPage_shrinks {address : Nat} :
    (loadPage around nr address).Within Shrinks := by
  apply within_get
  intro exec
  split
  · exact within_pure ()
  apply within_bind within_sleep
  intro _
  apply within_get
  intro awake
  split
  · exact within_pure ()
  · exact within_bind myself_within fun _ => settle_shrinks

theorem accesses_shrink :
    Accesses around nr fun _ program => program.Within Shrinks where
  pure := within_pure
  bind := within_bind
  panic := fun _ _ => keeps_panic
  gets := by
    intro offset
    apply within_bind myself_within
    intro p
    dsimp only
    split
    · exact within_bind loadPage_shrinks fun _ =>
        within_get fun _ => within_pure _
    · exact keeps_panic
  puts := by
    intro value offset
    apply within_bind myself_within
    intro p
    dsimp only
    split
    · exact within_bind loadPage_shrinks fun _ =>
        within_modify fun _ _ _ isPage => isPage
    · exact keeps_panic

theorem putArgPages_shrinks {top count : Nat} :
    (putArgPages top count).Within Shrinks := by
  induction count with
  | zero => exact within_pure ()
  | succ count induction =>
      apply within_get
      intro exec
      split
      · exact within_bind (within_pure ()) fun _ => induction
      · dsimp only
        refine within_bind (within_modify ?_) fun _ => ?_
        · intro state i frame isPage
          unfold Exec.setPage at isPage
          dsimp only at isPage
          split at isPage
          · cases isPage
          · exact isPage
        · split
          · exact within_bind within_cross fun _ => induction
          · exact induction

end Shrinks

/-! ## Page by page -/

/-- Where the page with index `i` of the array goes. -/
def argAddress (nr i : Nat) : Nat := windowBase nr + 0x3fe0000 + i * 4096

/-- The pages of the array from `i` on have been put.  There is a page table
for the others, or a free page for it. -/
structure Handing (layout : Layout) (nr i : Nat) (exec : Exec) : Prop where
  seated : Seated layout nr exec
  held : ∃ holds, Valid layout exec.system.memory holds ∧
    ∀ j frame, exec.page j = some frame → 0 < holds frame
  apart : ∀ j k frame, exec.page j = some frame → exec.page k = some frame →
    j = k
  free : ∀ address, Fault.At nr address → address < argAddress nr i →
    (exec.system.memory.entryAt address).present = false
  enough : (exec.system.memory.pde (nr * 16 + 15)).present = true ∨
    ∃ spare, layout.Managed spare ∧
      exec.system.memory.view.count spare = 0

theorem argAddress_inside (isTask : 1 ≤ nr ∧ nr < 64) {i : Nat}
    (inArea : i < maxArgPages) : Fault.At nr (argAddress nr i) := by
  unfold maxArgPages at inArea
  exact ⟨isTask, by unfold argAddress; omega, by unfold argAddress; omega⟩

theorem dirIndex_argAddress (isTask : 1 ≤ nr ∧ nr < 64) {i : Nat}
    (inArea : i < maxArgPages) : dirIndex (argAddress nr i) = nr * 16 + 15 := by
  unfold maxArgPages at inArea
  unfold dirIndex argAddress windowBase
  omega

/-- One page is put in place. -/
theorem Handing.put {i frame : Nat} (handing : Handing layout nr (i + 1) exec)
    (inArea : i < maxArgPages) (isPage : exec.page i = some frame) :
    ∃ memory, putPage frame (argAddress nr i) exec.system.memory =
        (true, memory) ∧
      Handing layout nr i ((exec.setMemory memory).setPage i none) ∧
        (exec.setMemory memory).Maps (argAddress nr i) frame ∧
          ∀ address, Fault.At nr address →
            address / 4096 ≠ argAddress nr i / 4096 →
              memory.entryAt address =
                exec.system.memory.entryAt address := by
  obtain ⟨holds, valid, held⟩ := handing.held
  have isTask := handing.seated.isTask
  have inside := argAddress_inside isTask inArea
  have isDir := dirIndex_argAddress isTask inArea
  have base : windowBase nr % 4096 = 0 := by
    unfold windowBase
    omega
  have absent : (exec.system.memory.entryAt (argAddress nr i)).present =
      false := handing.free _ inside (by unfold argAddress; omega)
  have isHeld := held i frame isPage
  have managed := valid.exact.owned frame (by omega)
  have done : (putPage frame (argAddress nr i) exec.system.memory).1 = true :=
    putPage_fst (by rw [isDir]; exact handing.enough)
  obtain ⟨memory, put⟩ : ∃ memory, putPage frame (argAddress nr i)
      exec.system.memory = (true, memory) := ⟨_, Prod.ext done rfl⟩
  obtain ⟨nextValid, entries, keeps⟩ :=
    putPage_true valid inside.isUser absent isHeld put
  have here : memory.entryAt (argAddress nr i) = Word.user frame :=
    entryAt_setEntry_same entries
  have entry (address : Nat) (addressInside : Fault.At nr address)
      (different : address / 4096 ≠ argAddress nr i / 4096) :
      memory.entryAt address = exec.system.memory.entryAt address :=
    entryAt_setEntry_other entries inside addressInside different
  have pages (j : Nat) : ((exec.setMemory memory).setPage i none).page j =
      if j = i then none else exec.page j := rfl
  have seated : Seated layout nr (exec.setMemory memory) := by
    refine handing.seated.setMemory nextValid ?_
    intro address addressInside isPresent
    by_cases samePage : address / 4096 = argAddress nr i / 4096
    · exact .of_user managed ((entryAt_samePage samePage).trans here)
    · rw [entry address addressInside samePage] at isPresent
      exact ((handing.seated.pages address addressInside isPresent).stays
        addressInside.isUser (entry address addressInside samePage) keeps).1
  refine ⟨memory, put, ?_, ?_, entry⟩
  · refine
      { seated := seated.setPage i none
        held := ⟨give holds frame, nextValid, ?_⟩
        apart := ?_
        free := ?_
        enough := ?_ }
    · intro j other isOther
      rw [pages] at isOther
      split at isOther <;> rename_i notHere
      · cases isOther
      · have different : other ≠ frame := by
          rintro rfl
          exact notHere (handing.apart j i other isOther isPage)
        unfold give
        rw [if_neg different]
        exact held j other isOther
    · intro first second other isFirst isSecond
      rw [pages] at isFirst isSecond
      split at isFirst
      · cases isFirst
      · split at isSecond
        · cases isSecond
        · exact handing.apart first second other isFirst isSecond
    · intro address addressInside below
      have different : address / 4096 ≠ argAddress nr i / 4096 := by
        unfold argAddress at below ⊢
        omega
      show (memory.entryAt address).present = false
      rw [entry address addressInside different]
      refine handing.free address addressInside (lt_trans below ?_)
      unfold argAddress
      omega
    · refine .inl ?_
      rw [← isDir]
      exact State.table_of_entry (here ▸ Word.present_user frame)
  · unfold Exec.Maps
    show Word.target (memory.entryAt (argAddress nr i)) = some frame
    rw [here]
    exact Word.target_eq_some.mpr
      ⟨Word.present_user frame, Word.page_user managed.small⟩

/-- An index without a page. -/
theorem Handing.skip {i : Nat} (handing : Handing layout nr (i + 1) exec) :
    Handing layout nr i exec where
  seated := handing.seated
  held := handing.held
  apart := handing.apart
  free := by
    intro address inside below
    refine handing.free address inside (lt_trans below ?_)
    unfold argAddress
    omega
  enough := handing.enough

/-- The page with index `i` is still in the array, or in its place. -/
def Promised (nr i frame count : Nat) (exec : Exec) : Prop :=
  (i < count ∧ exec.page i = some frame) ∨
    (count ≤ i ∧ exec.Maps (argAddress nr i) frame)

theorem putArgPages_hands {env : Exec → Exec → Prop} {i frame count : Nat}
    (inArea : i < maxArgPages) (within : count ≤ maxArgPages) :
    Hoare .any env
      (fun exec => Handing layout nr count exec ∧
        Promised nr i frame count exec)
      (putArgPages (windowBase nr + 0x4000000) count).unmarked
      fun _ exec => Seats layout nr (argAddress nr i) frame exec := by
  induction count with
  | zero =>
      apply hoare_pure
      rintro exec ⟨handing, waits | ⟨_, maps⟩⟩
      · exact absurd waits.1 (Nat.not_lt_zero i)
      · exact ⟨handing.seated, maps⟩
  | succ count induction =>
      have inCount : count < maxArgPages := within
      have isAddress : windowBase nr + 0x4000000 - (maxArgPages - count) * 4096 =
          argAddress nr count := by
        unfold maxArgPages at inCount ⊢
        unfold argAddress
        omega
      unfold putArgPages
      apply hoare_unmarked_get
      rintro exec ⟨handing, promised⟩
      have goesOn := induction (le_of_lt within)
      cases isPage : exec.page count with
      | none =>
          refine hoare_at ⟨handing.skip, ?_⟩ goesOn
          rcases promised with ⟨below, isFrame⟩ | ⟨above, maps⟩
          · refine .inl ⟨?_, isFrame⟩
            refine lt_of_le_of_ne (Nat.lt_succ_iff.mp below) ?_
            rintro rfl
            rw [isPage] at isFrame
            cases isFrame
          · exact .inr ⟨le_of_lt above, maps⟩
      | some page =>
          obtain ⟨memory, put, handed, maps, others⟩ :=
            handing.put inCount isPage
          dsimp only
          rw [isAddress, put]
          refine hoare_unmarked_bind (hoare_modify ?_) fun _ => goesOn
          rintro state rfl
          refine ⟨handed, ?_⟩
          rcases promised with ⟨below, isFrame⟩ | ⟨above, isThere⟩
          · by_cases isLast : i = count
            · subst isLast
              rw [isPage, Option.some.injEq] at isFrame
              subst isFrame
              exact .inr ⟨le_refl i, maps⟩
            · refine .inl ⟨by omega, ?_⟩
              exact (if_neg isLast).trans isFrame
          · refine .inr ⟨le_of_lt above, ?_⟩
            have different : argAddress nr i / 4096 ≠
                argAddress nr count / 4096 := by
              unfold argAddress windowBase
              omega
            exact (congrArg Word.target (others _ (argAddress_inside
              handing.seated.isTask inArea) different)).trans isThere

/-! ## From the point of no return on -/

/-- The task in slot `nr` holds the pages of the array, and some page of its
window is there: the one with the instruction that made the call. -/
structure Gathering (layout : Layout) (nr : Nat) (exec : Exec) : Prop where
  running : ∃ holds, Running layout nr exec holds
  resident : ∃ address frame, Fault.At nr address ∧ exec.Maps address frame

theorem Gathering.elsewhere (gathering : Gathering layout nr exec)
    (other : Spares layout nr exec next) : Gathering layout nr next where
  running := by
    obtain ⟨holds, running⟩ := gathering.running
    exact other.running holds running
  resident := by
    obtain ⟨address, frame, inside, maps⟩ := gathering.resident
    exact ⟨address, frame, inside, other.maps address frame inside maps⟩

theorem Gathering.onTask (gathering : Gathering layout nr exec)
    {change : TaskStruct → TaskStruct}
    (fits : ∀ p, p.image.InWindow nr → (change p).image.InWindow nr ∧
      p.dataSegment.limit ≤ (change p).dataSegment.limit) :
    Gathering layout nr (exec.onTask nr change) where
  running := by
    obtain ⟨holds, running⟩ := gathering.running
    exact ⟨holds, running.onTask fits⟩
  resident := gathering.resident

/-- The window is empty, and there is a page for a page table. -/
structure Vacated (layout : Layout) (nr : Nat) (exec : Exec) : Prop where
  running : ∃ holds, Running layout nr exec holds
  emptied : Emptied nr exec
  spare : ∃ spare, layout.Managed spare ∧
    exec.system.memory.view.count spare = 0

/-- The old image goes, and its page tables with it. -/
theorem Gathering.vacated (gathering : Gathering layout nr exec)
    {task : TaskStruct} (isTask : exec.system.task nr = some task) :
    ∃ middle memory, freePageTables task.codeSegment.base
        task.codeSegment.limit exec.system.memory = .ok middle ∧
      freePageTables task.dataSegment.base task.dataSegment.limit middle =
        .ok memory ∧ Vacated layout nr (exec.setMemory memory) := by
  obtain ⟨holds, running⟩ := gathering.running
  obtain ⟨address, frame, inside, maps⟩ := gathering.resident
  obtain ⟨p, isOwn, inWindow, beyond⟩ := running.own
  rw [isTask, Option.some.injEq] at isOwn
  subst isOwn
  have codeBase : task.codeSegment.base = windowBase nr := inWindow.codeBase
  have dataBase : task.dataSegment.base = windowBase nr := inWindow.dataBase
  obtain ⟨middle, codeFreed, codeTorn⟩ :=
    freePageTables_spec running.valid running.isTask inWindow.codeLimit
  obtain ⟨memory, dataFreed, dataTorn⟩ :=
    freePageTables_spec codeTorn.valid running.isTask inWindow.dataLimit
  have torn := codeTorn.trans dataTorn
  have stays (dir : Nat)
      (isAbsent : (exec.system.memory.pde dir).present = false) :
      (memory.pde dir).present = false := by
    by_cases gone : (nr * 16 ≤ dir ∧
        dir < nr * 16 + (task.codeSegment.limit + 0x3fffff) / 2 ^ 22) ∨
          (nr * 16 ≤ dir ∧
            dir < nr * 16 + (task.dataSegment.limit + 0x3fffff) / 2 ^ 22)
    · exact torn.absent dir gone
    · rw [torn.remain dir gone]
      exact isAbsent
  have last : Running layout nr (exec.setMemory memory) holds :=
    running.setMemory torn.valid stays fun _ held => held
  rw [codeBase, dataBase]
  refine ⟨middle, memory, codeFreed, dataFreed, ⟨holds, last⟩, ?_, ?_⟩
  · exact last.emptied isTask fun dir above below =>
      dataTorn.absent dir ⟨above, below⟩
  · -- the page table behind the resident page is free now
    have hasTable : (exec.system.memory.pde (dirIndex address)).present =
        true := State.table_of_entry maps.present
    obtain ⟨isSlot, above, below⟩ := inside
    unfold windowBase at above below
    have isDir : nr * 16 ≤ dirIndex address ∧
        dirIndex address < nr * 16 + 16 := by
      unfold dirIndex
      omega
    have isGone : dirIndex address <
        nr * 16 + (task.dataSegment.limit + 0x3fffff) / 2 ^ 22 := by
      by_contra further
      have isAbsent := beyond (dirIndex address) (Nat.le_of_not_lt further)
        isDir.2
      exact absurd (hasTable.symm.trans isAbsent) (by decide)
    have isUser : dirIndex address ∈ userDirs :=
      mem_userDirs.mpr ⟨by omega, by omega⟩
    exact ⟨_, running.valid.table_managed isUser hasTable,
      torn.freed running.valid isUser hasTable (.inr ⟨isDir.1, isGone⟩)⟩

theorem Vacated.handing (vacated : Vacated layout nr exec) (codeLimit : Nat) :
    Handing layout nr maxArgPages
      (exec.onTask nr (setSegments (windowBase nr) codeLimit 0x4000000)) := by
  obtain ⟨holds, running⟩ := vacated.running
  obtain ⟨p, isTask, inWindow, _⟩ := running.own
  have sound : Sound layout exec := ⟨⟨holds, running.valid⟩, running.windowed⟩
  have isNext := exec.task_onTask isTask
    (setSegments (windowBase nr) codeLimit 0x4000000)
  refine
    { seated := ⟨running.isTask, sound.onTask fun _ => rfl,
        ⟨_, isNext, inWindow.start, rfl⟩, ?_⟩
      held := ⟨holds, running.valid, running.held⟩
      apart := running.apart
      free := fun address inside _ => vacated.emptied address inside
      enough := .inr vacated.spare }
  intro address inside isPresent
  have absent := vacated.emptied address inside
  exact absurd (isPresent.symm.trans absent) (by decide)

variable {i frame : Nat}

/-- The page with index `i` of the array. -/
def Entered (i frame : Nat) (exec : Exec) : Prop :=
  exec.page i = some frame

theorem changeLdt_hands {env : Exec → Exec → Prop} {textSize : Nat} :
    Hoare .any env (fun exec => Vacated layout nr exec ∧ Entered i frame exec)
      (changeLdt nr textSize).unmarked
      fun _ exec => i < maxArgPages ∧
        Seats layout nr (argAddress nr i) frame exec := by
  unfold changeLdt
  refine hoare_unmarked_bind myself_hoare fun p => ?_
  constructor
  rintro exec ⟨⟨vacated, isEntered⟩, isTask⟩
  obtain ⟨holds, running⟩ := vacated.running
  obtain ⟨q, isOwn, inWindow, _⟩ := running.own
  rw [isTask, Option.some.injEq] at isOwn
  subst isOwn
  have inArea : i < maxArgPages := by
    by_contra beyond
    have none := running.few i (Nat.le_of_not_lt beyond)
    exact absurd (isEntered.symm.trans none) (by simp)
  have isBase : p.codeSegment.base = windowBase nr := inWindow.codeBase
  have moves : Hoare .any env
      (fun exec => Vacated layout nr exec ∧ Entered i frame exec)
      (Prog.modify fun exec => exec.onTask nr (setSegments (windowBase nr)
        (unsigned (textSize + 4095) / 4096 * 4096) 0x4000000))
      fun _ exec => Handing layout nr maxArgPages exec ∧
        Promised nr i frame maxArgPages exec := by
    apply hoare_modify
    rintro state ⟨stateVacated, stateEntered⟩
    exact ⟨stateVacated.handing _, .inl ⟨inArea, stateEntered⟩⟩
  have puts := @putArgPages_hands layout nr env i frame maxArgPages inArea
    (le_refl maxArgPages)
  rw [isBase]
  dsimp only
  refine (hoare_unmarked_bind moves fun _ => hoare_unmarked_bind puts fun _ =>
    hoare_pure ?_).run exec ⟨vacated, isEntered⟩
  exact fun _ seats => ⟨inArea, seats⟩

theorem Spares.entered (other : Spares layout nr exec next) :
    Entered i frame exec ↔ Entered i frame next := by
  unfold Entered
  rw [other.page]

section Launch

variable {registers : Registers} {inode : Program} {ex : Header}
  {euid egid : UInt16} {argc envc : Int} {p : Nat}

/-- What follows the departure of the old image. -/
theorem launch_seats (isTask : 1 ≤ nr ∧ nr < 64) :
    Hoare .any (Spares layout nr)
      (fun exec => Vacated layout nr exec ∧ Entered i frame exec)
      (do
        let dataLimit ← changeLdt nr ex.text.toNat
        let p := unsigned (p + dataLimit - maxArgPages * 4096)
        let p ← createTables around nr p argc envc
        Prog.modify fun exec => exec.onTask nr (setImage ex euid egid p)
        clearTail around nr 4096 (ex.text + ex.data).toNat
        return (0, { registers with
          eip := ex.entry, esp := BitVec.ofNat 32 p }) :
        ExecProg (Int × Registers)).unmarked
      fun _ final => final.MapsOnce nr frame := by
  refine hoare_unmarked_bind changeLdt_hands fun dataLimit => ?_
  refine hoare_given fun inArea => ?_
  have inside := argAddress_inside isTask inArea
  have accesses := @accesses_seats layout nr around (argAddress nr i) frame
    inside
  refine hoare_unmarked_bind (createTables_accesses accesses) fun sp => ?_
  refine hoare_unmarked_bind (stays_modify ?_) fun _ => ?_
  · intro exec seats
    exact ⟨seats.1.onTask fun _ => ⟨rfl, rfl⟩, seats.2⟩
  refine hoare_unmarked_bind (clearTail_accesses accesses) fun _ => ?_
  exact hoare_pure fun _ seats => seats.1.mapsOnce inside seats.2

theorem launch_shrinks (task : TaskStruct) :
    (do
      let exec ← Prog.get
      settle (freePageTables task.codeSegment.base task.codeSegment.limit
        exec.system.memory)
      let exec ← Prog.get
      settle (freePageTables task.dataSegment.base task.dataSegment.limit
        exec.system.memory)
      let dataLimit ← changeLdt nr ex.text.toNat
      let p := unsigned (p + dataLimit - maxArgPages * 4096)
      let p ← createTables around nr p argc envc
      Prog.modify fun exec => exec.onTask nr (setImage ex euid egid p)
      clearTail around nr 4096 (ex.text + ex.data).toNat
      return (0, { registers with eip := ex.entry, esp := BitVec.ofNat 32 p }) :
      ExecProg (Int × Registers)).Within Shrinks := by
  have changes {change : Exec → TaskStruct → TaskStruct} :
      (Prog.modify fun exec => exec.onTask nr (change exec)).Within Shrinks :=
    within_modify fun _ _ _ isPage => isPage
  refine within_get fun exec => ?_
  refine within_bind settle_shrinks fun _ => ?_
  refine within_get fun exec => ?_
  refine within_bind settle_shrinks fun _ => ?_
  refine within_bind ?_ fun dataLimit => ?_
  · refine within_bind myself_within fun _ => ?_
    refine within_bind changes fun _ => ?_
    exact within_bind putArgPages_shrinks fun _ => within_pure _
  refine within_bind (createTables_accesses accesses_shrink) fun _ => ?_
  refine within_bind changes fun _ => ?_
  exact within_bind (clearTail_accesses accesses_shrink) fun _ => within_pure _

/-- A page of the array becomes a page of the new image. -/
theorem launch_answers :
    Answers (Spares layout nr) (Gathering layout nr) (Entered i frame)
      (launch around nr registers inode ex euid egid argc envc p)
      fun _ final => final.MapsOnce nr frame := by
  have acts (state next : Exec) (other : Spares layout nr state next) :=
    (@Spares.entered layout nr state next i frame other).mp
  have sleeps : Stays .any (Spares layout nr) (Gathering layout nr)
      Prog.sleep :=
    stays_sleep fun _ _ gathering other => gathering.elsewhere other
  have changes {change : TaskStruct → TaskStruct} :
      (Prog.modify fun exec => exec.onTask nr change).Within
        fun first second => Entered i frame first → Entered i frame second :=
    within_modify fun _ isEntered => isEntered
  have puts : Stays .any (Spares layout nr) (Gathering layout nr)
      (Prog.modify fun exec => exec.onTask nr (setExecutable inode)) :=
    stays_modify fun _ gathering =>
      gathering.onTask (setExecutable_inWindow inode)
  have closes : Stays .any (Spares layout nr) (Gathering layout nr)
      (Prog.modify fun exec => exec.onTask nr closeMarked) :=
    stays_modify fun _ gathering => gathering.onTask closeMarked_inWindow
  unfold launch
  refine answers_bind sleeps within_sleep acts fun _ => ?_
  refine answers_bind puts changes acts fun _ => ?_
  refine answers_bind sleeps within_sleep acts fun _ => ?_
  refine answers_bind closes changes acts fun _ => ?_
  refine answers_bind myself_hoare myself_within acts fun task => ?_
  refine answers_hoare ?_ ((launch_shrinks task).widen
    fun _ _ shrinks => shrinks i frame) fun _ _ other => other.entered.mpr
  constructor
  rintro exec ⟨⟨gathering, isTask⟩, isEntered⟩
  obtain ⟨middle, memory, codeFreed, dataFreed, vacated⟩ :=
    gathering.vacated isTask
  obtain ⟨_, running⟩ := gathering.running
  have isMiddle : (exec.setMemory middle).system.memory = middle := rfl
  rw [wp_unmarked_get, codeFreed, settle_ok, wp_unmarked_get, isMiddle,
    dataFreed, settle_ok]
  exact (launch_seats running.isTask).run (exec.setMemory memory)
    ⟨vacated, isEntered⟩

end Launch

end Linux011.Proc
