import Linux011.Proc.PageHandover

/-!
# Every argument page is accounted for

`do_execve` owns the pages that `copy_strings` gets from `get_free_page`: they
are in its array.  Up to the point of no return the array only grows, so every
exit before it frees them all; behind it they are pages of the new image.
-/

namespace Linux011.Proc

open Linux011.Mm Bytes Coop Prog

variable {layout : Layout} {nr : Nat} {exec next : Exec} {around : Surroundings}

/-! ## Programs that only read -/

instance : Steady (Eq : Exec → Exec → Prop) where
  refl := fun _ => rfl
  trans := Eq.trans

/-- The program changes nothing itself. -/
abbrev Passive {α : Type} (program : ExecProg α) : Prop :=
  program.Within Eq

/-- The array loses no pages. -/
def Grows (exec next : Exec) : Prop :=
  ∀ i frame, exec.page i = some frame → next.page i = some frame

instance : Steady Grows where
  refl := fun _ _ _ isPage => isPage
  trans := fun first second i frame isPage =>
    second i frame (first i frame isPage)

section Passive

variable {α : Type} {program : ExecProg α}

theorem passive_stays {env : Exec → Exec → Prop} {holds : Exec → Prop}
    (passive : Passive program)
    (lasts : ∀ exec next, holds exec → env exec next → holds next) :
    Stays .any env holds program := by
  refine stays_of_within passive ?_ lasts
  rintro exec _ isHeld rfl
  exact isHeld

theorem passive_grows (passive : Passive program) : program.Within Grows := by
  refine passive.widen ?_
  rintro exec _ rfl
  exact Steady.refl exec

theorem oldString_passive {address : Nat} :
    Passive (oldString around address) := by
  apply within_bind within_sleep
  intro _
  split
  · exact within_pure _
  · exact keeps_panic

theorem count_passive {argv : Nat} : Passive (count around argv) := by
  unfold count
  split
  · exact within_pure _
  apply within_bind within_sleep
  intro _
  split
  · exact within_pure _
  · exact keeps_panic

theorem pointedString_passive {pointer : Nat} :
    Passive (pointedString around pointer) := by
  unfold pointedString
  split
  · exact keeps_panic
  · exact oldString_passive

theorem argument_passive {argv i : Nat} :
    Passive (argument around argv i) :=
  within_bind within_sleep fun _ => pointedString_passive

end Passive

/-! ## The array grows -/

section Grows

variable {p : Nat} {copier : Copier} {byte : Byte}

theorem argPage_grows : (argPage p).Within Grows := by
  unfold argPage
  apply keeps_get
  intro exec _
  split
  · split
    · exact keeps_pure fun _ _ => trivial
    rename_i noPage
    have takes : takePage.Keeps True Grows (fun current => current = exec)
        fun _ next => next.page = exec.page := by
      constructor
      rintro state rfl
      rw [takePage_run]
      rcases getFreePage state.system.memory with ⟨_ | frame, memory⟩
      · exact fun _ => ⟨fun _ _ isPage => isPage, rfl⟩
      · exact ⟨fun _ _ isPage => isPage, rfl⟩
    refine keeps_bind takes fun pag => ?_
    refine keeps_bind (@keeps_modify _ _ _ _ _ (fun _ _ => True) ?_)
      fun _ => keeps_pure fun _ _ => trivial
    intro state samePage
    refine ⟨?_, trivial⟩
    intro i frame isPage
    refine (if_neg ?_).trans isPage
    rintro rfl
    rw [samePage, noPage] at isPage
    cases isPage
  · exact keeps_panic

theorem storeByte_grows : (storeByte byte copier).Within Grows := by
  unfold storeByte
  split
  · exact within_pure _
  · refine within_bind within_sleep fun _ => ?_
    exact within_bind (within_modify fun _ _ _ isPage => isPage)
      fun _ => within_pure _

theorem copyByte_grows : (copyByte byte copier).Within Grows := by
  unfold copyByte
  dsimp only
  split
  · exact within_bind argPage_grows fun _ => storeByte_grows
  · exact storeByte_grows

theorem copyBytes_grows {bytes : List Byte} :
    (copyBytes bytes copier).Within Grows := by
  induction bytes generalizing copier with
  | nil => exact within_pure _
  | cons byte rest induction =>
      apply within_bind copyByte_grows
      intro result
      cases result with
      | none => exact within_pure _
      | some further => exact induction

theorem copyAll_grows {string : Nat → ExecProg (List Byte)}
    (passive : ∀ i, Passive (string i)) {argc : Nat} :
    (copyAll string argc copier).Within Grows := by
  induction argc generalizing copier with
  | zero => exact within_pure _
  | succ argc induction =>
      apply within_bind (passive_grows (passive argc))
      intro bytes
      apply within_bind copyBytes_grows
      intro result
      cases result with
      | none => exact within_pure _
      | some further => exact induction

theorem copyStrings_grows {string : Nat → ExecProg (List Byte)}
    (passive : ∀ i, Passive (string i)) {argc : Int} :
    (copyStrings string argc p).Within Grows := by
  unfold copyStrings
  split
  · exact within_pure _
  apply within_bind (copyAll_grows passive)
  intro result
  cases result with
  | none => exact within_pure _
  | some further => exact within_pure _

end Grows

/-! ## The task holds the pages of its array -/

section Gathers

variable {p : Nat} {copier : Copier} {byte : Byte}

/-- The page that `copy_strings` is in is one of the array. -/
def Copier.Has (copier : Copier) (exec : Exec) : Prop :=
  ∀ frame, copier.pag = some frame → ∃ i, exec.page i = some frame

/-- A change of memory that leaves the entries of the window alone. -/
theorem Gathering.setMemory (gathering : Gathering layout nr exec)
    {memory : Mm.State} {changed : Exec} {holds : Nat → Nat}
    (running : Running layout nr changed holds)
    (isMemory : changed.system.memory = memory)
    (entries : memory.pte = exec.system.memory.pte) :
    Gathering layout nr changed where
  running := ⟨holds, running⟩
  resident := by
    obtain ⟨address, frame, inside, maps⟩ := gathering.resident
    refine ⟨address, frame, inside, ?_⟩
    unfold Exec.Maps State.entryAt at maps ⊢
    rw [isMemory, entries]
    exact maps

theorem argPage_gathers {env : Exec → Exec → Prop} :
    Hoare .any env (Gathering layout nr) (argPage p).unmarked
      fun result exec => Gathering layout nr exec ∧
        ∀ frame, result = some frame → ∃ i, exec.page i = some frame := by
  unfold argPage
  apply hoare_unmarked_get
  intro exec gathering
  split <;> rename_i inArea
  · split <;> rename_i isPage
    · apply hoare_pure
      rintro state rfl
      exact ⟨gathering, fun frame same => ⟨_, isPage.trans same⟩⟩
    · constructor
      rintro state rfl
      show ((takePage state).bind _).unmarked.wp _ _ _
      rw [takePage_run]
      rcases found : getFreePage state.system.memory with ⟨_ | frame, memory⟩
      · have same := untaken found isPage
        refine ⟨?_, fun frame impossible => nomatch impossible⟩
        show Gathering layout nr
          ((state.setMemory memory).setPage (p / 4096) none)
        rw [same]
        exact gathering
      · obtain ⟨holds, running⟩ := gathering.running
        have got := getFreePage_some running.valid found
        refine ⟨gathering.setMemory (running.setPage got inArea) rfl
          (congrArg View.entries got.view), ?_⟩
        rintro other same
        cases same
        exact ⟨p / 4096, if_pos rfl⟩
  · exact hoare_panic trivial

theorem storeByte_gathers :
    Hoare .any (Spares layout nr)
      (fun exec => Gathering layout nr exec ∧ copier.Has exec)
      (storeByte byte copier).unmarked
      fun result exec => Gathering layout nr exec ∧
        ∀ further, result = some further → further.Has exec := by
  unfold storeByte
  split <;> rename_i isPag
  · apply hoare_pure
    rintro exec ⟨gathering, _⟩
    exact ⟨gathering, fun further impossible => nomatch impossible⟩
  · rename_i pag
    refine hoare_unmarked_bind (stays_sleep ?_) fun _ => ?_
    · rintro exec next ⟨gathering, has⟩ other
      refine ⟨gathering.elsewhere other, ?_⟩
      unfold Copier.Has
      rw [other.page]
      exact has
    have stores : Stays .any (Spares layout nr)
        (fun exec => Gathering layout nr exec ∧ copier.Has exec)
        (Prog.modify fun exec => exec.setMemory
          (exec.system.memory.setByte pag copier.offset.toNat byte)) := by
      apply stays_modify
      rintro exec ⟨gathering, has⟩
      obtain ⟨i, isPage⟩ := has pag isPag
      obtain ⟨holds, running⟩ := gathering.running
      have sameView := (setByteHeld running.valid
        (running.held i pag isPage) copier.offset.toNat byte).2
      exact ⟨gathering.setMemory (running.setByte isPage _ byte) rfl
        (congrArg View.entries sameView), has⟩
    refine hoare_unmarked_bind stores fun _ => hoare_pure ?_
    rintro exec ⟨gathering, has⟩
    refine ⟨gathering, ?_⟩
    rintro further same
    cases same
    exact has

theorem copyByte_gathers :
    Hoare .any (Spares layout nr)
      (fun exec => Gathering layout nr exec ∧ copier.Has exec)
      (copyByte byte copier).unmarked
      fun result exec => Gathering layout nr exec ∧
        ∀ further, result = some further → further.Has exec := by
  unfold copyByte
  dsimp only
  split
  · refine hoare_pre (hoare_unmarked_bind argPage_gathers fun pag => ?_)
      fun _ both => both.1
    exact @storeByte_gathers layout nr ⟨_, _, pag⟩ byte
  · exact hoare_pre storeByte_gathers fun _ both => both

theorem copyBytes_gathers {bytes : List Byte} :
    Hoare .any (Spares layout nr)
      (fun exec => Gathering layout nr exec ∧ copier.Has exec)
      (copyBytes bytes copier).unmarked
      fun result exec => Gathering layout nr exec ∧
        ∀ further, result = some further → further.Has exec := by
  induction bytes generalizing copier with
  | nil =>
      apply hoare_pure
      rintro exec ⟨gathering, has⟩
      refine ⟨gathering, ?_⟩
      rintro further same
      cases same
      exact has
  | cons byte rest induction =>
      refine hoare_unmarked_bind copyByte_gathers fun result => ?_
      cases result with
      | none =>
          exact hoare_pure fun _ gathered =>
            ⟨gathered.1, fun further impossible => nomatch impossible⟩
      | some further =>
          exact hoare_pre induction fun _ gathered =>
            ⟨gathered.1, gathered.2 further rfl⟩

theorem copyAll_gathers {string : Nat → ExecProg (List Byte)}
    (passive : ∀ i, Passive (string i)) {argc : Nat} :
    Hoare .any (Spares layout nr)
      (fun exec => Gathering layout nr exec ∧ copier.Has exec)
      (copyAll string argc copier).unmarked
      fun _ => Gathering layout nr := by
  induction argc generalizing copier with
  | zero => exact hoare_pure fun _ both => both.1
  | succ argc induction =>
      refine hoare_unmarked_bind (passive_stays (passive argc) ?_)
        fun bytes => ?_
      · rintro exec next ⟨gathering, has⟩ other
        refine ⟨gathering.elsewhere other, ?_⟩
        unfold Copier.Has
        rw [other.page]
        exact has
      refine hoare_unmarked_bind copyBytes_gathers fun result => ?_
      cases result with
      | none => exact hoare_pure fun _ gathered => gathered.1
      | some further =>
          exact hoare_pre induction fun _ gathered =>
            ⟨gathered.1, gathered.2 further rfl⟩

theorem copyStrings_gathers {string : Nat → ExecProg (List Byte)}
    (passive : ∀ i, Passive (string i)) {argc : Int} :
    Stays .any (Spares layout nr) (Gathering layout nr)
      (copyStrings string argc p) := by
  unfold copyStrings
  split
  · exact stays_pure
  have copies := @copyAll_gathers layout nr ⟨p, 0, none⟩ string passive
    argc.toNat
  refine hoare_unmarked_bind (hoare_pre copies fun _ gathering =>
    ⟨gathering, fun _ impossible => nomatch impossible⟩) fun result => ?_
  cases result with
  | none => exact stays_pure
  | some further => exact stays_pure

end Gathers

/-! ## The whole call -/

/-- The page has been given back, or is one page of the new image. -/
def Accounted (nr frame : Nat) (exec : Exec) : Prop :=
  exec.system.memory.memMap (mapNr frame) = 0 ∨ exec.MapsOnce nr frame

section Call

variable {i frame : Nat} {registers : Registers} {errno : Int}
  {inode : Program} {ex : Header} {euid egid : UInt16} {p : Nat}
  {argc envc : Int} {filename argv envp : Nat} {line : ScriptLine}

theorem freeArgPages_grows {count : Nat} :
    (freeArgPages count).Within Grows := by
  induction count with
  | zero => exact within_pure ()
  | succ count induction =>
      apply within_bind induction
      intro _
      apply within_get
      intro exec
      split
      · exact within_pure ()
      · exact settle_within fun _ _ _ _ isPage => isPage

/-- A program that keeps the pages, and its array. -/
theorem gathers_bind {α β : Type} {program : ExecProg β}
    {following : β → ExecProg α} {post : α → Exec → Prop}
    (gathers : Stays .any (Spares layout nr) (Gathering layout nr) program)
    (grows : program.Within Grows)
    (continues : ∀ value, Answers (Spares layout nr) (Gathering layout nr)
      (Entered i frame) (following value) post) :
    Answers (Spares layout nr) (Gathering layout nr) (Entered i frame)
      (program >>= following) post :=
  answers_bind gathers (grows.widen fun _ _ grown => grown i frame)
    (fun _ _ other => other.entered.mp) continues

theorem passive_bind {α β : Type} {program : ExecProg β}
    {following : β → ExecProg α} {post : α → Exec → Prop}
    (passive : Passive program)
    (continues : ∀ value, Answers (Spares layout nr) (Gathering layout nr)
      (Entered i frame) (following value) post) :
    Answers (Spares layout nr) (Gathering layout nr) (Entered i frame)
      (program >>= following) post :=
  gathers_bind (passive_stays passive fun _ _ gathering other =>
    gathering.elsewhere other) (passive_grows passive) continues

theorem copyStrings_bind {α : Type} {string : Nat → ExecProg (List Byte)}
    {following : Nat → ExecProg α} {post : α → Exec → Prop}
    (passive : ∀ i, Passive (string i))
    (continues : ∀ value, Answers (Spares layout nr) (Gathering layout nr)
      (Entered i frame) (following value) post) :
    Answers (Spares layout nr) (Gathering layout nr) (Entered i frame)
      (copyStrings string argc p >>= following) post :=
  gathers_bind (copyStrings_gathers passive) (copyStrings_grows passive)
    continues

theorem giveUp_answers :
    Answers (Spares layout nr) (Gathering layout nr) (Entered i frame)
      (giveUp errno registers) fun _ final => Accounted nr frame final := by
  have frees : Hoare .any (Spares layout nr) (Gathering layout nr)
      (giveUp errno registers).unmarked
      fun result next => result = (errno, registers) ∧ Released next :=
    hoare_unmarked (hoare_pre (freeArgPages_released (le_refl maxArgPages))
      fun _ gathering => gathering.running.imp fun _ running =>
        running.freeing)
  have grows : (giveUp errno registers).Within Grows :=
    within_bind freeArgPages_grows fun _ => within_pure _
  refine answers_end frees (grows.widen fun _ _ grown => grown i frame)
    (fun _ _ other => other.entered.mp) ?_
  rintro _ final ⟨_, released⟩ isEntered
  exact .inl (released i frame isEntered)

theorem giveUpInode_answers :
    Answers (Spares layout nr) (Gathering layout nr) (Entered i frame)
      (giveUpInode errno registers) fun _ final => Accounted nr frame final :=
  passive_bind within_sleep fun _ => giveUp_answers

theorem launch_accounts :
    Answers (Spares layout nr) (Gathering layout nr) (Entered i frame)
      (launch around nr registers inode ex euid egid argc envc p)
      fun _ final => Accounted nr frame final :=
  answers_post launch_answers fun _ _ mapsOnce => .inr mapsOnce

theorem start_accounts :
    Answers (Spares layout nr) (Gathering layout nr) (Entered i frame)
      (start around nr registers argv envp argc envc p inode ex euid egid)
      fun _ final => Accounted nr frame final := by
  unfold start
  split
  · exact giveUpInode_answers
  refine copyStrings_bind (fun _ => argument_passive) fun _ => ?_
  refine copyStrings_bind (fun _ => argument_passive) fun _ => ?_
  split
  · exact giveUpInode_answers
  · exact launch_accounts

theorem restart_accounts :
    Answers (Spares layout nr) (Gathering layout nr) (Entered i frame)
      (restart around nr registers argc envc p line)
      fun _ final => Accounted nr frame final := by
  unfold restart
  split
  · exact giveUp_answers
  refine passive_bind within_sleep fun _ => ?_
  split
  · exact giveUp_answers
  refine passive_bind myself_within fun task => ?_
  split
  · exact giveUpInode_answers
  refine passive_bind within_sleep fun _ => ?_
  dsimp only
  split
  · exact giveUpInode_answers
  · exact launch_accounts

theorem interpret_accounts :
    Answers (Spares layout nr) (Gathering layout nr) (Entered i frame)
      (interpret around nr registers filename argv envp argc envc p line)
      fun _ final => Accounted nr frame final := by
  rw [interpret_eq]
  refine copyStrings_bind (fun _ => argument_passive) fun _ => ?_
  refine copyStrings_bind (fun _ => argument_passive) fun _ => ?_
  refine copyStrings_bind (fun _ => pointedString_passive) fun _ => ?_
  dsimp only
  split
  · refine passive_bind (within_pure _) fun _ => ?_
    exact copyStrings_bind (fun _ => within_pure _) fun p => restart_accounts
  · refine copyStrings_bind (fun _ => within_pure _) fun _ => ?_
    exact copyStrings_bind (fun _ => within_pure _) fun p => restart_accounts

/-- The task has no page in its array. -/
def Unfilled (layout : Layout) (nr : Nat) (exec : Exec) : Prop :=
  Gathering layout nr exec ∧ ∀ i, exec.page i = none

theorem unfilled_bind {α β : Type} {program : ExecProg β}
    {following : β → ExecProg α} {post : α → Exec → Prop}
    (passive : Passive program)
    (continues : ∀ value, Answers (Spares layout nr) (Unfilled layout nr)
      (Entered i frame) (following value) post) :
    Answers (Spares layout nr) (Unfilled layout nr) (Entered i frame)
      (program >>= following) post := by
  refine answers_bind (passive_stays passive ?_) ((passive_grows passive).widen
    fun _ _ grown => grown i frame) (fun _ _ other => other.entered.mp) continues
  rintro exec next ⟨gathering, empty⟩ other
  refine ⟨gathering.elsewhere other, ?_⟩
  rw [other.page]
  exact empty

/-- Wherever `get_free_page` begins to fail, whatever other tasks do and
however the call returns: every page that was in the array when the call
slept, and it sleeps before it stores the first byte in a page, has been given
back or is exactly one page of the new image. -/
theorem doExecve_accounts (around : Surroundings) (registers : Registers)
    (filename argv envp : Nat)
    (calling : Gathering layout nr { exec with page := fun _ => none }) :
    (doExecve around nr registers filename argv envp).AnswersFor
      (Spares layout nr)
      (fun earlier _ final => ∀ i frame, earlier.page i = some frame →
        Accounted nr frame final) exec := by
  intro seen value final passes earlier isSeen i frame isPage
  unfold doExecve at passes
  split at passes
  · exact passes.elim
  rw [passes_modify] at passes
  refine Answers.run (?_ : Answers (Spares layout nr) (Unfilled layout nr)
    (Entered i frame) _ fun _ final => Accounted nr frame final)
    { exec with page := fun _ => none } ⟨calling, fun _ => rfl⟩ seen value
    final passes earlier (List.mem_cons_of_mem _ isSeen) isPage
  have gathers {program : ExecProg (Int × Registers)}
      (answers : Answers (Spares layout nr) (Gathering layout nr)
        (Entered i frame) program fun _ final => Accounted nr frame final) :
      Answers (Spares layout nr) (Unfilled layout nr) (Entered i frame)
        program fun _ final => Accounted nr frame final :=
    answers_pre answers fun _ unfilled => unfilled.1
  refine unfilled_bind oldString_passive fun name => ?_
  refine unfilled_bind within_sleep fun _ => ?_
  split
  · apply answers_pure
    rintro exec ⟨_, empty⟩ isEntered
    exact absurd (isEntered.symm.trans (empty i)) (by simp)
  refine unfilled_bind count_passive fun argc => ?_
  refine unfilled_bind count_passive fun envc => ?_
  refine unfilled_bind myself_within fun task => ?_
  split
  · exact gathers giveUpInode_answers
  refine unfilled_bind within_sleep fun _ => ?_
  dsimp only
  split
  · split
    · exact gathers giveUp_answers
    · exact gathers interpret_accounts
  · exact gathers start_accounts

end Call

section Example

/-- The first task after `init` was forked, with its first page. -/
def residentExec (memory : Mm.State) : Exec where
  system :=
    { initExec.system with
      memory := memory
      task := fun nr =>
        if nr = 1 then
          some
            { initTask 5 with
              startCode := 0x4000000
              codeSegment := ⟨0x4000000, 0xA0000⟩
              dataSegment := ⟨0x4000000, 0x4000000⟩ }
        else none }
  page := fun _ => none

theorem doExecve_accounts_resident :
    ∃ memory, getEmptyPage 0x4000000 (boot sixteenMegabytes zeroMemory) =
        .ok memory ∧
      (doExecve oneArgument 1 userRegisters 100 200 0).AnswersFor
        (Spares sixteenMegabytes.layout 1)
        (fun earlier _ final => ∀ i frame, earlier.page i = some frame →
          Accounted 1 frame final) (residentExec memory) := by
  have inside : Fault.At 1 0x4000000 := ⟨by decide, by decide, by decide⟩
  have absent : ((boot sixteenMegabytes zeroMemory).pte (dirIndex 0x4000000)
      (tableIndex 0x4000000)).present = false := by
    rw [boot_pte]
    rfl
  have spec := getEmptyPage_spec (boot_valid sixteenMegabytes zeroMemory)
    inside.isUser absent
  have returns : (getEmptyPage 0x4000000
      (boot sixteenMegabytes zeroMemory)).toBool = true := by
    decide +kernel
  cases got : getEmptyPage 0x4000000 (boot sixteenMegabytes zeroMemory) with
  | error fault =>
      rw [got] at returns
      cases returns
  | ok memory =>
      rw [got] at spec
      obtain ⟨valid, _, frame, managed, _, entries, _⟩ := spec
      have entry : memory.entryAt 0x4000000 = Word.user frame :=
        entryAt_setEntry_same entries
      refine ⟨memory, rfl, doExecve_accounts _ _ _ _ _
        ⟨⟨fun _ => 0, ?_⟩, 0x4000000, frame, inside, ?_⟩⟩
      · refine
          { isTask := inside.isTask
            valid := valid
            windowed := ?_
            own := ⟨_, rfl, ⟨rfl, rfl, rfl, by decide, by decide, by decide⟩,
              fun dir above below => ?_⟩
            held := fun i pag isPage => (nomatch isPage)
            apart := fun i j pag isPage => (nomatch isPage)
            few := fun _ _ => rfl }
        · intro other p isOther
          unfold residentExec at isOther
          dsimp only at isOther
          split at isOther
          · subst other
            cases isOther
            rfl
          · cases isOther
        · exact absurd (lt_of_le_of_lt above below) (by decide)
      · exact Word.target_eq_some.mpr
          ⟨entry ▸ Word.present_user frame,
            entry ▸ Word.page_user managed.small⟩

end Example

end Linux011.Proc
