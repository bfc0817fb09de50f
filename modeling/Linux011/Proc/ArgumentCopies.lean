import Linux011.Library.Endings
import Linux011.Proc.ExecHelpers
import Linux011.Proc.Execve

/-!
# How copy_strings ends

The test `p-len < 0` of `copy_strings` never holds.  What keeps `p` within the
argument pages is that a call with `p` at zero copies nothing; a call that
takes `p` past zero goes on at the top of the address space.
-/

namespace Linux011.Proc

open Linux011.Mm Bytes Coop

variable {layout : Layout} {nr : Nat} {exec next : Exec} {p : Nat}
  {content added more : List Byte} {copier : Copier}

/-! ## Copying until it ends -/

/-- How a copy of the bytes `added` below `p` may end: for want of a page, in
place, or by an access past the pages of the array. -/
def Copying (layout : Layout) (nr p : Nat) (added content : List Byte)
    (marked : Bool) : Ending (Option Copier) Exec → Prop
  | .returned none next => marked = true ∧ ∃ holds, Running layout nr next holds
  | .returned (some further) next => marked = false ∧
      further.p + added.length = p ∧ further.At next ∧
        Collected layout nr next further.p (added ++ content)
  | .panic message =>
      marked = false ∧ message = pastArea ∧ p < added.length
  | .spent => False

theorem Copying.goesOn {marked : Bool} {ending : Ending (Option Copier) Exec}
    {following : Option Copier → ExecProg (Option Copier)}
    (copying : Copying layout nr p added content marked ending)
    (stops : following none = pure none)
    (continues : ∀ further later, further.p + added.length = p →
      further.At later →
        Collected layout nr later further.p (added ++ content) →
          (following (some further)).Ends (Elsewhere layout nr)
            (Copying layout nr further.p more (added ++ content)) later) :
    ending.GoesOn (Elsewhere layout nr) following
      (Copying layout nr p (more ++ added) content) marked := by
  cases ending with
  | returned result later =>
      cases result with
      | none =>
          show (following none).Ends _ _ _
          rw [stops]
          exact ⟨by rw [copying.1]; rfl, copying.2⟩
      | some further =>
          obtain ⟨rfl, isP, isAt, collected⟩ := copying
          refine Prog.ends_mono (continues further later isP isAt collected) ?_
          intro marked ending copying
          cases ending with
          | returned result last =>
              cases result with
              | none => exact copying
              | some final =>
                  obtain ⟨unmarked, isFinal, finalAt, finalCollected⟩ := copying
                  refine ⟨unmarked, ?_, finalAt, ?_⟩
                  · rw [List.length_append]
                    omega
                  · rw [List.append_assoc]
                    exact finalCollected
          | panic message =>
              obtain ⟨unmarked, isMessage, short⟩ := copying
              refine ⟨unmarked, isMessage, ?_⟩
              rw [List.length_append]
              omega
          | spent => exact copying
  | panic message =>
      obtain ⟨unmarked, isMessage, short⟩ := copying
      refine ⟨unmarked, isMessage, ?_⟩
      rw [List.length_append]
      omega
  | spent => exact copying

theorem takePage_run (exec : Exec) :
    takePage exec =
      match getFreePage exec.system.memory with
      | (none, memory) => .crossed (.done none (exec.setMemory memory))
      | (some pag, memory) => .done (some pag) (exec.setMemory memory) := by
  rcases found : getFreePage exec.system.memory with ⟨_ | pag, memory⟩
  all_goals
    unfold takePage
    simp [bind, Run.bind, Prog.get, found, Prog.modify, Prog.cross, pure]

/-- `get_free_page` fails and the array stays as it is. -/
theorem untaken {memory : Mm.State} {i : Nat}
    (missing : getFreePage exec.system.memory = (none, memory))
    (noPage : exec.page i = none) :
    (exec.setMemory memory).setPage i none = exec := by
  have samePage : (fun other => if other = i then none
      else exec.page other) = exec.page := by
    funext other
    split <;> rename_i here
    · rw [here, noPage]
    · rfl
  rw [getFreePage_none missing]
  exact congrArg (Exec.mk exec.system) samePage

/-- The page for the byte at `q`: there, new, or not to be had. -/
theorem argPage_ends (collected : Collected layout nr exec p content) {q : Nat}
    (inArea : q / 4096 < maxArgPages) :
    (argPage q).Ends (Elsewhere layout nr) (fun marked ending =>
      ∃ result next, ending = .returned result next ∧
        Collected layout nr next p content ∧
          ((result = none ∧ marked = true) ∨ ∃ pag, result = some pag ∧
            marked = false ∧ next.page (q / 4096) = some pag)) exec := by
  have found := argPage_wp collected inArea
  unfold argPage at found ⊢
  refine Prog.ends_get ?_
  replace found := Prog.wp_get.mp (Prog.wp_bind.mp found)
  rw [if_pos inArea] at found ⊢
  cases isPage : exec.page (q / 4096) with
  | some pag =>
      exact ⟨some pag, exec, rfl, collected, .inr ⟨pag, rfl, rfl, isPage⟩⟩
  | none =>
      rw [isPage] at found
      dsimp only at found ⊢
      replace found : ((takePage exec).bind _).wp _ _ _ := found
      constructor
      show ((takePage exec).bind _).ends _ _
      rw [takePage_run] at found ⊢
      rcases taken : getFreePage exec.system.memory with ⟨_ | pag, memory⟩
      · have same := untaken taken isPage
        refine ⟨none, (exec.setMemory memory).setPage (q / 4096) none, rfl, ?_,
          .inl ⟨rfl, rfl⟩⟩
        rw [same]
        exact collected
      · rw [taken] at found
        obtain ⟨got, same, isNext, nextCollected⟩ := found
        cases same
        exact ⟨_, _, rfl, nextCollected, .inr ⟨_, rfl, rfl, isNext⟩⟩

theorem storeByte_ends (collected : Collected layout nr exec p content)
    {byte : Byte} {pag : Nat} (positive : 0 < p)
    (isPage : exec.page ((p - 1) / 4096) = some pag) {offset : Int}
    (isOffset : offset = ((p - 1) % 4096 : Nat)) :
    (storeByte byte ⟨p - 1, offset, some pag⟩).Ends (Elsewhere layout nr)
      (Copying layout nr p [byte] content) exec := by
  constructor
  intro awake other isReady
  obtain ⟨_, nextPage, nextCollected⟩ :=
    @storeByte_wp layout nr exec p content collected byte pag positive isPage
      offset isOffset awake other isReady
  refine ⟨rfl, ?_, .inr ⟨isOffset, pag, rfl, nextPage⟩, nextCollected⟩
  show p - 1 + 1 = p
  omega

/-- Below zero, `p` is the top of the address space. -/
theorem copyByte_past {byte : Byte} (isAt : copier.At exec)
    (isZero : copier.p = 0) :
    copyByte byte copier exec = .panic pastArea := by
  have offset : copier.offset - 1 < 0 := by
    rcases isAt with noOffset | ⟨isOffset, _⟩
    · omega
    · rw [isZero] at isOffset
      omega
  have isP : unsigned ((copier.p : Int) - 1) = 4294967295 := by
    unfold unsigned
    omega
  show (if copier.offset - 1 < 0 then _ else _ : ExecProg (Option Copier))
    exec = _
  rw [isP, if_pos offset]
  rfl

theorem copyByte_ends {byte : Byte}
    (collected : Collected layout nr exec copier.p content)
    (isAt : copier.At exec) :
    (copyByte byte copier).Ends (Elsewhere layout nr)
      (Copying layout nr copier.p [byte] content) exec := by
  rcases Nat.eq_zero_or_pos copier.p with isZero | positive
  · constructor
    rw [copyByte_past isAt isZero]
    exact ⟨rfl, rfl, by rw [isZero]; exact Nat.zero_lt_one⟩
  have extent := collected.extent
  have isP : unsigned (copier.p - 1) = copier.p - 1 :=
    unsigned_eq (by omega) (by omega)
  unfold copyByte
  dsimp only
  rw [isP]
  by_cases crosses : copier.offset - 1 < 0
  · rw [if_pos crosses]
    have inArea : (copier.p - 1) / 4096 < maxArgPages := by
      unfold maxArgPages
      omega
    refine Prog.ends_bind (Prog.ends_mono (argPage_ends collected inArea) ?_)
    rintro marked _ ⟨result, middle, rfl, middleCollected, found⟩
    rcases found with ⟨rfl, rfl⟩ | ⟨pag, rfl, rfl, isPage⟩
    · exact ⟨rfl, middleCollected.running⟩
    · exact Prog.ends_mono (storeByte_ends middleCollected positive isPage rfl)
        fun _ _ copying => copying
  · rw [if_neg crosses]
    rcases isAt with isZero | ⟨isOffset, pag, isPag, isPage⟩
    · omega
    · have sameIndex : (copier.p - 1) / 4096 = copier.p / 4096 := by omega
      rw [isPag]
      exact storeByte_ends collected positive (by rw [sameIndex]; exact isPage)
        (by omega)

theorem copyBytes_ends {bytes : List Byte}
    (collected : Collected layout nr exec copier.p content)
    (isAt : copier.At exec) :
    (copyBytes bytes copier).Ends (Elsewhere layout nr)
      (Copying layout nr copier.p bytes.reverse content) exec := by
  induction bytes generalizing copier content exec with
  | nil => exact ⟨rfl, rfl, isAt, collected⟩
  | cons byte rest induction =>
      unfold copyBytes
      rw [List.reverse_cons]
      refine Prog.ends_bind (Prog.ends_mono (copyByte_ends collected isAt) ?_)
      intro marked ending copying
      refine copying.goesOn rfl ?_
      intro further later _ furtherAt furtherCollected
      exact induction furtherCollected furtherAt

/-- The program fetches the string, whatever happens meanwhile. -/
def Fetches (layout : Layout) (nr : Nat) (string : ExecProg (List Byte))
    (bytes : List Byte) : Prop :=
  ∀ exec, string.wp .total (Elsewhere layout nr)
    (fun result next => result = bytes ∧ Elsewhere layout nr exec next) exec

theorem copyAll_ends {strings : List (List Byte)}
    {string : Nat → ExecProg (List Byte)}
    (fetches : ∀ i bytes, strings[i]? = some bytes →
      Fetches layout nr (string i) bytes)
    {argc : Nat} (count : argc ≤ strings.length)
    (collected : Collected layout nr exec copier.p content)
    (isAt : copier.At exec) :
    (copyAll string argc copier).Ends (Elsewhere layout nr)
      (Copying layout nr copier.p (packed (strings.take argc)) content)
      exec := by
  induction argc generalizing copier content exec with
  | zero => exact ⟨rfl, rfl, isAt, collected⟩
  | succ argc induction =>
      have isString : strings[argc]? = some strings[argc] :=
        List.getElem?_eq_getElem (by omega)
      have taken := packed_take isString
      unfold copyAll
      rw [taken]
      refine Prog.ends_then (fetches argc _ isString exec) ?_
      rintro bytes awake ⟨rfl, other⟩
      refine Prog.ends_bind (Prog.ends_mono (copyBytes_ends
        (collected.elsewhere other) (isAt.elsewhere other)) ?_)
      intro marked ending copying
      rw [List.reverse_reverse] at copying
      refine copying.goesOn rfl ?_
      intro further later _ furtherAt furtherCollected
      exact induction (by omega) furtherCollected furtherAt

/-! ## The calls, one after the other -/

/-- The array and what it holds before a call of `copy_strings`. -/
structure Gathered (layout : Layout) (nr : Nat) (exec : Exec) (p : Nat) :
    Prop where
  running : ∃ holds, Running layout nr exec holds
  collected : 0 < p → ∃ content, Collected layout nr exec p content

theorem Gathered.elsewhere (gathered : Gathered layout nr exec p)
    (other : Elsewhere layout nr exec next) : Gathered layout nr next p where
  running := by
    obtain ⟨holds, running⟩ := gathered.running
    exact other.running holds running
  collected := by
    intro positive
    obtain ⟨content, collected⟩ := gathered.collected positive
    exact ⟨content, collected.elsewhere other⟩

theorem Collected.gathered (collected : Collected layout nr exec p content) :
    Gathered layout nr exec p :=
  ⟨collected.running, fun _ => ⟨content, collected⟩⟩

/-- How a call that copies `total` bytes below `p` may end. -/
def Called (layout : Layout) (nr p total : Nat) (marked : Bool) :
    Ending Nat Exec → Prop
  | .returned result next => Gathered layout nr next result ∧
      ((marked = true ∧ result = 0) ∨
        (marked = false ∧ (p = 0 ∨ total ≤ p) ∧ result = p - total))
  | .panic message => marked = false ∧ message = pastArea ∧ 0 < p ∧ p < total
  | .spent => False

theorem copyStrings_ends {strings : List (List Byte)}
    {string : Nat → ExecProg (List Byte)} {argc : Int}
    (gathered : Gathered layout nr exec p)
    (isArgc : argc.toNat = strings.length)
    (fetches : ∀ i bytes, strings[i]? = some bytes →
      Fetches layout nr (string i) bytes) :
    (copyStrings string argc p).Ends (Elsewhere layout nr)
      (Called layout nr p (packed strings).length) exec := by
  unfold copyStrings
  by_cases isZero : p = 0
  · rw [if_pos isZero]
    subst isZero
    exact ⟨gathered, .inr ⟨rfl, .inl rfl, (Nat.zero_sub _).symm⟩⟩
  rw [if_neg isZero, isArgc]
  obtain ⟨content, collected⟩ := gathered.collected (Nat.pos_of_ne_zero isZero)
  have first : Copier.At ⟨p, 0, none⟩ exec := .inl rfl
  refine Prog.ends_bind (Prog.ends_mono
    (copyAll_ends fetches (le_refl _) collected first) ?_)
  intro marked ending copying
  rw [List.take_length] at copying
  cases ending with
  | returned result later =>
      cases result with
      | none =>
          obtain ⟨rfl, running⟩ := copying
          exact ⟨⟨running, fun positive => absurd positive (lt_irrefl 0)⟩,
            .inl ⟨rfl, rfl⟩⟩
      | some further =>
          obtain ⟨rfl, isP, _, furtherCollected⟩ := copying
          dsimp only at isP
          exact ⟨furtherCollected.gathered,
            .inr ⟨rfl, .inr (by omega), by omega⟩⟩
  | panic message =>
      obtain ⟨rfl, rfl, short⟩ := copying
      exact ⟨rfl, rfl, Nat.pos_of_ne_zero isZero, short⟩
  | spent => exact copying

/-- Each call fits in what the calls before it left, or nothing was left. -/
def Fits : Nat → List Nat → Prop
  | _, [] => True
  | p, total :: rest => (p = 0 ∨ total ≤ p) ∧ Fits (p - total) rest

instance decidableFits : (p : Nat) → (totals : List Nat) →
    Decidable (Fits p totals)
  | _, [] => inferInstanceAs (Decidable True)
  | p, total :: rest =>
      have : Decidable (Fits (p - total) rest) := decidableFits (p - total) rest
      inferInstanceAs (Decidable ((p = 0 ∨ total ≤ p) ∧ Fits (p - total) rest))

theorem fits_zero (totals : List Nat) : Fits 0 totals := by
  induction totals with
  | nil => trivial
  | cons total rest induction =>
      refine ⟨.inl rfl, ?_⟩
      rw [Nat.zero_sub]
      exact induction

/-- All pages of the array are free. -/
def Released (exec : Exec) : Prop :=
  ∀ i pag, exec.page i = some pag →
    exec.system.memory.memMap (mapNr pag) = 0

/-- `-ENOMEM`, and the pages of the array are free. -/
def Refused (registers : Registers) (ending : Ending (Int × Registers) Exec) :
    Prop :=
  ∃ next, ending = .returned (-12, registers) next ∧ Released next

/-- What becomes of a call that still has strings to copy below `p`. -/
structure Limited (registers : Registers) (p : Nat) (totals : List Nat)
    (marked : Bool) (ending : Ending (Int × Registers) Exec) : Prop where
  within : Fits p totals ∨ marked = true →
    ending ≠ .panic pastArea ∧ (p ≤ totals.sum → Refused registers ending)
  past : ¬ Fits p totals → marked = false → ending = .panic pastArea

variable {registers : Registers} {totals : List Nat}

theorem copyStrings_limited {strings : List (List Byte)}
    {string : Nat → ExecProg (List Byte)} {argc : Int}
    {following : Nat → ExecProg (Int × Registers)}
    (gathered : Gathered layout nr exec p)
    (isArgc : argc.toNat = strings.length)
    (fetches : ∀ i bytes, strings[i]? = some bytes →
      Fetches layout nr (string i) bytes)
    (goesOn : ∀ result later, Gathered layout nr later result →
      (following result).Ends (Elsewhere layout nr)
        (Limited registers result totals) later) :
    (copyStrings string argc p >>= following).Ends (Elsewhere layout nr)
      (Limited registers p ((packed strings).length :: totals)) exec := by
  refine Prog.ends_bind (Prog.ends_mono
    (copyStrings_ends gathered isArgc fetches) ?_)
  intro marked ending called
  cases ending with
  | returned result later =>
      obtain ⟨laterGathered, isResult⟩ := called
      refine Prog.ends_mono (goesOn result later laterGathered) ?_
      intro further ending limited
      rcases isResult with ⟨rfl, rfl⟩ | ⟨rfl, fits, rfl⟩
      · have refused := limited.within (.inl (fits_zero totals))
        exact ⟨fun _ => ⟨refused.1, fun _ => refused.2 (Nat.zero_le _)⟩,
          fun _ impossible => absurd impossible (by simp)⟩
      · rw [Bool.false_or]
        refine ⟨?_, fun short => limited.past fun rest => short ⟨fits, rest⟩⟩
        intro within
        have refused := limited.within (within.imp_left And.right)
        refine ⟨refused.1, fun past => refused.2 ?_⟩
        rw [List.sum_cons] at past
        omega
  | panic message =>
      obtain ⟨rfl, rfl, positive, short⟩ := called
      refine ⟨?_, fun _ _ => rfl⟩
      rintro (⟨fits, _⟩ | impossible)
      · omega
      · cases impossible
  | spent => exact called.elim

end Linux011.Proc
