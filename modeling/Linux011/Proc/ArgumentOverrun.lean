import Linux011.Proc.ArgumentLimit

/-!
# The accesses past the argument pages

With enough free pages, and nothing that disturbs it, a call of `execve` with
strings that do not fit gets as far as the access beyond the array.
-/

namespace Linux011.Proc

open Linux011.Mm Bytes Coop

variable {exec next : Exec} {p : Nat} {copier : Copier} {around : Surroundings}

/-- The indices of the array without a page. -/
def Exec.missing (exec : Exec) : Finset Nat :=
  (Finset.range maxArgPages).filter fun i => exec.page i = none

/-- There are free pages for the rest of the array. -/
def Ample (exec : Exec) : Prop :=
  ∃ first last, last ≤ pagingPages ∧ first + exec.missing.card ≤ last ∧
    ∀ nr, first ≤ nr → nr < last → exec.system.memory.memMap nr = 0

theorem scanFree_above {memMap : Nat → UInt8} {count nr : Nat}
    (below : nr < count) (isFree : memMap nr = 0) :
    ∃ found, scanFree memMap count = some found ∧ nr ≤ found := by
  induction count with
  | zero => omega
  | succ count induction =>
      unfold scanFree
      split <;> rename_i free
      · exact ⟨count, rfl, by omega⟩
      · have different : nr ≠ count := by
          rintro rfl
          exact free isFree
        exact induction (by omega)

theorem missing_setPage {i pag : Nat} (inArea : i < maxArgPages)
    (noPage : exec.page i = none) :
    (exec.setPage i (some pag)).missing.card + 1 = exec.missing.card := by
  have isMissing : i ∈ exec.missing :=
    Finset.mem_filter.mpr ⟨Finset.mem_range.mpr inArea, noPage⟩
  have same : (exec.setPage i (some pag)).missing = exec.missing.erase i := by
    ext j
    unfold Exec.missing Exec.setPage
    rw [Finset.mem_filter, Finset.mem_erase, Finset.mem_filter]
    dsimp only
    split <;> rename_i here
    · simp [here]
    · simp [here]
  rw [same, Finset.card_erase_of_mem isMissing]
  have positive := Finset.card_pos.mpr ⟨i, isMissing⟩
  omega

theorem takePage_alone {i : Nat} (ample : Ample exec) (inArea : i < maxArgPages)
    (noPage : exec.page i = none) :
    ∃ pag memory, takePage.alone exec =
      .returned (some pag) (exec.setMemory memory) ∧
        Ample ((exec.setMemory memory).setPage i (some pag)) := by
  obtain ⟨first, last, inRange, enough, free⟩ := ample
  have lower := @missing_setPage exec i 0 inArea noPage
  obtain ⟨found, isFound, above⟩ := scanFree_above
    (show last - 1 < pagingPages by omega) (free (last - 1) (by omega) (by omega))
  have got : getFreePage exec.system.memory = (some (lowMem + found),
      (exec.system.memory.setMap found 1).fillPage (lowMem + found)
        fun _ => 0#32) := by
    unfold getFreePage
    rw [isFound]
  refine ⟨lowMem + found, (exec.system.memory.setMap found 1).fillPage
    (lowMem + found) fun _ => 0#32, ?_, first, last - 1, by omega, ?_, ?_⟩
  · unfold Prog.alone
    rw [takePage_run, got]
    rfl
  · have one := @missing_setPage (exec.setMemory ((exec.system.memory.setMap
      found 1).fillPage (lowMem + found) fun _ => 0#32)) i (lowMem + found)
      inArea noPage
    have same : (exec.setMemory ((exec.system.memory.setMap
      found 1).fillPage (lowMem + found) fun _ => 0#32)).missing =
        exec.missing := rfl
    rw [same] at one
    omega
  · intro nr least below
    show (exec.system.memory.setMap found 1).memMap nr = 0
    rw [State.memMap_setMap, if_neg (by omega)]
    exact free nr least (by omega)

theorem argPage_alone (ample : Ample exec) {q : Nat}
    (inArea : q / 4096 < maxArgPages) :
    ∃ pag next, (argPage q).alone exec = .returned (some pag) next ∧
      next.page (q / 4096) = some pag ∧ Ample next := by
  unfold argPage
  rw [Prog.alone_bind, Prog.alone_get, Prog.andThen_returned, if_pos inArea]
  cases isPage : exec.page (q / 4096) with
  | some pag => exact ⟨pag, exec, rfl, isPage, ample⟩
  | none =>
      obtain ⟨pag, memory, taken, still⟩ := takePage_alone ample inArea isPage
      dsimp only
      rw [Prog.alone_bind, taken]
      exact ⟨pag, _, rfl, if_pos rfl, still⟩

theorem storeByte_alone (ample : Ample exec) {byte : Byte} {offset : Int}
    {pag : Nat} :
    ∃ next, (storeByte byte ⟨p, offset, some pag⟩).alone exec =
      .returned (some ⟨p, offset, some pag⟩) next ∧
        next.page = exec.page ∧ Ample next :=
  ⟨exec.setMemory (exec.system.memory.setByte pag offset.toNat byte), rfl, rfl,
    ample⟩

/-- How a copy of `count` bytes below `p` ends in ample memory. -/
def Overrun (p count : Nat) : Ending (Option Copier) Exec → Prop
  | .returned (some further) next =>
      further.p + count = p ∧ further.At next ∧ Ample next
  | .returned none _ => False
  | .panic message => message = pastArea ∧ p < count
  | .spent => False

theorem copyByte_alone (ample : Ample exec) (isAt : copier.At exec)
    (small : copier.p ≤ 131068) {byte : Byte} :
    Overrun copier.p 1 ((copyByte byte copier).alone exec) := by
  rcases Nat.eq_zero_or_pos copier.p with isZero | positive
  · unfold Prog.alone
    rw [copyByte_past isAt isZero]
    exact ⟨rfl, by omega⟩
  have isP : unsigned (copier.p - 1) = copier.p - 1 :=
    unsigned_eq (by omega) (by omega)
  have stored {middle : Exec} {offset : Int} {pag : Nat}
      (middleAmple : Ample middle)
      (isOffset : offset = ((copier.p - 1) % 4096 : Nat))
      (isPage : middle.page ((copier.p - 1) / 4096) = some pag) :
      Overrun copier.p 1
        ((storeByte byte ⟨copier.p - 1, offset, some pag⟩).alone middle) := by
    obtain ⟨next, done, samePage, nextAmple⟩ :=
      storeByte_alone middleAmple
    rw [done]
    refine ⟨Nat.sub_add_cancel positive, .inr ⟨isOffset, pag, rfl, ?_⟩,
      nextAmple⟩
    rw [samePage]
    exact isPage
  unfold copyByte
  dsimp only
  rw [isP]
  by_cases crosses : copier.offset - 1 < 0
  · rw [if_pos crosses, Prog.alone_bind]
    have inArea : (copier.p - 1) / 4096 < maxArgPages := by
      unfold maxArgPages
      omega
    obtain ⟨pag, middle, found, isPage, middleAmple⟩ :=
      argPage_alone ample inArea
    rw [found]
    exact stored middleAmple rfl isPage
  · rw [if_neg crosses]
    rcases isAt with isZero | ⟨isOffset, pag, isPag, isPage⟩
    · omega
    · have sameIndex : (copier.p - 1) / 4096 = copier.p / 4096 := by omega
      rw [isPag]
      exact stored ample (by omega) (by rw [sameIndex]; exact isPage)

/-- One copy after another. -/
theorem Overrun.andThen {count more : Nat} {ending : Ending (Option Copier) Exec}
    {following : Option Copier → Exec → Ending (Option Copier) Exec}
    (overrun : Overrun p count ending)
    (continues : ∀ further next, further.p ≤ p → further.At next → Ample next →
      Overrun further.p more (following (some further) next)) :
    Overrun p (count + more) (ending.andThen following) := by
  cases ending with
  | returned result next =>
      cases result with
      | none => exact overrun.elim
      | some further =>
          obtain ⟨isP, isAt, ample⟩ := overrun
          have rest := continues further next (by omega) isAt ample
          show Overrun p (count + more) (following (some further) next)
          revert rest
          cases following (some further) next with
          | returned result last =>
              cases result with
              | none => exact id
              | some final =>
                  rintro ⟨isFinal, finalAt, finalAmple⟩
                  exact ⟨by omega, finalAt, finalAmple⟩
          | panic message =>
              rintro ⟨isMessage, short⟩
              exact ⟨isMessage, by omega⟩
          | spent => exact id
  | panic message =>
      obtain ⟨isMessage, short⟩ := overrun
      exact ⟨isMessage, by omega⟩
  | spent => exact overrun.elim

theorem copyBytes_alone (ample : Ample exec) (isAt : copier.At exec)
    (small : copier.p ≤ 131068) {bytes : List Byte} :
    Overrun copier.p bytes.length ((copyBytes bytes copier).alone exec) := by
  induction bytes generalizing copier exec with
  | nil => exact ⟨rfl, isAt, ample⟩
  | cons byte rest induction =>
      unfold copyBytes
      rw [Prog.alone_bind, List.length_cons, Nat.add_comm]
      refine (copyByte_alone ample isAt small).andThen ?_
      intro further next lower furtherAt furtherAmple
      exact induction furtherAmple furtherAt (le_trans lower small)

/-- A string of the old image that nothing disturbs. -/
def FetchesAlone (string : ExecProg (List Byte)) (bytes : List Byte) : Prop :=
  ∀ exec, string.alone exec = .returned bytes exec

theorem copyAll_alone {strings : List (List Byte)}
    {string : Nat → ExecProg (List Byte)}
    (fetches : ∀ i bytes, strings[i]? = some bytes →
      FetchesAlone (string i) bytes)
    {argc : Nat} (count : argc ≤ strings.length) (ample : Ample exec)
    (isAt : copier.At exec) (small : copier.p ≤ 131068) :
    Overrun copier.p (packed (strings.take argc)).length
      ((copyAll string argc copier).alone exec) := by
  induction argc generalizing copier exec with
  | zero => exact ⟨rfl, isAt, ample⟩
  | succ argc induction =>
      have isString : strings[argc]? = some strings[argc] :=
        List.getElem?_eq_getElem (by omega)
      have taken := packed_take isString
      unfold copyAll
      rw [taken, List.length_append, Nat.add_comm, Prog.alone_bind,
        fetches argc _ isString exec, Prog.andThen_returned, Prog.alone_bind,
        ← List.length_reverse]
      refine (copyBytes_alone ample isAt small).andThen ?_
      intro further next lower furtherAt furtherAmple
      exact induction (by omega) furtherAmple furtherAt (le_trans lower small)

section Calls

variable {strings : List (List Byte)} {string : Nat → ExecProg (List Byte)}
  {argc : Int}

theorem copyStrings_alone
    (fetches : ∀ i bytes, strings[i]? = some bytes →
      FetchesAlone (string i) bytes)
    (isArgc : argc.toNat = strings.length) (ample : Ample exec)
    (small : p ≤ 131068) (fits : p = 0 ∨ (packed strings).length ≤ p) :
    ∃ next, (copyStrings string argc p).alone exec =
      .returned (p - (packed strings).length) next ∧ Ample next := by
  unfold copyStrings
  by_cases isZero : p = 0
  · rw [if_pos isZero, isZero, Nat.zero_sub]
    exact ⟨exec, rfl, ample⟩
  have first : Copier.At ⟨p, 0, none⟩ exec := .inl rfl
  have copied := copyAll_alone fetches (le_refl strings.length) ample first
    small
  rw [List.take_length] at copied
  rw [if_neg isZero, isArgc, Prog.alone_bind]
  revert copied
  cases (copyAll string strings.length ⟨p, 0, none⟩).alone exec with
  | returned result next =>
      cases result with
      | none => exact False.elim
      | some further =>
          rintro ⟨isP, _, nextAmple⟩
          dsimp only at isP
          refine ⟨next, ?_, nextAmple⟩
          show Ending.returned further.p next = _
          rw [← isP, Nat.add_sub_cancel]
  | panic message =>
      rintro ⟨_, short⟩
      dsimp only at short
      omega
  | spent => exact False.elim

theorem copyStrings_past
    (fetches : ∀ i bytes, strings[i]? = some bytes →
      FetchesAlone (string i) bytes)
    (isArgc : argc.toNat = strings.length) (ample : Ample exec)
    (small : p ≤ 131068) (long : ¬ (p = 0 ∨ (packed strings).length ≤ p)) :
    (copyStrings string argc p).alone exec = .panic pastArea := by
  obtain ⟨notZero, short⟩ := not_or.mp long
  have first : Copier.At ⟨p, 0, none⟩ exec := .inl rfl
  have copied := copyAll_alone fetches (le_refl strings.length) ample first
    small
  rw [List.take_length] at copied
  unfold copyStrings
  rw [if_neg notZero, isArgc, Prog.alone_bind]
  revert copied
  cases (copyAll string strings.length ⟨p, 0, none⟩).alone exec with
  | returned result next =>
      cases result with
      | none => exact False.elim
      | some further =>
          rintro ⟨isP, _, _⟩
          dsimp only at isP
          omega
  | panic message =>
      rintro ⟨rfl, _⟩
      rfl
  | spent => exact False.elim

end Calls

section Program

variable {inode : Program} {nr filename argv envp : Nat} {name : List Byte}
  {block : Nat → Byte} {registers : Registers} {args env : List (List Byte)}

theorem argument_alone {table : Nat} {strings : List (List Byte)}
    (vector : VectorAt around table strings) :
    ∀ i bytes, strings[i]? = some bytes →
      FetchesAlone (argument around table i) bytes := by
  intro i bytes isString exec
  rw [argument_eq vector isString (vector.string_short isString)]
  rfl

theorem start_past {ex : Header} {euid egid : UInt16} (ample : Ample exec)
    (isArgv : VectorAt around argv args) (isEnvp : VectorAt around envp env)
    (accepted : ex.refused inode.size = false)
    (long : ¬ Fits 131068 [(packed env).length, (packed args).length]) :
    (start around nr registers argv envp args.length env.length 131068 inode ex
      euid egid).alone exec = .panic pastArea := by
  unfold start
  rw [if_neg (by rw [accepted]; exact Bool.false_ne_true), Prog.alone_bind]
  by_cases envFits : 131068 = 0 ∨ (packed env).length ≤ 131068
  · obtain ⟨next, done, nextAmple⟩ := copyStrings_alone
      (argument_alone isEnvp) (Int.toNat_natCast _) ample (le_refl 131068)
      envFits
    have argsLong : ¬ (131068 - (packed env).length = 0 ∨
        (packed args).length ≤ 131068 - (packed env).length) :=
      fun argsFit => long ⟨envFits, argsFit, trivial⟩
    rw [done, Prog.andThen_returned, Prog.alone_bind, copyStrings_past
      (argument_alone isArgv) (Int.toNat_natCast _) nextAmple
      (Nat.sub_le _ _) argsLong]
    rfl
  · rw [copyStrings_past (argument_alone isEnvp) (Int.toNat_natCast _) ample
      (le_refl 131068) envFits]
    rfl

/-- A call on a program with strings that do not fit. -/
theorem doExecve_past {task : TaskStruct}
    (isTask : exec.system.task nr = some task)
    (allowed : executable task inode = true)
    (ample : Ample { exec with page := fun _ => none })
    (fromUser : registers.cs &&& 0xffff = 0xf)
    (isName : StringAt around filename name)
    (isInode : around.namei name = some inode)
    (regular : inode.mode &&& 0o170000 = 0o100000)
    (isBlock : inode.block = some block)
    (noScript : ¬ (block 0 = 35 ∧ block 1 = 33))
    (accepted : (readHeader block).refused inode.size = false)
    (isArgv : VectorAt around argv args) (isEnvp : VectorAt around envp env)
    (long : ¬ Fits 131068 [(packed env).length, (packed args).length]) :
    (doExecve around nr registers filename argv envp).alone exec =
      .panic pastArea := by
  have counted {table : Nat} {strings : List (List Byte)} {current : Exec}
      (vector : VectorAt around table strings) :
      (count around table).alone current =
        .returned (strings.length : Int) current := by
    rw [count_eq vector vector.short]
    split <;> rfl
  have current : (myself nr).alone { exec with page := fun _ => none } =
      .returned task { exec with page := fun _ => none } := by
    unfold myself
    rw [Prog.alone_bind, Prog.alone_get, Prog.andThen_returned]
    dsimp only
    rw [isTask]
    rfl
  have named : (oldString around filename).alone
      { exec with page := fun _ => none } =
        .returned name { exec with page := fun _ => none } := by
    rw [oldString_eq isName isName.short]
    rfl
  unfold doExecve
  rw [if_neg (not_not_intro fromUser), Prog.alone_bind, Prog.alone_modify,
    Prog.andThen_returned, Prog.alone_bind, named, Prog.andThen_returned,
    Prog.alone_bind, Prog.alone_sleep, Prog.andThen_returned, isInode]
  dsimp only
  rw [Prog.alone_bind, counted isArgv, Prog.andThen_returned, Prog.alone_bind,
    counted isEnvp, Prog.andThen_returned, Prog.alone_bind, current,
    Prog.andThen_returned]
  obtain ⟨euid, egid, isReadable⟩ := examine_executable regular allowed isBlock
  rw [isReadable]
  dsimp only
  rw [Prog.alone_bind, Prog.alone_sleep, Prog.andThen_returned,
    if_neg noScript]
  exact start_past ample isArgv isEnvp accepted long

end Program

section Example

/-- `execve("a", {string, 0}, 0)`, where the string at 4096 is one byte too
long with its NUL. -/
def longArgument : Surroundings where
  old := fun address =>
    if address = 100 then 97
    else if address = 201 then 16
    else if 4096 ≤ address ∧ address < 135164 then 98
    else 0
  namei := fun name => if name = [97] then some smallProgram else none
  load := fun _ _ => 0

theorem longArgument_vector :
    VectorAt longArgument 200 [List.replicate 131068 98] where
  pointers := by
    intro i bytes isString
    cases i with
    | succ i => cases isString
    | zero =>
        cases isString
        have isPointer : oldLong longArgument (200 + 4 * 0) = 4096 := by decide
        have byte {i : Nat} (below : i < 131069) :
            oldByte longArgument (4096 + i) =
              if i < 131068 then 98 else 0 := by
          unfold oldByte
          rw [unsigned_eq rfl (by omega)]
          unfold longArgument
          dsimp only
          rw [if_neg (by omega), if_neg (by omega)]
          split <;> split <;> first | rfl | omega
        refine ⟨by decide, by rw [isPointer]; decide, ?_⟩
        rw [isPointer]
        refine ⟨?_, ?_, ?_⟩
        · intro i byte' isByte
          obtain ⟨below, rfl⟩ := List.getElem?_eq_some_iff.mp isByte
          rw [List.length_replicate] at below
          rw [List.getElem_replicate, byte (by omega), if_pos below]
        · rw [List.length_replicate, byte (by omega), if_neg (by omega)]
        · intro member
          exact absurd (List.eq_of_mem_replicate member) (by decide)
  ended := fun _ => by decide

theorem initExec_ample : Ample { initExec with page := fun _ => none } := by
  refine ⟨768, 3840, by decide, ?_, ?_⟩
  · have most := Finset.card_filter_le (Finset.range maxArgPages)
      fun i => ({ initExec with page := fun _ => none } : Exec).page i = none
    rw [Finset.card_range] at most
    exact le_trans (Nat.add_le_add_left most 768) (by decide)
  · intro nr above below
    have low : lowMem = 256 := rfl
    have first : sixteenMegabytes.layout.first = 1024 := rfl
    have last : sixteenMegabytes.layout.last = 4096 := rfl
    have isFree := (memInit_free sixteenMegabytes zeroMemory
      (show lowMem ≤ lowMem + nr ∧ lowMem + nr < lowMem + 3840 by omega)).mpr
        ⟨by omega, by omega⟩
    unfold mapNr at isFree
    rwa [Nat.add_sub_cancel_left] at isFree

/-- The array is left on an argument of 128 kB. -/
theorem longArgument_past :
    ¬ (doExecve longArgument 1 userRegisters 100 200 0).Ends
      (Elsewhere sixteenMegabytes.layout 1)
      (fun _ ending => ending ≠ .panic pastArea ∧
        (131068 < 131069 → Refused userRegisters ending)) initExec := by
  have isEnvp : VectorAt longArgument 0 [] :=
    ⟨fun _ _ impossible => (nomatch impossible),
      fun notNull => absurd rfl notNull⟩
  have isName : StringAt longArgument 100 [97] := by
    refine ⟨?_, rfl, by decide⟩
    intro i byte isByte
    cases i with
    | zero =>
        cases isByte
        rfl
    | succ i => cases isByte
  have total : (packed [List.replicate 131068 (98 : Byte)]).length =
      131069 := by
    rw [packed_cons, List.length_append, List.length_append,
      List.length_replicate]
    rfl
  have long : ¬ Fits 131068 [(packed []).length,
      (packed [List.replicate 131068 (98 : Byte)]).length] := by
    rw [total]
    decide
  have ended : (doExecve longArgument 1 userRegisters 100 200 0).alone
      initExec = .panic pastArea :=
    doExecve_past rfl rfl initExec_ample (by decide) isName rfl rfl
      rfl (by decide) (by decide) longArgument_vector isEnvp long
  intro holds
  have inside := Run.ends_alone (elsewhere_refl sixteenMegabytes.layout 1)
    holds.run fun spent => by
      have same := spent.symm.trans ended
      cases same
  exact inside.1 ended

end Example

end Linux011.Proc
