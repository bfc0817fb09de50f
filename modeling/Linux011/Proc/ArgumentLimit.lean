import Linux011.Proc.ArgumentCopies

/-!
# Arguments that do not fit

What `do_execve` makes of strings that are too long for the argument pages:
it refuses them where the calls of `copy_strings` end exactly at the start of
the array, or run out of pages, and goes past the array elsewhere.
-/

namespace Linux011.Proc

open Linux011.Mm Bytes Coop

variable {layout : Layout} {nr : Nat} {exec next : Exec} {p : Nat}
  {content : List Byte} {registers : Registers}

/-! ## Giving up -/

/-- The array with its first pages freed. -/
structure Freeing (layout : Layout) (exec : Exec) (count : Nat)
    (holds : Nat → Nat) : Prop where
  valid : Valid layout exec.system.memory holds
  held : ∀ i pag, count ≤ i → exec.page i = some pag → 0 < holds pag
  apart : ∀ i j pag, exec.page i = some pag → exec.page j = some pag → i = j
  few : ∀ i, maxArgPages ≤ i → exec.page i = none
  freed : ∀ i pag, i < count → exec.page i = some pag →
    exec.system.memory.memMap (mapNr pag) = 0

theorem Running.freeing {holds : Nat → Nat}
    (running : Running layout nr exec holds) : Freeing layout exec 0 holds where
  valid := running.valid
  held := fun i pag _ => running.held i pag
  apart := running.apart
  few := running.few
  freed := fun i _ below => absurd below (Nat.not_lt_zero i)

theorem freeArgPages_frees {fate : Fate} {env : Exec → Exec → Prop}
    {count : Nat} (freeing : ∃ holds, Freeing layout exec 0 holds) :
    (freeArgPages count).wp fate env
      (fun _ next => ∃ holds, Freeing layout next count holds) exec := by
  induction count with
  | zero => exact freeing
  | succ count induction =>
      unfold freeArgPages
      rw [Prog.wp_bind]
      refine Prog.wp_mono induction ?_
      rintro _ middle ⟨holds, freeing⟩
      rw [Prog.wp_bind, Prog.wp_get]
      cases isPage : middle.page count with
      | none =>
          refine ⟨holds, freeing.valid, ?_, freeing.apart, freeing.few, ?_⟩
          · intro i pag above isOther
            exact freeing.held i pag (by omega) isOther
          · intro i pag below isOther
            rcases Nat.lt_succ_iff_lt_or_eq.mp below with under | rfl
            · exact freeing.freed i pag under isOther
            · rw [isPage] at isOther
              cases isOther
      | some page =>
          obtain ⟨freed, valid⟩ := freePage_held freeing.valid
            (freeing.held count page (le_refl _) isPage)
          dsimp only
          rw [freed]
          show ∃ holds, Freeing layout (middle.setMemory
            (middle.system.memory.setMap (mapNr page) 0)) (count + 1) holds
          refine ⟨give holds page, valid, ?_, freeing.apart, freeing.few, ?_⟩
          · intro i pag above isOther
            have different : pag ≠ page := by
              rintro rfl
              have := freeing.apart i count pag isOther isPage
              omega
            unfold give
            rw [if_neg different]
            exact freeing.held i pag (by omega) isOther
          · intro i pag below isOther
            replace isOther : middle.page i = some pag := isOther
            refine (State.memMap_setMap _ _ _ _).trans ?_
            split <;> rename_i other
            · rfl
            · rcases Nat.lt_succ_iff_lt_or_eq.mp below with under | rfl
              · exact freeing.freed i pag under isOther
              · rw [isPage] at isOther
                cases isOther
                exact absurd rfl other

theorem freeArgPages_released {fate : Fate} {env : Exec → Exec → Prop}
    {count : Nat} {value : Int × Registers} (all : maxArgPages ≤ count) :
    Prog.Hoare fate env (fun exec => ∃ holds, Freeing layout exec 0 holds)
      (freeArgPages count >>= fun _ => pure value : ExecProg _)
      fun result next => result = value ∧ Released next := by
  constructor
  intro exec freeing
  rw [Prog.wp_bind]
  refine Prog.wp_mono (freeArgPages_frees freeing) ?_
  rintro _ next ⟨_, freeing⟩
  refine ⟨rfl, ?_⟩
  intro i pag isPage
  refine freeing.freed i pag ?_ isPage
  by_contra beyond
  rw [freeing.few i (by omega)] at isPage
  cases isPage

theorem giveUp_released {errno : Int} :
    Prog.Hoare .total (Elsewhere layout nr) (Gathered layout nr · p)
      (giveUp errno registers)
      fun result next => result = (errno, registers) ∧ Released next :=
  Prog.hoare_pre (freeArgPages_released (le_refl maxArgPages))
    fun _ gathered => gathered.running.imp fun _ running => running.freeing

theorem giveUp_limited (gathered : Gathered layout nr exec p) :
    (giveUp (-12) registers).Ends (Elsewhere layout nr)
      (Limited registers p []) exec := by
  refine Prog.ends_of_hoare giveUp_released gathered ?_
  rintro _ next ⟨rfl, released⟩
  have refused : Refused registers (.returned (-12, registers) next) :=
    ⟨next, rfl, released⟩
  exact ⟨fun _ => ⟨(fun impossible => nomatch impossible), fun _ => refused⟩,
    fun impossible => absurd trivial impossible⟩

theorem giveUpInode_limited (gathered : Gathered layout nr exec p) :
    (giveUpInode (-12) registers).Ends (Elsewhere layout nr)
      (Limited registers p []) exec := by
  refine Prog.ends_sleep fun later other => ?_
  exact giveUp_limited (gathered.elsewhere other)

/-! ## Past the strings -/

/-- No panic of `copy_strings`. -/
def insideArea : Fate where
  panic := fun message => message ≠ pastArea
  spent := True
  crossed := True

theorem anything_structural :
    Structural insideArea (Elsewhere layout nr) fun _ => True where
  panics := fun _ different => different
  sleeps := fun _ _ _ _ => trivial
  memory := fun _ _ _ => trivial
  page := fun _ _ _ _ => trivial

/-- With all strings copied and room left, nothing is refused for want of
it. -/
theorem limited_of_stays {program : ExecProg (Int × Registers)}
    (stays : Prog.Stays insideArea (Elsewhere layout nr) (fun _ => True) program)
    (positive : p ≠ 0) :
    program.Ends (Elsewhere layout nr) (Limited registers p []) exec := by
  refine Prog.ends_mono (Prog.ends_of_unmarked (stays.run exec trivial)) ?_
  intro marked ending meets
  refine ⟨fun _ => ⟨?_, ?_⟩, fun impossible => absurd trivial impossible⟩
  · rintro rfl
    exact meets rfl
  · intro isZero
    rw [List.sum_nil] at isZero
    omega

section Stays

variable {around : Surroundings} {inode : Program} {ex : Header}
  {euid egid : UInt16} {argc envc errno : Int}

theorem giveUp_stays :
    Prog.Stays insideArea (Elsewhere layout nr) (fun _ => True)
      (giveUp errno registers) :=
  Prog.stays_bind (freeArgPages_stays anything_structural)
    fun _ => Prog.stays_pure

theorem giveUpInode_stays :
    Prog.Stays insideArea (Elsewhere layout nr) (fun _ => True)
      (giveUpInode errno registers) :=
  Prog.stays_bind (Prog.stays_sleep fun _ _ _ _ => trivial)
    fun _ => giveUp_stays

theorem launch_stays :
    Prog.Stays insideArea (Elsewhere layout nr) (fun _ => True)
      (launch around nr registers inode ex euid egid argc envc p) := by
  have structural :=
    @anything_structural layout nr
  have sleeps : Prog.Stays insideArea (Elsewhere layout nr) (fun _ => True)
      Prog.sleep :=
    Prog.stays_sleep fun _ _ _ _ => trivial
  have changes {change : Exec → Exec} : Prog.Stays insideArea
      (Elsewhere layout nr) (fun _ => True) (Prog.modify change) :=
    Prog.stays_modify fun _ _ => trivial
  unfold launch changeLdt
  refine Prog.stays_bind sleeps fun _ => ?_
  refine Prog.stays_bind changes fun _ => ?_
  refine Prog.stays_bind sleeps fun _ => ?_
  refine Prog.stays_bind changes fun _ => ?_
  refine Prog.stays_bind (myself_stays structural) fun task => ?_
  refine Prog.stays_read fun exec => ?_
  refine Prog.stays_bind (settle_stays structural freePageTables_known)
    fun _ => ?_
  refine Prog.stays_read fun exec => ?_
  refine Prog.stays_bind (settle_stays structural freePageTables_known)
    fun _ => ?_
  refine Prog.stays_bind ?_ fun dataLimit => ?_
  · refine Prog.stays_bind (myself_stays structural) fun task => ?_
    refine Prog.stays_bind changes fun _ => ?_
    exact Prog.stays_bind (putArgPages_stays structural) fun _ =>
      Prog.stays_pure
  refine Prog.stays_bind (createTables_stays structural) fun sp => ?_
  refine Prog.stays_bind changes fun _ => ?_
  exact Prog.stays_bind (clearTail_stays structural) fun _ => Prog.stays_pure

end Stays

/-! ## The whole call -/

section Call

variable {around : Surroundings} {inode : Program} {ex : Header}
  {euid egid : UInt16} {filename argv envp : Nat} {name : List Byte}
  {args env : List (List Byte)} {line : ScriptLine} {block : Nat → Byte}

theorem argument_fetches {table : Nat} {strings : List (List Byte)}
    (vector : VectorAt around table strings) :
    ∀ i bytes, strings[i]? = some bytes →
      Fetches layout nr (argument around table i) bytes :=
  fun _ _ isString _ =>
    argument_wp vector isString (vector.string_short isString)

/-- A call with one string. -/
theorem single_fetches {string : ExecProg (List Byte)}
    (fetches : Fetches layout nr string content) :
    ∀ (i : Nat) bytes, ([content] : List (List Byte))[i]? = some bytes →
      Fetches layout nr ((fun _ : Nat => string) i) bytes := by
  intro i bytes isString
  cases i with
  | zero =>
      cases isString
      exact fetches
  | succ i => cases isString

theorem pure_fetches : Fetches layout nr (pure content) content :=
  fun exec => ⟨rfl, elsewhere_refl layout nr exec⟩

theorem filename_fetches (isName : StringAt around filename name)
    (notNull : filename ≠ 0) :
    Fetches layout nr (pointedString around filename) name := by
  intro exec
  unfold pointedString
  rw [if_neg notNull]
  exact oldString_wp isName isName.short

theorem start_limited (gathered : Gathered layout nr exec 131068)
    (isArgv : VectorAt around argv args) (isEnvp : VectorAt around envp env)
    (accepted : ex.refused inode.size = false) :
    (start around nr registers argv envp args.length env.length 131068 inode
      ex euid egid).Ends (Elsewhere layout nr)
      (Limited registers 131068 [(packed env).length, (packed args).length])
      exec := by
  unfold start
  rw [if_neg (by rw [accepted]; exact Bool.false_ne_true)]
  refine copyStrings_limited gathered (Int.toNat_natCast _)
    (argument_fetches isEnvp) ?_
  intro p later laterGathered
  refine copyStrings_limited laterGathered (Int.toNat_natCast _)
    (argument_fetches isArgv) ?_
  intro p last lastGathered
  by_cases isZero : p = 0
  · rw [if_pos isZero]
    exact giveUpInode_limited lastGathered
  · rw [if_neg isZero]
    exact limited_of_stays launch_stays isZero

/-- The strings behind the first of `argv`. -/
theorem tail_fetches (isArgv : VectorAt around argv args) :
    ∀ i bytes, args.tail[i]? = some bytes →
      Fetches layout nr (argument around (argv + 4) i) bytes := by
  cases args with
  | nil => exact fun _ _ impossible => nomatch impossible
  | cons first rest => exact argument_fetches isArgv.tail

theorem restart_limited {argc envc : Int}
    (gathered : Gathered layout nr exec p) :
    (restart around nr registers argc envc p line).Ends (Elsewhere layout nr)
      (Limited registers p []) exec := by
  unfold restart
  split <;> rename_i isZero
  · exact giveUp_limited gathered
  refine limited_of_stays ?_ isZero
  refine Prog.stays_bind (Prog.stays_sleep fun _ _ _ _ => trivial) fun _ => ?_
  split
  · exact giveUp_stays
  refine Prog.stays_bind (myself_stays anything_structural) fun task => ?_
  split
  · exact giveUpInode_stays
  refine Prog.stays_bind (Prog.stays_sleep fun _ _ _ _ => trivial) fun _ => ?_
  dsimp only
  split
  · exact giveUpInode_stays
  · exact launch_stays

/-- What the calls for a script copy, the first call first. -/
def scriptCalls (name : List Byte) (line : ScriptLine)
    (args env : List (List Byte)) : List (List (List Byte)) :=
  [env, args.tail, [name]] ++ line.argument.toList.map (fun rest => [rest]) ++
    [[line.name]]

theorem interpret_limited (gathered : Gathered layout nr exec 131068)
    (isArgv : VectorAt around argv args) (isEnvp : VectorAt around envp env)
    (isName : StringAt around filename name) (notNull : filename ≠ 0) :
    (interpret around nr registers filename argv envp args.length env.length
      131068 line).Ends (Elsewhere layout nr)
      (Limited registers 131068
        ((scriptCalls name line args env).map fun call => (packed call).length))
      exec := by
  have isArgc : ((args.length : Int) - 1).toNat = args.tail.length := by
    rw [List.length_tail]
    omega
  rw [interpret_eq]
  refine copyStrings_limited gathered (Int.toNat_natCast _)
    (argument_fetches isEnvp) fun p second secondGathered => ?_
  refine copyStrings_limited secondGathered isArgc (tail_fetches isArgv)
    fun p third thirdGathered => ?_
  refine copyStrings_limited thirdGathered rfl
    (single_fetches (filename_fetches isName notNull))
    fun p fourth fourthGathered => ?_
  cases isArgument : line.argument with
  | none =>
      exact copyStrings_limited fourthGathered rfl
        (single_fetches pure_fetches) fun p fifth fifthGathered =>
          restart_limited fifthGathered
  | some rest =>
      refine copyStrings_limited fourthGathered rfl
        (single_fetches pure_fetches) fun p fifth fifthGathered => ?_
      exact copyStrings_limited fifthGathered rfl
        (single_fetches pure_fetches) fun p sixth sixthGathered =>
          restart_limited sixthGathered

/-- The calls of `copy_strings`, for a program and for a script. -/
inductive Copies (filename : Nat) (name : List Byte) (inode : Program)
    (block : Nat → Byte) (args env : List (List Byte)) :
    List (List (List Byte)) → Prop where
  | program (noScript : ¬ (block 0 = 35 ∧ block 1 = 33))
      (accepted : (readHeader block).refused inode.size = false) :
      Copies filename name inode block args env [env, args]
  | script (line : ScriptLine) (isScript : block 0 = 35 ∧ block 1 = 33)
      (isLine : scriptLine block = some line) (notNull : filename ≠ 0) :
      Copies filename name inode block args env
        (scriptCalls name line args env)

/-- A call that gets as far as the strings. -/
structure Reaches (around : Surroundings) (registers : Registers)
    (filename argv envp : Nat) (inode : Program)
    (calls : List (List (List Byte))) : Prop where
  fromUser : registers.cs &&& 0xffff = 0xf
  regular : inode.mode &&& 0o170000 = 0o100000
  strings : ∃ name block args env, StringAt around filename name ∧
    around.namei name = some inode ∧ inode.block = some block ∧
      VectorAt around argv args ∧ VectorAt around envp env ∧
        Copies filename name inode block args env calls

theorem doExecve_limited {calls : List (List (List Byte))}
    (caller : Caller layout nr inode exec)
    (reaches : Reaches around registers filename argv envp inode calls) :
    (doExecve around nr registers filename argv envp).Ends
      (Elsewhere layout nr) (Limited registers 131068
        (calls.map fun call => (packed call).length)) exec := by
  obtain ⟨name, block, args, env, isName, isInode, isBlock, isArgv, isEnvp,
    copies⟩ := reaches.strings
  obtain ⟨holds, running⟩ := caller.running
  have collected : Collected layout nr { exec with page := fun _ => none }
      131068 [] := ⟨⟨holds, running⟩, rfl, holds_nil⟩
  unfold doExecve
  rw [if_neg (not_not_intro reaches.fromUser)]
  refine Prog.ends_modify ?_
  refine Prog.ends_then (oldString_wp isName isName.short) ?_
  rintro _ named ⟨rfl, first⟩
  refine Prog.ends_sleep fun found second => ?_
  rw [isInode]
  refine Prog.ends_then (count_reads isArgv isArgv.short) ?_
  rintro argc counted ⟨rfl, third⟩
  refine Prog.ends_then (count_reads isEnvp isEnvp.short) ?_
  rintro envc ready ⟨rfl, fourth⟩
  have other := ((first.trans second).trans third).trans fourth
  obtain ⟨q, euid, egid, isNow, isReadable⟩ :=
    caller.examines reaches.regular isBlock other
  have current : (myself nr).wp .total (Elsewhere layout nr)
      (fun result next => result = q ∧ next = ready) ready :=
    (myself_wp isNow).mpr ⟨rfl, rfl⟩
  refine Prog.ends_then current ?_
  rintro _ _ ⟨rfl, rfl⟩
  rw [isReadable]
  refine Prog.ends_sleep fun last fifth => ?_
  have gathered := (collected.elsewhere (other.trans fifth)).gathered
  cases copies with
  | program noScript accepted =>
      rw [if_neg noScript]
      exact start_limited gathered isArgv isEnvp accepted
  | script line isScript isLine notNull =>
      rw [if_pos isScript, isLine]
      exact interpret_limited gathered isArgv isEnvp isName notNull

/-- In every run the accesses stay within the argument pages and oversized
arguments are refused, exactly if each call of `copy_strings` fits in what the
calls before it left, or they left nothing, or `get_free_page` fails. -/
theorem doExecve_refuses_iff {calls : List (List (List Byte))}
    (caller : Caller layout nr inode exec)
    (reaches : Reaches around registers filename argv envp inode calls) :
    (doExecve around nr registers filename argv envp).Ends
      (Elsewhere layout nr) (fun marked ending =>
        (ending ≠ .panic pastArea ∧
          (131068 < (calls.map fun call => (packed call).length).sum →
            Refused registers ending)) ↔
          Fits 131068 (calls.map fun call => (packed call).length) ∨
            marked = true) exec := by
  refine Prog.ends_mono (doExecve_limited caller reaches) ?_
  intro marked ending limited
  constructor
  · rintro ⟨inside, _⟩
    by_contra neither
    obtain ⟨long, unmarked⟩ := not_or.mp neither
    exact inside (limited.past long (eq_false_of_ne_true unmarked))
  · intro within
    obtain ⟨inside, refused⟩ := limited.within within
    exact ⟨inside, fun past => refused (le_of_lt past)⟩

theorem Executes.reaches (executes : Executes around registers filename argv
    envp inode block args env) :
    Reaches around registers filename argv envp inode [env, args] := by
  obtain ⟨name, isName, _, isInode⟩ := executes.names
  exact ⟨executes.fromUser, executes.regular, name, block, args, env, isName,
    isInode, executes.isBlock, executes.isArgv, executes.isEnvp,
    .program executes.noScript executes.accepted⟩

end Call

theorem doExecve_refuses_oneArgument :
    (doExecve oneArgument 1 userRegisters 100 200 0).Ends
      (Elsewhere sixteenMegabytes.layout 1) (fun marked ending =>
        (ending ≠ .panic pastArea ∧
          (131068 < ([[], [[98]]].map fun call => (packed call).length).sum →
            Refused userRegisters ending)) ↔
          Fits 131068 ([[], [[98]]].map fun call => (packed call).length) ∨
            marked = true) initExec :=
  doExecve_refuses_iff initExec_caller oneArgument_executes.reaches

end Linux011.Proc
