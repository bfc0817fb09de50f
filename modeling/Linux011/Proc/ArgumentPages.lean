import Linux011.Proc.Exec

/-!
# The strings on their way to the new image

`copy_strings` fills the argument pages from the top down.  Seen as one
memory, the pages hold the strings copied so far, the last copied first.
-/

namespace Linux011.Proc

open Linux011.Mm Bytes Coop

/-- Where the image of a task is, and who the task is. -/
structure Image where
  startCode : Nat
  endData : Nat
  executable : Option Nat
  codeSegment : Segment
  dataSegment : Segment
  euid : UInt16
  egid : UInt16

def TaskStruct.image (p : TaskStruct) : Image where
  startCode := p.startCode
  endData := p.endData
  executable := p.executable
  codeSegment := p.codeSegment
  dataSegment := p.dataSegment
  euid := p.euid
  egid := p.egid

/-- An image in the window of slot `nr`, with its program below 48 MB. -/
structure Image.InWindow (image : Image) (nr : Nat) : Prop where
  start : image.startCode = windowBase nr
  codeBase : image.codeSegment.base = windowBase nr
  dataBase : image.dataSegment.base = windowBase nr
  codeLimit : image.codeSegment.limit ≤ 0x4000000
  dataLimit : image.dataSegment.limit ≤ 0x4000000
  endData : image.endData ≤ 0x3000000

variable {layout : Layout} {nr : Nat} {exec next : Exec} {holds : Nat → Nat}

/-- The task in slot `nr` is in a system whose accounts are right, has page
tables within its segment only, and holds the pages of the array. -/
structure Running (layout : Layout) (nr : Nat) (exec : Exec)
    (holds : Nat → Nat) : Prop where
  isTask : 1 ≤ nr ∧ nr < 64
  valid : Valid layout exec.system.memory holds
  windowed : ∀ other p, exec.system.task other = some p →
    p.startCode = windowBase other
  own : ∃ p, exec.system.task nr = some p ∧ p.image.InWindow nr ∧
    ∀ dir, nr * 16 + (p.dataSegment.limit + 0x3fffff) / 2 ^ 22 ≤ dir →
      dir < nr * 16 + 16 → (exec.system.memory.pde dir).present = false
  held : ∀ i pag, exec.page i = some pag → 0 < holds pag
  apart : ∀ i j pag, exec.page i = some pag → exec.page j = some pag → i = j
  few : ∀ i, maxArgPages ≤ i → exec.page i = none

/-- The pages in the window of slot `nr` are pages of main memory. -/
def Exec.Paged (layout : Layout) (nr : Nat) (exec : Exec) : Prop :=
  ∀ address, Fault.At nr address →
    (exec.system.memory.entryAt address).present = true →
      Mapped layout exec.system.memory address

/-- What the other tasks, and the loading of the old image, may do while the
task sleeps: they leave its pages and its structure to it. -/
structure Elsewhere (layout : Layout) (nr : Nat) (exec next : Exec) :
    Prop where
  page : next.page = exec.page
  running : ∀ holds, Running layout nr exec holds →
    ∃ holds, Running layout nr next holds
  image : ∀ p, exec.system.task nr = some p →
    ∃ q, next.system.task nr = some q ∧ q.image = p.image
  held : ∀ i pag, exec.page i = some pag →
    next.system.memory.phys pag = exec.system.memory.phys pag
  pages : Exec.Paged layout nr exec → Exec.Paged layout nr next
  mapped : ∀ address, Fault.At nr address →
    Mapped layout exec.system.memory address →
      Mapped layout next.system.memory address ∧
        next.system.memory.userByte address =
          exec.system.memory.userByte address

theorem elsewhere_refl (layout : Layout) (nr : Nat) (exec : Exec) :
    Elsewhere layout nr exec exec where
  page := rfl
  running := fun holds running => ⟨holds, running⟩
  image := fun p isTask => ⟨p, isTask, rfl⟩
  held := fun _ _ _ => rfl
  pages := fun paged => paged
  mapped := fun _ _ mapped => ⟨mapped, rfl⟩

theorem Elsewhere.trans {middle : Exec} (first : Elsewhere layout nr exec middle)
    (second : Elsewhere layout nr middle next) :
    Elsewhere layout nr exec next where
  page := second.page.trans first.page
  running := by
    intro holds running
    obtain ⟨middleHolds, middleRunning⟩ := first.running holds running
    exact second.running middleHolds middleRunning
  image := by
    intro p isTask
    obtain ⟨q, isMiddle, same⟩ := first.image p isTask
    obtain ⟨r, isLast, lastSame⟩ := second.image q isMiddle
    exact ⟨r, isLast, lastSame.trans same⟩
  held := by
    intro i pag isPage
    rw [second.held i pag (by rw [first.page]; exact isPage)]
    exact first.held i pag isPage
  pages := fun paged => second.pages (first.pages paged)
  mapped := by
    intro address inside mapped
    obtain ⟨middleMapped, same⟩ := first.mapped address inside mapped
    obtain ⟨lastMapped, lastSame⟩ := second.mapped address inside middleMapped
    exact ⟨lastMapped, lastSame.trans same⟩

/-- The argument pages as one memory. -/
def Exec.area (exec : Exec) (q : Nat) : Option Byte :=
  (exec.page (q / 4096)).map fun pag => exec.system.memory.byte pag (q % 4096)

/-- The argument pages hold `content` from `p` up to their last four bytes. -/
structure Collected (layout : Layout) (nr : Nat) (exec : Exec) (p : Nat)
    (content : List Byte) : Prop where
  running : ∃ holds, Running layout nr exec holds
  extent : p + content.length = 131068
  content : Holds exec.area p content

variable {p : Nat} {content : List Byte}

theorem Collected.elsewhere (collected : Collected layout nr exec p content)
    (other : Elsewhere layout nr exec next) :
    Collected layout nr next p content := by
  obtain ⟨holds, running⟩ := collected.running
  refine ⟨other.running holds running, collected.extent,
    collected.content.stays ?_⟩
  intro q byte _ _ isByte
  unfold Exec.area at isByte ⊢
  rw [other.page]
  cases isPage : exec.page (q / 4096) with
  | none =>
      rw [isPage] at isByte
      cases isByte
  | some pag =>
      rw [isPage] at isByte
      rw [Option.map_some, State.byte_congr (other.held _ _ isPage)]
      exact isByte

/-- A change of memory that keeps what a running task is about. -/
theorem Running.setMemory (running : Running layout nr exec holds)
    {memory : Mm.State} {nextHolds : Nat → Nat}
    (valid : Valid layout memory nextHolds)
    (pde : ∀ dir, (exec.system.memory.pde dir).present = false →
      (memory.pde dir).present = false)
    (held : ∀ pag, 0 < holds pag → 0 < nextHolds pag) :
    Running layout nr (exec.setMemory memory) nextHolds := by
  obtain ⟨p, isTask, inWindow, tables⟩ := running.own
  refine
    { isTask := running.isTask
      valid := valid
      windowed := running.windowed
      own := ⟨p, isTask, inWindow, ?_⟩
      held := fun i pag isPage => held pag (running.held i pag isPage)
      apart := running.apart
      few := running.few }
  intro dir above below
  exact pde dir (tables dir above below)

/-! ## The copying -/

theorem takePage_wp (running : Running layout nr exec holds)
    {post : Option Nat → Exec → Prop}
    (taken : ∀ pag memory, Taken layout exec.system.memory holds pag memory →
      post (some pag) (exec.setMemory memory)) :
    takePage.wp .returns (Elsewhere layout nr) post exec := by
  unfold takePage
  simp only [Prog.wp_bind, Prog.wp_get]
  cases found : getFreePage exec.system.memory with
  | mk result memory =>
      cases result with
      | none => exact trivial
      | some pag =>
          exact taken pag memory (getFreePage_some running.valid found)

/-- A new page is in no other place of the array. -/
theorem Running.fresh (running : Running layout nr exec holds) {i pag old : Nat}
    {memory : Mm.State} (got : Taken layout exec.system.memory holds pag memory)
    (isOld : exec.page i = some old) : old ≠ pag := by
  rintro rfl
  have held := running.held i old isOld
  rw [got.unheld] at held
  omega

/-- A new page is entered in the array. -/
theorem Running.setPage (running : Running layout nr exec holds) {i pag : Nat}
    {memory : Mm.State} (got : Taken layout exec.system.memory holds pag memory)
    (inArea : i < maxArgPages) :
    Running layout nr ((exec.setMemory memory).setPage i (some pag))
      (take holds pag) := by
  have middle : Running layout nr (exec.setMemory memory) (take holds pag) := by
    refine running.setMemory got.valid ?_ ?_
    · intro dir isAbsent
      have same : memory.pde = exec.system.memory.pde :=
        congrArg View.dirs got.view
      rw [same]
      exact isAbsent
    · intro other held
      unfold take
      split <;> omega
  have pages (other : Nat) :
      ((exec.setMemory memory).setPage i (some pag)).page other =
        if other = i then some pag else exec.page other := rfl
  refine
    { isTask := middle.isTask
      valid := middle.valid
      windowed := middle.windowed
      own := middle.own
      held := ?_
      apart := ?_
      few := ?_ }
  · intro other old isOld
    rw [pages] at isOld
    split at isOld
    · cases isOld
      exact take_pos holds pag
    · exact middle.held other old isOld
  · intro first second old isFirst isSecond
    rw [pages] at isFirst isSecond
    split at isFirst <;> split at isSecond <;> rename_i here there
    · rw [here, there]
    · cases isFirst
      exact absurd rfl (running.fresh got isSecond)
    · cases isSecond
      exact absurd rfl (running.fresh got isFirst)
    · exact running.apart first second old isFirst isSecond
  · intro other beyond
    rw [pages, if_neg (by omega)]
    exact running.few other beyond

/-- A byte is stored in a page of the array. -/
theorem Running.setByte (running : Running layout nr exec holds) {i pag : Nat}
    (isPage : exec.page i = some pag) (offset : Nat) (byte : Byte) :
    Running layout nr
      (exec.setMemory (exec.system.memory.setByte pag offset byte)) holds := by
  obtain ⟨valid, sameView⟩ := setByteHeld running.valid
    (running.held i pag isPage) offset byte
  refine running.setMemory valid ?_ fun _ held => held
  intro dir isAbsent
  have same : (exec.system.memory.setByte pag offset byte).pde =
      exec.system.memory.pde := congrArg View.dirs sameView
  rw [same]
  exact isAbsent

/-- The page is there, or a new one takes its place. -/
theorem argPage_wp (collected : Collected layout nr exec p content) {q : Nat}
    (inArea : q / 4096 < maxArgPages) :
    (argPage q).wp .returns (Elsewhere layout nr)
      (fun result next => ∃ pag, result = some pag ∧
        next.page (q / 4096) = some pag ∧
          Collected layout nr next p content) exec := by
  obtain ⟨holds, running⟩ := collected.running
  unfold argPage
  simp only [Prog.wp_bind, Prog.wp_get]
  rw [if_pos inArea]
  cases isPage : exec.page (q / 4096) with
  | some pag => exact ⟨pag, rfl, isPage, collected⟩
  | none =>
      simp only [Prog.wp_bind]
      refine takePage_wp running ?_
      intro pag memory got
      have pages (other : Nat) :
          ((exec.setMemory memory).setPage (q / 4096) (some pag)).page other =
            if other = q / 4096 then some pag else exec.page other := rfl
      refine ⟨pag, rfl, (pages _).trans (if_pos rfl), ?_⟩
      refine ⟨⟨take holds pag, running.setPage got inArea⟩,
        collected.extent, ?_⟩
      refine collected.content.stays ?_
      intro other byte _ _ isByte
      unfold Exec.area at isByte ⊢
      rw [pages]
      split <;> rename_i here
      · rw [here, isPage] at isByte
        cases isByte
      · cases isOld : exec.page (other / 4096) with
        | none =>
            rw [isOld] at isByte
            cases isByte
        | some old =>
            rw [isOld] at isByte
            show some (memory.byte old (other % 4096)) = some byte
            rw [State.byte_congr (got.others old (running.fresh got isOld))]
            exact isByte

theorem storeByte_wp (collected : Collected layout nr exec p content)
    {byte : Byte} {pag : Nat} (positive : 0 < p)
    (isPage : exec.page ((p - 1) / 4096) = some pag) {offset : Int}
    (isOffset : offset = ((p - 1) % 4096 : Nat)) :
    (storeByte byte ⟨p - 1, offset, some pag⟩).wp .returns
      (Elsewhere layout nr)
      (fun result next => result = some ⟨p - 1, offset, some pag⟩ ∧
        next.page ((p - 1) / 4096) = some pag ∧
          Collected layout nr next (p - 1) (byte :: content)) exec := by
  subst isOffset
  unfold storeByte
  simp only [Prog.wp_bind, Prog.wp_sleep]
  intro middle other
  have awake := collected.elsewhere other
  obtain ⟨holds, running⟩ := awake.running
  have isMiddlePage : middle.page ((p - 1) / 4096) = some pag := by
    rw [other.page]
    exact isPage
  obtain ⟨memory, isMemory⟩ : ∃ memory, memory =
      middle.system.memory.setByte pag ((p - 1) % 4096) byte := ⟨_, rfl⟩
  show _ ∧ _ ∧ Collected layout nr (middle.setMemory
    (middle.system.memory.setByte pag ((p - 1) % 4096) byte)) (p - 1)
      (byte :: content)
  rw [← isMemory]
  refine ⟨rfl, isMiddlePage, ⟨holds, ?_⟩, ?_, ?_⟩
  · rw [isMemory]
    exact running.setByte isMiddlePage _ byte
  · have extent := collected.extent
    rw [List.length_cons]
    omega
  · have area (q : Nat) : (middle.setMemory memory).area q =
        if q = p - 1 then some byte else middle.area q := by
      unfold Exec.area
      show (middle.page (q / 4096)).map
        (fun pag => memory.byte pag (q % 4096)) = _
      rw [isMemory]
      by_cases here : q = p - 1
      · rw [if_pos here, here, isMiddlePage, Option.map_some,
          State.byte_setByte, if_pos ⟨rfl, rfl⟩]
      · rw [if_neg here]
        cases isOther : middle.page (q / 4096) with
        | none => rfl
        | some old =>
            rw [Option.map_some, Option.map_some, State.byte_setByte, if_neg]
            rintro ⟨rfl, sameOffset⟩
            have sameIndex := running.apart _ _ _ isOther isMiddlePage
            omega
    refine holds_cons.mpr ⟨(area _).trans (if_pos rfl), ?_⟩
    rw [Nat.sub_add_cancel positive]
    refine awake.content.stays ?_
    intro q old above _ isOld
    rw [area, if_neg (by omega)]
    exact isOld

theorem unsigned_eq {value : Int} {n : Nat} (same : value = n)
    (small : n < 4294967296) : unsigned value = n := by
  unfold unsigned
  omega

/-- Where `copy_strings` is: it has to look for a page, or is in one. -/
def Copier.At (copier : Copier) (exec : Exec) : Prop :=
  copier.offset = 0 ∨ copier.offset = (copier.p % 4096 : Nat) ∧
    ∃ pag, copier.pag = some pag ∧ exec.page (copier.p / 4096) = some pag

variable {copier : Copier}

/-- Strings as they lie in the argument pages. -/
def packed (strings : List (List Byte)) : List Byte :=
  strings.flatMap (· ++ [0])

theorem packed_cons (string : List Byte) (rest : List (List Byte)) :
    packed (string :: rest) = (string ++ [0]) ++ packed rest :=
  List.flatMap_cons

theorem packed_append (strings rest : List (List Byte)) :
    packed (strings ++ rest) = packed strings ++ packed rest :=
  List.flatMap_append

theorem packed_take {strings : List (List Byte)} {i : Nat}
    {string : List Byte} (isString : strings[i]? = some string) :
    packed (strings.take (i + 1)) =
      packed (strings.take i) ++ (string ++ [0]) := by
  obtain ⟨below, rfl⟩ := List.getElem?_eq_some_iff.mp isString
  rw [List.take_succ_eq_append_getElem below, packed_append, packed_cons]
  exact congrArg _ (List.append_nil _)

/-- The program returns the string, whatever happens meanwhile. -/
def Reads (layout : Layout) (nr : Nat) (string : ExecProg (List Byte))
    (bytes : List Byte) : Prop :=
  ∀ exec, string.wp .returns (Elsewhere layout nr)
    (fun result next => result = bytes ∧ Elsewhere layout nr exec next) exec

theorem Copier.At.elsewhere (isAt : copier.At exec)
    (other : Elsewhere layout nr exec next) : copier.At next := by
  unfold Copier.At at isAt ⊢
  rw [other.page]
  exact isAt

theorem scan_eq {stop : Nat → Bool} {rounds first n : Nat}
    (goes : ∀ i, i < n → stop (first + i) = false)
    (stops : stop (first + n) = true) (enough : n < rounds) :
    scan stop rounds first = some (first + n) := by
  induction rounds generalizing first n with
  | zero => omega
  | succ rounds induction =>
      unfold scan
      cases n with
      | zero => exact if_pos stops
      | succ n =>
          have goesOn : stop first = false := goes 0 (Nat.succ_pos n)
          rw [if_neg (by simp [goesOn]), induction (n := n)]
          · congr 1
            omega
          · intro i below
            rw [show first + 1 + i = first + (i + 1) by omega]
            exact goes (i + 1) (by omega)
          · rw [show first + 1 + n = first + (n + 1) by omega]
            exact stops
          · omega

/-- A NUL-terminated string of the old image. -/
structure StringAt (around : Surroundings) (address : Nat)
    (string : List Byte) : Prop where
  bytes : ∀ i byte, string[i]? = some byte →
    oldByte around (address + i) = byte
  terminated : oldByte around (address + string.length) = 0
  proper : 0 ∉ string

/-- The loop over the bytes finds the string. -/
theorem oldString_eq {around : Surroundings} {address : Nat}
    {string : List Byte} (isString : StringAt around address string)
    (short : string.length < 4294967296) :
    oldString around address = (Prog.sleep >>= fun _ => pure string) := by
  have byte (i : Nat) (below : i < string.length) :
      oldByte around (address + i) = string[i] :=
    isString.bytes i _ (List.getElem?_eq_getElem below)
  have found : scan (fun i => oldByte around (address + i) == 0)
      4294967296 0 = some (0 + string.length) := by
    apply scan_eq
    · intro i below
      rw [Nat.zero_add, byte i below, beq_eq_false_iff_ne]
      intro isZero
      exact isString.proper (isZero ▸ List.getElem_mem below)
    · rw [Nat.zero_add, beq_iff_eq]
      exact isString.terminated
    · exact short
  have bytes : (List.range string.length).map
      (fun i => oldByte around (address + i)) = string := by
    refine List.ext_getElem (by simp) ?_
    intro i below _
    rw [List.length_map, List.length_range] at below
    simpa using byte i below
  unfold oldString
  rw [found, Nat.zero_add]
  dsimp only
  rw [bytes]

theorem oldString_wp {fate : Fate} {around : Surroundings} {address : Nat}
    {string : List Byte} (isString : StringAt around address string)
    (short : string.length < 4294967296) :
    (oldString around address).wp fate (Elsewhere layout nr)
      (fun result next => result = string ∧ Elsewhere layout nr exec next)
      exec := by
  rw [oldString_eq isString short, Prog.wp_bind, Prog.wp_sleep]
  exact fun next other => ⟨rfl, other⟩

/-- A vector of pointers to strings in the old image, or no vector. -/
structure VectorAt (around : Surroundings) (argv : Nat)
    (strings : List (List Byte)) : Prop where
  pointers : ∀ i bytes, strings[i]? = some bytes →
    argv ≠ 0 ∧ oldLong around (argv + 4 * i) ≠ 0 ∧
      StringAt around (oldLong around (argv + 4 * i)) bytes
  ended : argv ≠ 0 → oldLong around (argv + 4 * strings.length) = 0

theorem VectorAt.proper {around : Surroundings} {table : Nat}
    {strings : List (List Byte)} (vector : VectorAt around table strings) :
    ∀ string ∈ strings, 0 ∉ string := by
  intro string member
  obtain ⟨i, isString⟩ := List.mem_iff_getElem?.mp member
  exact (vector.pointers i string isString).2.2.proper

theorem count_eq {around : Surroundings} {argv : Nat}
    {strings : List (List Byte)} (vector : VectorAt around argv strings)
    (short : strings.length < 1073741824) :
    count around argv = if argv = 0 then pure (strings.length : Int)
      else (Prog.sleep >>= fun _ => pure (strings.length : Int)) := by
  unfold count
  by_cases isNull : argv = 0
  · rw [if_pos isNull, if_pos isNull]
    have none : strings = [] := by
      by_contra some
      obtain ⟨first, rest, rfl⟩ := List.exists_cons_of_ne_nil some
      exact (vector.pointers 0 first rfl).1 isNull
    rw [none]
    rfl
  · rw [if_neg isNull, if_neg isNull]
    have found : scan (fun i => oldLong around (argv + 4 * i) == 0)
        1073741824 0 = some (0 + strings.length) := by
      apply scan_eq
      · intro i below
        rw [Nat.zero_add, beq_eq_false_iff_ne]
        exact (vector.pointers i _ (List.getElem?_eq_getElem below)).2.1
      · rw [Nat.zero_add, beq_iff_eq]
        exact vector.ended isNull
      · exact short
    rw [found, Nat.zero_add]

theorem count_reads {fate : Fate} {around : Surroundings} {argv : Nat}
    {strings : List (List Byte)} (vector : VectorAt around argv strings)
    (short : strings.length < 1073741824) :
    (count around argv).wp fate (Elsewhere layout nr)
      (fun result next => result = strings.length ∧
        Elsewhere layout nr exec next) exec := by
  rw [count_eq vector short]
  split
  · exact ⟨rfl, elsewhere_refl layout nr exec⟩
  · rw [Prog.wp_bind, Prog.wp_sleep]
    exact fun next other => ⟨rfl, other⟩

theorem argument_eq {around : Surroundings} {argv : Nat}
    {strings : List (List Byte)} (vector : VectorAt around argv strings)
    {i : Nat} {bytes : List Byte} (isString : strings[i]? = some bytes)
    (short : bytes.length < 4294967296) :
    argument around argv i =
      (Prog.sleep >>= fun _ => Prog.sleep >>= fun _ => pure bytes) := by
  obtain ⟨_, notNull, isAt⟩ := vector.pointers i bytes isString
  unfold argument pointedString
  rw [if_neg notNull, oldString_eq isAt short]

theorem argument_wp {fate : Fate} {around : Surroundings} {argv : Nat}
    {strings : List (List Byte)} (vector : VectorAt around argv strings)
    {i : Nat} {bytes : List Byte} (isString : strings[i]? = some bytes)
    (short : bytes.length < 4294967296) :
    (argument around argv i).wp fate (Elsewhere layout nr)
      (fun result next => result = bytes ∧ Elsewhere layout nr exec next)
      exec := by
  rw [argument_eq vector isString short, Prog.wp_bind, Prog.wp_sleep]
  intro next other
  rw [Prog.wp_bind, Prog.wp_sleep]
  exact fun last further => ⟨rfl, other.trans further⟩

section Lengths

variable {around : Surroundings}

theorem oldByte_wraps (address : Nat) :
    oldByte around (address + 4294967296) = oldByte around address := by
  have same : unsigned ((address + 4294967296 : Nat) : Int) =
      unsigned (address : Int) := by
    unfold unsigned
    omega
  unfold oldByte
  rw [same]

theorem oldLong_wraps (address : Nat) :
    oldLong around (address + 4294967296) = oldLong around address := by
  have wraps (i : Nat) : oldByte around (address + 4294967296 + i) =
      oldByte around (address + i) := by
    rw [show address + 4294967296 + i = address + i + 4294967296 by omega]
    exact oldByte_wraps _
  unfold oldLong
  rw [oldByte_wraps, wraps 1, wraps 2, wraps 3]

/-- A string that ends does so before it comes round. -/
theorem StringAt.short {address : Nat} {string : List Byte}
    (isString : StringAt around address string) :
    string.length < 4294967296 := by
  by_contra long
  have below : string.length - 4294967296 < string.length := by omega
  have isByte := isString.bytes _ _ (List.getElem?_eq_getElem below)
  have wraps := @oldByte_wraps around
    (address + (string.length - 4294967296))
  rw [show address + (string.length - 4294967296) + 4294967296 =
    address + string.length by omega, isString.terminated, isByte] at wraps
  exact isString.proper (wraps ▸ List.getElem_mem below)

theorem VectorAt.short {argv : Nat} {strings : List (List Byte)}
    (vector : VectorAt around argv strings) :
    strings.length < 1073741824 := by
  by_contra long
  have below : strings.length - 1073741824 < strings.length := by omega
  obtain ⟨notNull, pointer, _⟩ :=
    vector.pointers _ _ (List.getElem?_eq_getElem below)
  have wraps := @oldLong_wraps around
    (argv + 4 * (strings.length - 1073741824))
  rw [show argv + 4 * (strings.length - 1073741824) + 4294967296 =
    argv + 4 * strings.length by omega, vector.ended notNull] at wraps
  exact pointer wraps.symm

theorem VectorAt.string_short {argv : Nat} {strings : List (List Byte)}
    (vector : VectorAt around argv strings) {i : Nat} {bytes : List Byte}
    (isString : strings[i]? = some bytes) : bytes.length < 4294967296 :=
  (vector.pointers i bytes isString).2.2.short

theorem VectorAt.tail {argv : Nat} {first : List Byte}
    {rest : List (List Byte)} (vector : VectorAt around argv (first :: rest)) :
    VectorAt around (argv + 4) rest where
  pointers := by
    intro i bytes isString
    obtain ⟨_, pointer, isAt⟩ := vector.pointers (i + 1) bytes isString
    rw [show argv + 4 * (i + 1) = argv + 4 + 4 * i by omega] at pointer isAt
    exact ⟨by omega, pointer, isAt⟩
  ended := by
    intro _
    have notNull := (vector.pointers 0 first rfl).1
    have isEnd := vector.ended notNull
    rwa [List.length_cons, show argv + 4 * (rest.length + 1) =
      argv + 4 + 4 * rest.length by omega] at isEnd

end Lengths

end Linux011.Proc
