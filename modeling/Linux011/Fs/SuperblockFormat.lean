import Linux011.Fs.Superblocks
import Linux011.Fs.CacheSpecs
import Linux011.Fs.CacheTasks

/-!
# Which superblocks `read_super` survives

`read_super` against every content of block 1 and every outcome of its later
reads.  A map of more than eight blocks runs past its array unless one of the
first eight reads fails, and nothing compares the number of map blocks with
the number of inodes and zones; apart from that a failed mount leaves
nothing behind.
-/

namespace Linux011.Fs

open Coop

/-- What the calls of `bread` come back with: a buffer, or `NULL`. -/
structure ReadOutcomes where
  super : Option Nat
  imap : Nat → Option Nat
  zmap : Nat → Option Nat

/-- A call of `bread` as its caller sees it: the buffer has one more
reference. -/
def deliver (outcome : Option Nat) : Sys (Option Nat) :=
  match outcome with
  | none => return none
  | some bh => do
      onBuffer bh fun buffer => { buffer with count := buffer.count + 1 }
      return some bh

def ReadOutcomes.reads (outcomes : ReadOutcomes) : SuperReads where
  super := deliver outcomes.super
  imap := fun i _ => deliver (outcomes.imap i)
  zmap := fun i _ => deliver (outcomes.zmap i)

/-- The map blocks cover the last inode and the last zone. -/
def Super.Covers (super : Super) : Prop :=
  super.ninodes / 8192 < mapSlots ∧
    (super.imap (super.ninodes / 8192)).isSome ∧
      (super.nzones - super.firstdatazone) / 8192 < mapSlots ∧
        (super.zmap ((super.nzones - super.firstdatazone) / 8192)).isSome

/-- A map of `limit` blocks stays in its array. -/
def Fits (outcome : Nat → Option Nat) (limit : Nat) : Prop :=
  limit ≤ mapSlots ∨ ∃ i, i < mapSlots ∧ outcome i = none

/-- The maps that the superblock in `data` announces stay in their arrays
and, where all of them can be read, cover its inodes and zones. -/
structure SoundMaps (data : Block) (outcomes : ReadOutcomes) : Prop where
  imap : Fits outcomes.imap (shortAt data 4)
  zmap : Fits outcomes.zmap (shortAt data 6)
  covers : (∀ i, i < shortAt data 4 → (outcomes.imap i).isSome) →
    (∀ i, i < shortAt data 6 → (outcomes.zmap i).isSome) →
      shortAt data 0 / 8192 < shortAt data 4 ∧
        (shortAt data 2 - shortAt data 8) / 8192 < shortAt data 6

/-- The superblocks and outcomes that `read_super` deals with. -/
def Acceptable (outcomes : ReadOutcomes) (kernel : Kernel) (dev : Nat) :
    Prop :=
  dev ≠ 0 →
    match findSuper kernel.supers dev 0 nrSuper with
    | some sb => (kernel.supers sb).Covers
    | none =>
        findSuper kernel.supers 0 0 nrSuper ≠ none →
          ∀ bh, outcomes.super = some bh →
            shortAt (kernel.buffers bh).data 16 = superMagic →
              SoundMaps (kernel.buffers bh).data outcomes

/-- How `read_super` is to end: with nothing kept, or with a superblock whose
maps cover its inodes and zones. -/
def Survives (kernel : Kernel) : Run Kernel (Option Nat) → Prop
  | .done none final =>
      (∀ sb, (final.supers sb).dev = (kernel.supers sb).dev ∧
        (final.supers sb).lock = (kernel.supers sb).lock) ∧
      ∀ bh, (final.buffers bh).count = (kernel.buffers bh).count
  | .done (some sb) final => (final.supers sb).Covers
  | _ => False

/-- The outcomes name a buffer. -/
def ReadOutcomes.Names (outcomes : ReadOutcomes) (bh : Nat) : Prop :=
  outcomes.super = some bh ∨ (∃ i, outcomes.imap i = some bh) ∨
    ∃ i, outcomes.zmap i = some bh

/-- Where `read_super` starts: no superblock is locked, and the buffers it is
given are distinct, unlocked and short of their 256th reference. -/
structure Mountable (outcomes : ReadOutcomes) (kernel : Kernel) : Prop where
  supers : ∀ sb, (kernel.supers sb).lock = false
  buffers : ∀ bh, outcomes.Names bh →
    (kernel.buffers bh).lock = false ∧ (kernel.buffers bh).count < 255
  imap : ∀ i j bh, outcomes.imap i = some bh → outcomes.imap j = some bh →
    i = j
  zmap : ∀ i j bh, outcomes.zmap i = some bh → outcomes.zmap j = some bh →
    i = j
  apart : ∀ i j bh, outcomes.imap i = some bh → outcomes.zmap j ≠ some bh

variable {start kernel : Kernel} {sb : Nat} {refs : List Nat}

theorem bind_of_done {α β : Type} {program : Sys α} {next : α → Sys β}
    {value : α} {final : Kernel} (ran : program kernel = .done value final) :
    (program >>= next) kernel = next value final := by
  show (program kernel).bind next = next value final
  rw [ran]
  rfl

theorem bind_of_panic {α β : Type} {program : Sys α} {next : α → Sys β}
    {message : String} (ran : program kernel = .panic message) :
    (program >>= next) kernel = .panic message := by
  show (program kernel).bind next = .panic message
  rw [ran]
  rfl

/-- Since `start`, the buffers `refs` have been taken and the slot `sb` has
been changed. -/
structure Holding (start : Kernel) (sb : Nat) (refs : List Nat)
    (kernel : Kernel) : Prop where
  count : ∀ bh, (kernel.buffers bh).count =
    (start.buffers bh).count + refs.count bh
  lock : ∀ bh, (kernel.buffers bh).lock = (start.buffers bh).lock
  data : ∀ bh, (kernel.buffers bh).data = (start.buffers bh).data
  others : ∀ other, other ≠ sb → kernel.supers other = start.supers other

namespace Holding

theorem onSuper (holding : Holding start sb refs kernel)
    (change : Super → Super) :
    Holding start sb refs
      (kernel.setSuper sb (change (kernel.supers sb))) where
  count := holding.count
  lock := holding.lock
  data := holding.data
  others := by
    intro other different
    rw [← holding.others other different]
    simp [Kernel.setSuper, different]

theorem take (holding : Holding start sb refs kernel) (bh : Nat) :
    ∃ final, deliver (some bh) kernel = .done (some bh) final ∧
      Holding start sb (bh :: refs) final ∧ final.supers = kernel.supers := by
  refine ⟨_, rfl, ?_, rfl⟩
  refine ⟨?_, ?_, ?_, holding.others⟩
  · intro other
    have before := holding.count other
    rw [Kernel.setBuffer_buffers, List.count_cons]
    by_cases same : other = bh
    · subst same
      simp
      omega
    · simp [same, Ne.symm same, before]
  · intro other
    rw [Kernel.setBuffer_buffers]
    split <;> rename_i same
    · rw [same]
      exact holding.lock bh
    · exact holding.lock other
  · intro other
    rw [Kernel.setBuffer_buffers]
    split <;> rename_i same
    · rw [same]
      exact holding.data bh
    · exact holding.data other

/-- A buffer taken once is released. -/
theorem release {bh : Nat} (holding : Holding start sb (bh :: refs) kernel)
    (idle : (start.buffers bh).lock = false ∧ (start.buffers bh).count < 255)
    (once : bh ∉ refs) :
    ∃ final, brelse (some bh) kernel = .done () final ∧
      Holding start sb refs final ∧ final.supers = kernel.supers := by
  have count := holding.count bh
  rw [List.count_cons_self, List.count_eq_zero_of_not_mem once] at count
  have unlocked : (kernel.buffers bh).lock = false := by
    rw [holding.lock]
    exact idle.1
  have byte : (kernel.buffers bh).countByte ≠ 0 := by
    unfold Buffer.countByte
    omega
  have waited : waitOnBuffer bh kernel = .done () kernel := by
    unfold waitOnBuffer Prog.waitUntil
    simp [unlocked]
  refine ⟨kernel.setBuffer bh (kernel.buffers bh).dropCount, ?_, ?_, rfl⟩
  · exact (bind_of_done waited).trans (congrFun (if_neg byte) kernel)
  · have dropped : (kernel.buffers bh).dropCount.count =
        (start.buffers bh).count := by
      unfold Buffer.dropCount
      rw [if_neg byte]
      show (kernel.buffers bh).count - 1 = _
      omega
    refine ⟨?_, ?_, ?_, holding.others⟩
    · intro other
      rw [Kernel.setBuffer_buffers]
      split <;> rename_i same
      · rw [same, dropped, List.count_eq_zero_of_not_mem once]
        rfl
      · rw [holding.count, List.count_cons_of_ne (Ne.symm same)]
    · intro other
      rw [Kernel.setBuffer_buffers]
      split <;> rename_i same
      · rw [same]
        exact holding.lock bh
      · exact holding.lock other
    · intro other
      rw [Kernel.setBuffer_buffers]
      split <;> rename_i same
      · rw [same]
        exact holding.data bh
      · exact holding.data other

end Holding

/-- The buffers a loop over map blocks gets, up to its first failure. -/
def gotten (outcome : Nat → Option Nat) : Nat → Nat → List Nat
  | 0, _ => []
  | rest + 1, i =>
      match outcome i with
      | none => []
      | some bh => bh :: gotten outcome rest (i + 1)

theorem gotten_none {outcome : Nat → Option Nat} {rest i : Nat}
    (read : outcome i = none) : gotten outcome (rest + 1) i = [] := by
  simp [gotten, read]

theorem gotten_some {outcome : Nat → Option Nat} {rest i bh : Nat}
    (read : outcome i = some bh) :
    gotten outcome (rest + 1) i = bh :: gotten outcome rest (i + 1) := by
  simp [gotten, read]

theorem mem_gotten {outcome : Nat → Option Nat} {rest i bh : Nat}
    (member : bh ∈ gotten outcome rest i) :
    ∃ j, i ≤ j ∧ j < i + rest ∧ outcome j = some bh := by
  induction rest generalizing i with
  | zero => cases member
  | succ rest induction =>
      unfold gotten at member
      split at member <;> rename_i read
      · cases member
      · rcases List.mem_cons.mp member with rfl | later
        · exact ⟨i, le_refl i, by omega, read⟩
        · obtain ⟨j, fromNext, below, isRead⟩ := induction later
          exact ⟨j, by omega, by omega, isRead⟩

theorem gotten_nodup {outcome : Nat → Option Nat}
    (apart : ∀ i j bh, outcome i = some bh → outcome j = some bh → i = j)
    (rest i : Nat) : (gotten outcome rest i).Nodup := by
  induction rest generalizing i with
  | zero => exact List.nodup_nil
  | succ rest induction =>
      unfold gotten
      split <;> rename_i read
      · exact List.nodup_nil
      · refine List.nodup_cons.mpr ⟨?_, induction (i + 1)⟩
        intro again
        obtain ⟨j, fromNext, _, isRead⟩ := mem_gotten again
        have same := apart i j _ read isRead
        omega

theorem gotten_length_le (outcome : Nat → Option Nat) (rest i : Nat) :
    (gotten outcome rest i).length ≤ rest := by
  induction rest generalizing i with
  | zero => exact le_refl 0
  | succ rest induction =>
      unfold gotten
      split
      · exact Nat.zero_le _
      · exact Nat.succ_le_succ (induction (i + 1))

theorem gotten_length_le_of_none {outcome : Nat → Option Nat}
    {rest i j : Nat} (fromStart : i ≤ j) (failed : outcome j = none) :
    (gotten outcome rest i).length ≤ j - i := by
  induction rest generalizing i with
  | zero => exact Nat.zero_le _
  | succ rest induction =>
      cases read : outcome i with
      | none =>
          rw [gotten_none read]
          exact Nat.zero_le _
      | some bh =>
          have different : j ≠ i := by
            rintro rfl
            rw [failed] at read
            cases read
          have shorter := induction (i := i + 1) (by omega)
          rw [gotten_some read, List.length_cons]
          omega

theorem Fits.fromZero {outcome : Nat → Option Nat} {limit : Nat}
    (fits : Fits outcome limit) : 0 + limit ≤ mapSlots ∨
      ∃ j, 0 ≤ j ∧ j < mapSlots ∧ outcome j = none := by
  rcases fits with short | ⟨i, inSlots, failed⟩
  · exact .inl (by omega)
  · exact .inr ⟨i, Nat.zero_le i, inSlots, failed⟩

theorem Fits.gotten_short {outcome : Nat → Option Nat} {limit : Nat}
    (fits : Fits outcome limit) :
    (gotten outcome limit 0).length ≤ mapSlots := by
  rcases fits with short | ⟨i, inSlots, failed⟩
  · exact (gotten_length_le outcome limit 0).trans short
  · have stops : (gotten outcome limit 0).length ≤ i - 0 :=
      gotten_length_le_of_none (Nat.zero_le i) failed
    omega

theorem gotten_all {outcome : Nat → Option Nat} {rest i : Nat} :
    (gotten outcome rest i).length = rest ↔
      ∀ j, i ≤ j → j < i + rest → (outcome j).isSome := by
  induction rest generalizing i with
  | zero =>
      constructor
      · intro _ j _ _
        omega
      · exact fun _ => rfl
  | succ rest induction =>
      unfold gotten
      cases read : outcome i with
      | none =>
          constructor
          · intro impossible
            cases impossible
          · intro all
            have first := all i (le_refl i) (by omega)
            rw [read] at first
            cases first
      | some bh =>
          rw [List.length_cons, Nat.add_right_cancel_iff, induction]
          constructor
          · intro all j fromStart below
            by_cases first : j = i
            · rw [first, read]
              rfl
            · exact all j (by omega) (by omega)
          · intro all j fromNext below
            exact all j (by omega) (by omega)

theorem Super.imap_setImap (i : Nat) (bh : Option Nat) (super : Super)
    (j : Nat) :
    (super.setImap i bh).imap j = if j = i then bh else super.imap j := rfl

theorem Super.zmap_setZmap (i : Nat) (bh : Option Nat) (super : Super)
    (j : Nat) :
    (super.setZmap i bh).zmap j = if j = i then bh else super.zmap j := rfl

section Loops

variable {outcome : Nat → Option Nat}
  {set : Nat → Option Nat → Super → Super} {get : Super → Nat → Option Nat}

/-- A loop over map blocks that stays in its array. -/
theorem readMap_runs {γ : Type} (observe : Super → γ)
    (getSet : ∀ i bh super j,
      get (set i bh super) j = if j = i then bh else get super j)
    (observeSet : ∀ i bh super, observe (set i bh super) = observe super)
    {rest i : Nat} (block : Nat)
    (fits : i + rest ≤ mapSlots ∨
      ∃ j, i ≤ j ∧ j < mapSlots ∧ outcome j = none)
    (empty : ∀ j, i ≤ j → get (kernel.supers sb) j = none)
    (holding : Holding start sb refs kernel) :
    ∃ final, readMap (fun i _ => deliver (outcome i)) sb set rest i block
        kernel = .done (block + (gotten outcome rest i).length) final ∧
      Holding start sb ((gotten outcome rest i).reverse ++ refs) final ∧
      observe (final.supers sb) = observe (kernel.supers sb) ∧
      ∀ j, get (final.supers sb) j =
        if j < i then get (kernel.supers sb) j
        else (gotten outcome rest i)[j - i]? := by
  induction rest generalizing i block kernel refs with
  | zero =>
      refine ⟨kernel, rfl, holding, rfl, ?_⟩
      intro j
      split <;> rename_i below
      · rfl
      · rw [empty j (by omega)]
        rfl
  | succ rest induction =>
      have inRange : i < mapSlots := by
        rcases fits with short | ⟨j, fromStart, inSlots, _⟩ <;> omega
      have stored (bh : Option Nat) (kernel : Kernel) :
          storeSlot sb set i bh kernel =
            .done () (kernel.setSuper sb (set i bh (kernel.supers sb))) := by
        unfold storeSlot
        rw [if_pos inRange]
        rfl
      cases read : outcome i with
      | none =>
          have missed : deliver (outcome i) kernel = .done none kernel := by
            rw [read]
            rfl
          rw [gotten_none read]
          refine ⟨kernel.setSuper sb (set i none (kernel.supers sb)),
            (bind_of_done missed).trans (bind_of_done (stored none kernel)),
            holding.onSuper (set i none), ?_, ?_⟩
          · simp [Kernel.setSuper, observeSet]
          · intro j
            have now : get ((kernel.setSuper sb
                (set i none (kernel.supers sb))).supers sb) j =
                  if j = i then none else get (kernel.supers sb) j := by
              simp [Kernel.setSuper, getSet]
            rw [now]
            by_cases below : j < i
            · rw [if_pos below, if_neg (by omega)]
            · rw [if_neg below, empty j (by omega)]
              simp
      | some bh =>
          obtain ⟨middle, delivered, taken, sameSupers⟩ := holding.take bh
          rw [← read] at delivered
          let next := middle.setSuper sb (set i (some bh) (middle.supers sb))
          have nowGet (j : Nat) : get (next.supers sb) j =
              if j = i then some bh else get (kernel.supers sb) j := by
            simp [next, Kernel.setSuper, getSet, sameSupers]
          have later : i + 1 + rest ≤ mapSlots ∨
              ∃ j, i + 1 ≤ j ∧ j < mapSlots ∧ outcome j = none := by
            rcases fits with short | ⟨j, fromStart, inSlots, failed⟩
            · exact .inl (by omega)
            · refine .inr ⟨j, ?_, inSlots, failed⟩
              by_contra first
              have same : j = i := by omega
              rw [same, read] at failed
              cases failed
          obtain ⟨final, ran, finalHolding, observed, slots⟩ :=
            induction (block + 1) later
              (by
                intro j fromNext
                rw [nowGet, if_neg (by omega)]
                exact empty j (by omega))
              (taken.onSuper (set i (some bh)) : Holding start sb _ next)
          rw [gotten_some read]
          refine ⟨final, ?_, ?_, ?_, ?_⟩
          · refine (bind_of_done delivered).trans
              ((bind_of_done (stored _ middle)).trans ?_)
            rw [read, List.length_cons]
            refine ran.trans ?_
            rw [show block + 1 + (gotten outcome rest (i + 1)).length =
              block + ((gotten outcome rest (i + 1)).length + 1) by omega]
          · rw [List.reverse_cons, List.append_assoc]
            exact finalHolding
          · rw [observed]
            simp [Kernel.setSuper, observeSet, sameSupers]
          · intro j
            rw [slots, nowGet]
            by_cases below : j < i
            · rw [if_pos (by omega), if_pos below, if_neg (by omega)]
            · rw [if_neg below]
              by_cases here : j = i
              · subst here
                simp
              · rw [if_neg (by omega)]
                obtain ⟨k, rfl⟩ : ∃ k, j = i + 1 + k :=
                  ⟨j - (i + 1), by omega⟩
                rw [show i + 1 + k - (i + 1) = k by omega,
                  show i + 1 + k - i = k + 1 by omega]
                rfl

/-- A loop over map blocks that runs past its array. -/
theorem readMap_strays {rest i block : Nat} (inSlots : i ≤ mapSlots)
    (long : mapSlots < i + rest)
    (reads : ∀ j, i ≤ j → j < mapSlots → outcome j ≠ none) :
    readMap (fun i _ => deliver (outcome i)) sb set rest i block kernel =
      .panic "store past the map slots" := by
  induction rest generalizing i block kernel with
  | zero => omega
  | succ rest induction =>
      have delivered : ∃ bh middle,
          deliver (outcome i) kernel = .done bh middle := by
        cases outcome i with
        | none => exact ⟨none, kernel, rfl⟩
        | some bh => exact ⟨some bh, _, rfl⟩
      by_cases last : i = mapSlots
      · obtain ⟨bh, middle, ran⟩ := delivered
        refine (bind_of_done ran).trans (bind_of_panic ?_)
        unfold storeSlot
        rw [if_neg (by omega)]
        rfl
      · cases read : outcome i with
        | none => exact (reads i (le_refl i) (by omega) read).elim
        | some bh =>
            have ran : deliver (outcome i) kernel = .done (some bh)
                (kernel.setBuffer bh { kernel.buffers bh with
                  count := (kernel.buffers bh).count + 1 }) := by
              rw [read]
              rfl
            refine (bind_of_done ran).trans ?_
            have stored (middle : Kernel) :
                storeSlot sb set i (some bh) middle = .done ()
                  (middle.setSuper sb
                    (set i (some bh) (middle.supers sb))) := by
              unfold storeSlot
              rw [if_pos (by omega)]
              rfl
            refine (bind_of_done (stored _)).trans ?_
            exact induction (by omega) (by omega) fun j fromNext inRange =>
              reads j (by omega) inRange

/-- A loop that releases the buffers `list`, one a slot. -/
theorem releaseSlots_runs {list : List Nat} (count : Nat)
    (slots : ∀ j, get (kernel.supers sb) j = list[j]?)
    (holding : Holding start sb (list ++ refs) kernel)
    (nodup : (list ++ refs).Nodup)
    (idle : ∀ bh ∈ list,
      (start.buffers bh).lock = false ∧ (start.buffers bh).count < 255) :
    ∃ final, Prog.upTo (fun i => do
        let kernel ← Prog.get
        brelse (get (kernel.supers sb) i)) count kernel = .done () final ∧
      Holding start sb (list.drop count ++ refs) final ∧
      final.supers = kernel.supers := by
  induction count with
  | zero => exact ⟨kernel, rfl, holding, rfl⟩
  | succ count induction =>
      obtain ⟨middle, ran, middleHolding, sameSupers⟩ := induction
      have slot : get (middle.supers sb) count = list[count]? := by
        rw [sameSupers]
        exact slots count
      by_cases inList : count < list.length
      · have split : list.drop count =
            list[count] :: list.drop (count + 1) :=
          List.drop_eq_getElem_cons inList
        have smaller : (list.drop count ++ refs).Nodup := by
          refine List.Nodup.sublist ?_ nodup
          exact List.Sublist.append_right (List.drop_sublist count list) refs
        rw [split] at middleHolding smaller
        obtain ⟨final, released, finalHolding, finalSupers⟩ :=
          middleHolding.release (idle _ (List.getElem_mem inList))
            (List.nodup_cons.mp smaller).1
        refine ⟨final, ?_, finalHolding, finalSupers.trans sameSupers⟩
        refine (bind_of_done ran).trans ?_
        show brelse (get (middle.supers sb) count) middle = .done () final
        rw [slot, List.getElem?_eq_getElem inList]
        exact released
      · have nothing : list.drop count = [] :=
          List.drop_eq_nil_of_le (by omega)
        refine ⟨middle, ?_, ?_, sameSupers⟩
        · refine (bind_of_done ran).trans ?_
          show brelse (get (middle.supers sb) count) middle = .done () middle
          rw [slot, List.getElem?_eq_none (by omega)]
          rfl
        · rw [List.drop_eq_nil_of_le (by omega)]
          rwa [nothing] at middleHolding

end Loops

theorem Holding.perm {other : List Nat}
    (holding : Holding start sb refs kernel) (perm : refs.Perm other) :
    Holding start sb other kernel where
  count := fun bh => by rw [holding.count bh, perm.count_eq bh]
  lock := holding.lock
  data := holding.data
  others := holding.others

theorem shortAt_lt (data : Block) (offset : Nat) :
    shortAt data offset < 65536 := by
  have low := (data offset).toNat_lt
  have high := (data (offset + 1)).toNat_lt
  unfold shortAt
  omega

section Mounting

variable {outcomes : ReadOutcomes} {dev fuel : Nat}

/-- A slot given up with nothing held is what it was. -/
theorem survives_giveUp (free : (start.supers sb).dev = 0)
    (unlocked : (start.supers sb).lock = false)
    (holding : Holding start sb [] kernel) :
    Survives start (.done none
      (kernel.setSuper sb (kernel.supers sb).giveUp)) := by
  constructor
  · intro other
    by_cases same : other = sb
    · subst same
      simp [Kernel.setSuper, Super.giveUp, free, unlocked]
    · have kept := holding.others other same
      simp [Kernel.setSuper, same, kept]
  · intro bh
    exact (holding.count bh).trans (by simp)

/-- Both maps as the loops have read them. -/
structure MapsRead (start : Kernel) (sb : Nat) (data : Block)
    (imaps zmaps : List Nat) (kernel : Kernel) : Prop where
  holding : Holding start sb (imaps ++ zmaps) kernel
  imap : ∀ j, (kernel.supers sb).imap j = imaps[j]?
  zmap : ∀ j, (kernel.supers sb).zmap j = zmaps[j]?
  ninodes : (kernel.supers sb).ninodes = shortAt data 0
  nzones : (kernel.supers sb).nzones = shortAt data 2
  firstdatazone : (kernel.supers sb).firstdatazone = shortAt data 8

theorem readMaps_run (data : Block) {imapBlocks zmapBlocks : Nat}
    (imapFits : Fits outcomes.imap imapBlocks)
    (zmapFits : Fits outcomes.zmap zmapBlocks)
    (holding : Holding start sb [] kernel)
    (noImap : ∀ j, (kernel.supers sb).imap j = none)
    (noZmap : ∀ j, (kernel.supers sb).zmap j = none)
    (ninodes : (kernel.supers sb).ninodes = shortAt data 0)
    (nzones : (kernel.supers sb).nzones = shortAt data 2)
    (firstdatazone : (kernel.supers sb).firstdatazone = shortAt data 8) :
    ∃ middle final,
      readMap outcomes.reads.imap sb Super.setImap imapBlocks 0 2 kernel =
        .done (2 + (gotten outcomes.imap imapBlocks 0).length) middle ∧
      readMap outcomes.reads.zmap sb Super.setZmap zmapBlocks 0
          (2 + (gotten outcomes.imap imapBlocks 0).length) middle =
        .done (2 + (gotten outcomes.imap imapBlocks 0).length +
          (gotten outcomes.zmap zmapBlocks 0).length) final ∧
      MapsRead start sb data (gotten outcomes.imap imapBlocks 0)
        (gotten outcomes.zmap zmapBlocks 0) final := by
  obtain ⟨middle, first, middleHolding, middleSame, middleImap⟩ :=
    readMap_runs
      (fun super =>
        (super.zmap, super.ninodes, super.nzones, super.firstdatazone))
      Super.imap_setImap (fun _ _ _ => rfl) 2
      imapFits.fromZero (fun j _ => noImap j) holding
  simp only [Prod.mk.injEq] at middleSame
  obtain ⟨middleZmap, middleNinodes, middleNzones, middleFirst⟩ := middleSame
  obtain ⟨final, second, finalHolding, finalSame, finalZmap⟩ :=
    readMap_runs
      (fun super =>
        (super.imap, super.ninodes, super.nzones, super.firstdatazone))
      Super.zmap_setZmap (fun _ _ _ => rfl)
      (2 + (gotten outcomes.imap imapBlocks 0).length)
      zmapFits.fromZero
      (fun j _ => by rw [middleZmap]; exact noZmap j) middleHolding
  simp only [Prod.mk.injEq] at finalSame
  obtain ⟨finalImap, finalNinodes, finalNzones, finalFirst⟩ := finalSame
  refine ⟨middle, final, first, second, ?_⟩
  refine
    { holding := finalHolding.perm ?_
      imap := ?_
      zmap := fun j => by simpa using finalZmap j
      ninodes := (finalNinodes.trans middleNinodes).trans ninodes
      nzones := (finalNzones.trans middleNzones).trans nzones
      firstdatazone := (finalFirst.trans middleFirst).trans firstdatazone }
  · rw [List.append_nil]
    exact List.perm_append_comm.trans
      ((List.reverse_perm _).append (List.reverse_perm _))
  · intro j
    rw [finalImap]
    simpa using middleImap j

theorem mapsRead_nodup (mountable : Mountable outcomes start)
    (imapBlocks zmapBlocks : Nat) :
    (gotten outcomes.imap imapBlocks 0 ++
      gotten outcomes.zmap zmapBlocks 0).Nodup := by
  refine List.nodup_append.mpr ⟨gotten_nodup mountable.imap _ _,
    gotten_nodup mountable.zmap _ _, ?_⟩
  rintro bh inImap other inZmap rfl
  obtain ⟨i, _, _, imapRead⟩ := mem_gotten inImap
  obtain ⟨j, _, _, zmapRead⟩ := mem_gotten inZmap
  exact mountable.apart i j bh imapRead zmapRead

/-- The release of all map blocks after a failed read. -/
theorem releaseMaps_runs {data : Block} {imapBlocks zmapBlocks : Nat}
    (mountable : Mountable outcomes start)
    (read : MapsRead start sb data (gotten outcomes.imap imapBlocks 0)
      (gotten outcomes.zmap zmapBlocks 0) kernel)
    (imapShort : (gotten outcomes.imap imapBlocks 0).length ≤ mapSlots)
    (zmapShort : (gotten outcomes.zmap zmapBlocks 0).length ≤ mapSlots) :
    ∃ final, releaseMaps sb kernel = .done () final ∧
      Holding start sb [] final := by
  have idle (bh : Nat) (named : outcomes.Names bh) :=
    mountable.buffers bh named
  have nodup := mapsRead_nodup mountable imapBlocks zmapBlocks
  obtain ⟨middle, first, middleHolding, sameSupers⟩ :=
    releaseSlots_runs mapSlots read.imap
      read.holding nodup
      (by
        intro bh member
        obtain ⟨i, _, _, isRead⟩ := mem_gotten member
        exact idle bh (.inr (.inl ⟨i, isRead⟩)))
  rw [List.drop_eq_nil_of_le imapShort, List.nil_append,
    ← List.append_nil (gotten outcomes.zmap zmapBlocks 0)] at middleHolding
  obtain ⟨final, second, finalHolding, _⟩ :=
    releaseSlots_runs mapSlots
      (fun j => by rw [sameSupers]; exact read.zmap j) middleHolding
      (by
        rw [List.append_nil]
        exact (List.nodup_append.mp nodup).2.1)
      (by
        intro bh member
        obtain ⟨i, _, _, isRead⟩ := mem_gotten member
        exact idle bh (.inr (.inr ⟨i, isRead⟩)))
  rw [List.drop_eq_nil_of_le zmapShort] at finalHolding
  exact ⟨final, (bind_of_done first).trans second, finalHolding⟩

/-- Where not all map blocks could be read, everything is released. -/
theorem settleMaps_fails {data : Block} {imapBlocks zmapBlocks block
    expected : Nat}
    (mountable : Mountable outcomes start)
    (free : (start.supers sb).dev = 0)
    (read : MapsRead start sb data (gotten outcomes.imap imapBlocks 0)
      (gotten outcomes.zmap zmapBlocks 0) kernel)
    (imapShort : (gotten outcomes.imap imapBlocks 0).length ≤ mapSlots)
    (zmapShort : (gotten outcomes.zmap zmapBlocks 0).length ≤ mapSlots)
    (missing : block ≠ expected) :
    Survives start (settleMaps sb block expected kernel) := by
  obtain ⟨final, released, holding⟩ :=
    releaseMaps_runs mountable read imapShort zmapShort
  have ran : settleMaps sb block expected kernel = .done none
      (final.setSuper sb (final.supers sb).giveUp) := by
    unfold settleMaps
    rw [if_pos missing]
    exact (bind_of_done released).trans rfl
  rw [ran]
  exact survives_giveUp free (mountable.supers sb) holding

theorem isSome_getElem? {list : List Nat} {index : Nat} :
    list[index]?.isSome = true ↔ index < list.length := by
  rw [Option.isSome_iff_ne_none, Ne, List.getElem?_eq_none_iff]
  omega

/-- Where all have been read, the first blocks of the maps are stored to. -/
theorem settleMaps_succeeds {data : Block} {imaps zmaps : List Nat}
    {block : Nat} (read : MapsRead start sb data imaps zmaps kernel) :
    Survives start (settleMaps sb block block kernel) ↔
      shortAt data 0 / 8192 < imaps.length ∧
        (shortAt data 2 - shortAt data 8) / 8192 < zmaps.length := by
  have ninodesSmall := shortAt_lt data 0
  have nzonesSmall := shortAt_lt data 2
  have unfolded : settleMaps sb block block kernel = (do
      markFirst ((kernel.supers sb).imap 0)
      markFirst ((kernel.supers sb).zmap 0)
      onSuper sb fun super => { super with lock := false }
      return some sb : Sys (Option Nat)) kernel := by
    unfold settleMaps
    rw [if_neg (by simp)]
    rfl
  have marked (bh : Nat) (kernel : Kernel) :
      ∃ next, markFirst (some bh) kernel = .done () next ∧
        next.supers = kernel.supers := ⟨_, rfl, rfl⟩
  rw [unfolded, read.imap, read.zmap]
  cases imapFirst : imaps[0]? with
  | none =>
      have noMaps : imaps.length = 0 := by
        simpa using imapFirst
      constructor
      · exact False.elim
      · omega
  | some imapBlock =>
      obtain ⟨middle, first, firstSupers⟩ := marked imapBlock kernel
      cases zmapFirst : zmaps[0]? with
      | none =>
          have noMaps : zmaps.length = 0 := by
            simpa using zmapFirst
          rw [bind_of_done first]
          constructor
          · exact False.elim
          · omega
      | some zmapBlock =>
          obtain ⟨last, second, lastSupers⟩ := marked zmapBlock middle
          have sameSupers : last.supers = kernel.supers := by
            rw [lastSupers, firstSupers]
          rw [bind_of_done first, bind_of_done second]
          show Super.Covers ((last.setSuper sb
            { last.supers sb with lock := false }).supers sb) ↔ _
          unfold Super.Covers mapSlots
          simp only [Kernel.setSuper, if_true, sameSupers, read.ninodes,
            read.nzones, read.firstdatazone, read.imap, read.zmap,
            isSome_getElem?]
          omega

theorem fillMaps_survives {data : Block}
    (mountable : Mountable outcomes start)
    (free : (start.supers sb).dev = 0)
    (holding : Holding start sb [] kernel)
    (loaded : ∃ super : Super, kernel.supers sb = super.load data) :
    Survives start (fillMaps outcomes.reads sb kernel) ↔
      SoundMaps data outcomes := by
  obtain ⟨super, isLoaded⟩ := loaded
  let cleared : Kernel := kernel.setSuper sb
    { kernel.supers sb with imap := fun _ => none, zmap := fun _ => none }
  have clearedSuper : cleared.supers sb =
      { super.load data with
        imap := fun _ => none, zmap := fun _ => none } := by
    simp [cleared, Kernel.setSuper, isLoaded]
  have clearedHolding : Holding start sb [] cleared :=
    holding.onSuper fun super =>
      { super with imap := fun _ => none, zmap := fun _ => none }
  have unfolded : fillMaps outcomes.reads sb kernel =
      (do
        let block ← readMap outcomes.reads.imap sb Super.setImap
          (shortAt data 4) 0 2
        let block ← readMap outcomes.reads.zmap sb Super.setZmap
          (shortAt data 6) 0 block
        settleMaps sb block (2 + shortAt data 4 + shortAt data 6) :
          Sys (Option Nat)) cleared := by
    have imapBlocks : (cleared.supers sb).imapBlocks = shortAt data 4 := by
      rw [clearedSuper]
      rfl
    have zmapBlocks : (cleared.supers sb).zmapBlocks = shortAt data 6 := by
      rw [clearedSuper]
      rfl
    rw [← imapBlocks, ← zmapBlocks]
    rfl
  rw [unfolded]
  have strays {outcome : Nat → Option Nat} {limit : Nat}
      (unfit : ¬ Fits outcome limit) : mapSlots < 0 + limit ∧
        ∀ j, 0 ≤ j → j < mapSlots → outcome j ≠ none := by
    unfold Fits at unfit
    constructor
    · by_contra short
      exact unfit (.inl (by omega))
    · intro j _ inSlots failed
      exact unfit (.inr ⟨j, inSlots, failed⟩)
  by_cases imapFits : Fits outcomes.imap (shortAt data 4)
  · by_cases zmapFits : Fits outcomes.zmap (shortAt data 6)
    · obtain ⟨middle, final, first, second, read⟩ := readMaps_run
        data imapFits zmapFits clearedHolding
        (by simp [clearedSuper]) (by simp [clearedSuper])
        (by simp [clearedSuper, Super.load])
        (by simp [clearedSuper, Super.load])
        (by simp [clearedSuper, Super.load])
      rw [bind_of_done first, bind_of_done second]
      have imapLe := gotten_length_le outcomes.imap (shortAt data 4) 0
      have zmapLe := gotten_length_le outcomes.zmap (shortAt data 6) 0
      have imapAll := @gotten_all outcomes.imap (shortAt data 4) 0
      have zmapAll := @gotten_all outcomes.zmap (shortAt data 6) 0
      by_cases complete : (gotten outcomes.imap (shortAt data 4) 0).length =
          shortAt data 4 ∧
        (gotten outcomes.zmap (shortAt data 6) 0).length = shortAt data 6
      · rw [complete.1, complete.2, settleMaps_succeeds read, complete.1,
          complete.2]
        constructor
        · exact fun covers => ⟨imapFits, zmapFits, fun _ _ => covers⟩
        · intro sound
          apply sound.covers
          · intro i below
            exact imapAll.mp complete.1 i (Nat.zero_le i) (by omega)
          · intro i below
            exact zmapAll.mp complete.2 i (Nat.zero_le i) (by omega)
      · have missing : 2 + (gotten outcomes.imap (shortAt data 4) 0).length +
            (gotten outcomes.zmap (shortAt data 6) 0).length ≠
              2 + shortAt data 4 + shortAt data 6 := by
          omega
        have survives := settleMaps_fails mountable free read
          imapFits.gotten_short zmapFits.gotten_short missing
        refine ⟨fun _ => ⟨imapFits, zmapFits, ?_⟩, fun _ => survives⟩
        intro imapThere zmapThere
        apply (complete ⟨?_, ?_⟩).elim
        · exact imapAll.mpr fun i _ below => imapThere i (by omega)
        · exact zmapAll.mpr fun i _ below => zmapThere i (by omega)
    · obtain ⟨middle, first, _⟩ := readMap_runs (fun _ => ())
        Super.imap_setImap (fun _ _ _ => rfl) 2 imapFits.fromZero
        (fun j _ => by simp [clearedSuper]) clearedHolding
      have ran : readMap outcomes.reads.imap sb Super.setImap
          (shortAt data 4) 0 2 cleared = _ := first
      have panics : readMap outcomes.reads.zmap sb Super.setZmap
          (shortAt data 6) 0
            (2 + (gotten outcomes.imap (shortAt data 4) 0).length) middle =
          .panic "store past the map slots" :=
        readMap_strays (Nat.zero_le _) (strays zmapFits).1
          (strays zmapFits).2
      rw [bind_of_done ran, bind_of_panic panics]
      exact ⟨False.elim, fun sound => (zmapFits sound.zmap).elim⟩
  · have panics : readMap outcomes.reads.imap sb Super.setImap
        (shortAt data 4) 0 2 cleared = .panic "store past the map slots" :=
      readMap_strays (Nat.zero_le _) (strays imapFits).1 (strays imapFits).2
    rw [bind_of_panic panics]
    exact ⟨False.elim, fun sound => (imapFits sound.imap).elim⟩

theorem fillSuper_survives (mountable : Mountable outcomes start)
    (free : (start.supers sb).dev = 0)
    (holding : Holding start sb [] kernel) :
    Survives start (fillSuper outcomes.reads sb kernel) ↔
      ∀ bh, outcomes.super = some bh →
        shortAt (start.buffers bh).data 16 = superMagic →
          SoundMaps (start.buffers bh).data outcomes := by
  have gaveUp {last : Kernel} (lastHolding : Holding start sb [] last) :=
    survives_giveUp free (mountable.supers sb) lastHolding
  cases read : outcomes.super with
  | none =>
      have missed : outcomes.reads.super kernel = .done none kernel := by
        show deliver outcomes.super kernel = .done none kernel
        rw [read]
        rfl
      have ran : fillSuper outcomes.reads sb kernel = .done none
          (kernel.setSuper sb (kernel.supers sb).giveUp) :=
        (bind_of_done missed).trans rfl
      rw [ran]
      refine ⟨?_, fun _ => gaveUp holding⟩
      intro _ bh impossible
      cases impossible
  | some bh =>
      obtain ⟨middle, delivered, taken, _⟩ := holding.take bh
      have ran : outcomes.reads.super kernel = .done (some bh) middle := by
        show deliver outcomes.super kernel = .done (some bh) middle
        rw [read]
        exact delivered
      let loaded := middle.setSuper sb
        ((middle.supers sb).load (start.buffers bh).data)
      have loadedHolding : Holding start sb [bh] loaded :=
        taken.onSuper fun super => super.load (start.buffers bh).data
      obtain ⟨last, released, lastHolding, lastSupers⟩ :=
        loadedHolding.release (mountable.buffers bh (.inl read)) (by simp)
      have lastSuper : last.supers sb =
          (middle.supers sb).load (start.buffers bh).data := by
        rw [lastSupers]
        simp [loaded, Kernel.setSuper]
      have unfolded : fillSuper outcomes.reads sb kernel =
          (if (last.supers sb).magic ≠ superMagic then do
            onSuper sb Super.giveUp
            return none
          else fillMaps outcomes.reads sb : Sys (Option Nat)) last := by
        refine (bind_of_done ran).trans ?_
        show (brelse (some bh) >>= _ : Sys (Option Nat)) (middle.setSuper sb
          ((middle.supers sb).load (middle.buffers bh).data)) = _
        rw [taken.data]
        exact (bind_of_done released).trans rfl
      rw [unfolded]
      have magic : (last.supers sb).magic =
          shortAt (start.buffers bh).data 16 := by
        rw [lastSuper]
        rfl
      by_cases isMagic : (last.supers sb).magic = superMagic
      · rw [if_neg (by simp [isMagic])]
        rw [fillMaps_survives mountable free lastHolding ⟨_, lastSuper⟩]
        constructor
        · rintro sound other named _
          rw [Option.some.injEq] at named
          exact named ▸ sound
        · exact fun sound => sound bh rfl (magic ▸ isMagic)
      · rw [if_pos isMagic]
        refine ⟨?_, fun _ => gaveUp lastHolding⟩
        intro _ other named isSuper
        rw [Option.some.injEq] at named
        subst named
        exact (isMagic (magic.trans isSuper)).elim

theorem getSuper_runs (supers : ∀ sb, (kernel.supers sb).lock = false)
    (isDevice : dev ≠ 0) :
    getSuper dev (fuel + 1) kernel =
      .done (findSuper kernel.supers dev 0 nrSuper) kernel := by
  unfold getSuper
  rw [if_neg isDevice]
  cases found : findSuper kernel.supers dev 0 nrSuper with
  | none =>
      show (match findSuper kernel.supers dev 0 nrSuper with
        | none => _
        | some index => _ : Sys (Option Nat)) kernel = _
      rw [found]
      rfl
  | some sb =>
      show (match findSuper kernel.supers dev 0 nrSuper with
        | none => _
        | some index => _ : Sys (Option Nat)) kernel = _
      rw [found]
      have waited : (Prog.waitUntil (fun kernel : Kernel =>
          !(kernel.supers sb).lock)) kernel = .done () kernel := by
        unfold Prog.waitUntil
        simp [supers]
      refine (bind_of_done waited).trans ?_
      exact congrFun (if_pos (findSuper_dev found)) kernel

theorem claimSuper_survives (mountable : Mountable outcomes kernel)
    (dev : Nat) :
    Survives kernel (claimSuper outcomes.reads dev kernel) ↔
      (findSuper kernel.supers 0 0 nrSuper ≠ none →
        ∀ bh, outcomes.super = some bh →
          shortAt (kernel.buffers bh).data 16 = superMagic →
            SoundMaps (kernel.buffers bh).data outcomes) := by
  have unfolded : claimSuper outcomes.reads dev kernel =
      (match findSuper kernel.supers 0 0 nrSuper with
      | none => return none
      | some sb => do
          onSuper sb fun super =>
            { super with dev := dev, isup := none, imount := none }
          lockSuper sb
          fillSuper outcomes.reads sb : Sys (Option Nat)) kernel := rfl
  rw [unfolded]
  cases slot : findSuper kernel.supers 0 0 nrSuper with
  | none =>
      refine ⟨fun _ absent => (absent rfl).elim, fun _ => ?_⟩
      exact ⟨fun _ => ⟨rfl, rfl⟩, fun _ => rfl⟩
  | some sb =>
      let named := kernel.setSuper sb
        { kernel.supers sb with dev := dev, isup := none, imount := none }
      have fresh : Holding kernel sb [] kernel :=
        ⟨fun _ => rfl, fun _ => rfl, fun _ => rfl, fun _ _ => rfl⟩
      have namedHolding : Holding kernel sb [] named :=
        fresh.onSuper fun super =>
          { super with dev := dev, isup := none, imount := none }
      have waited : (Prog.waitUntil (fun kernel : Kernel =>
          !(kernel.supers sb).lock)) named = .done () named := by
        unfold Prog.waitUntil
        simp [named, Kernel.setSuper, mountable.supers]
      have locked : lockSuper sb named = .done ()
          (named.setSuper sb { named.supers sb with lock := true }) :=
        (bind_of_done waited).trans rfl
      have lockedHolding := namedHolding.onSuper fun super =>
        { super with lock := true }
      have ran : (do
          onSuper sb fun super =>
            { super with dev := dev, isup := none, imount := none }
          lockSuper sb
          fillSuper outcomes.reads sb : Sys (Option Nat)) kernel =
            fillSuper outcomes.reads sb
              (named.setSuper sb { named.supers sb with lock := true }) :=
        bind_of_done locked
      show Survives kernel ((do
          onSuper sb fun super =>
            { super with dev := dev, isup := none, imount := none }
          lockSuper sb
          fillSuper outcomes.reads sb : Sys (Option Nat)) kernel) ↔ _
      rw [ran, fillSuper_survives mountable (findSuper_dev slot)
        lockedHolding]
      exact ⟨fun sound _ => sound, fun sound => sound (by simp)⟩

/-- `read_super` ends as it should exactly on the acceptable superblocks. -/
theorem readSuper_survives_iff (mountable : Mountable outcomes kernel)
    (fuel dev : Nat) :
    Survives kernel (readSuperWith outcomes.reads (fuel + 1) dev kernel) ↔
      Acceptable outcomes kernel dev := by
  have nothing : Survives kernel (.done none kernel) :=
    ⟨fun _ => ⟨rfl, rfl⟩, fun _ => rfl⟩
  unfold Acceptable
  by_cases isDevice : dev = 0
  · have ran : readSuperWith outcomes.reads (fuel + 1) dev kernel =
        .done none kernel := by
      unfold readSuperWith
      rw [if_pos isDevice]
      rfl
    rw [ran]
    exact ⟨fun _ absent => (absent isDevice).elim, fun _ => nothing⟩
  · have looked : getSuper dev (fuel + 1) kernel =
        .done (findSuper kernel.supers dev 0 nrSuper) kernel :=
      getSuper_runs mountable.supers isDevice
    have opened : readSuperWith outcomes.reads (fuel + 1) dev kernel =
        (match findSuper kernel.supers dev 0 nrSuper with
        | some sb => return some sb
        | none => claimSuper outcomes.reads dev : Sys (Option Nat)) kernel := by
      unfold readSuperWith
      rw [if_neg isDevice]
      exact bind_of_done looked
    rw [opened]
    cases found : findSuper kernel.supers dev 0 nrSuper with
    | some sb => exact ⟨fun covers _ => covers, fun covers => covers isDevice⟩
    | none =>
        have claimed := claimSuper_survives mountable dev
        exact ⟨fun survives _ => claimed.mp survives,
          fun accept => claimed.mpr (accept isDevice)⟩

end Mounting

/-! ## Four superblocks -/

/-- Block 1 of a device with these low bytes of `s_ninodes`, `s_nzones`,
`s_imap_blocks` and `s_zmap_blocks`; the high byte of `s_ninodes` is
`inodes256`. -/
def superBlock (inodes256 imapBlocks zmapBlocks : UInt8) : Block := fun offset =>
  if offset = 0 then 32
  else if offset = 1 then inodes256
  else if offset = 2 then 100
  else if offset = 4 then imapBlocks
  else if offset = 6 then zmapBlocks
  else if offset = 16 then 0x7F
  else if offset = 17 then 0x13
  else 0

/-- A kernel that has just read `data` into its first buffer. -/
def freshKernel (data : Block) : Kernel :=
  { idleKernel with
    nrBuffers := 64
    buffers := fun bh =>
      { idleKernel.buffers bh with data := if bh = 0 then data else fun _ => 0 } }

/-- All reads succeed. -/
def allRead : ReadOutcomes where
  super := some 0
  imap := fun i => some (2 * i + 1)
  zmap := fun i => some (2 * i + 2)

theorem freshKernel_mountable (data : Block) :
    Mountable allRead (freshKernel data) where
  supers := fun _ => rfl
  buffers := by
    intro bh _
    constructor
    · rfl
    · show 0 < 255
      decide
  imap := by
    intro i j bh first second
    simp only [allRead, Option.some.injEq] at first second
    omega
  zmap := by
    intro i j bh first second
    simp only [allRead, Option.some.injEq] at first second
    omega
  apart := by
    intro i j bh first second
    simp only [allRead, Option.some.injEq] at first second
    omega

/-- One block for each map. -/
theorem readSuper_survives_small :
    Survives (freshKernel (superBlock 0 1 1))
      (readSuperWith allRead.reads 1 0x301
        (freshKernel (superBlock 0 1 1))) := by
  refine (readSuper_survives_iff (freshKernel_mountable _) 0 0x301).mpr ?_
  rintro _ _ bh isFirst _
  have first : 0 = bh := Option.some.inj isFirst
  subst first
  refine ⟨.inl (by decide), .inl (by decide), fun _ _ => ?_⟩
  decide

/-- Nine blocks for the inode map, no block for it, and one block where the
inodes need two. -/
theorem readSuper_fails :
    (∀ data, Mountable allRead (freshKernel data)) ∧
      ¬ Survives (freshKernel (superBlock 0 9 1))
        (readSuperWith allRead.reads 1 0x301
          (freshKernel (superBlock 0 9 1))) ∧
      ¬ Survives (freshKernel (superBlock 0 0 1))
        (readSuperWith allRead.reads 1 0x301
          (freshKernel (superBlock 0 0 1))) ∧
      ¬ Survives (freshKernel (superBlock 48 1 1))
        (readSuperWith allRead.reads 1 0x301
          (freshKernel (superBlock 48 1 1))) := by
  refine ⟨freshKernel_mountable, id, id, ?_⟩
  intro survives
  obtain ⟨_, there, _⟩ : Super.Covers _ := survives
  cases there

end Linux011.Fs
