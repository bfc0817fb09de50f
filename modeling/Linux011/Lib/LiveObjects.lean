import Linux011.Lib.BucketSteps

/-!
# Objects in use do not overlap

Every step of the allocator keeps its buckets, and a bucket without objects
is given back.  Neither `malloc` nor `free_s` panics.
-/

namespace Linux011.Lib

open Chains Machines

theorem findIdx_dir {len : Nat} (modest : len ≤ 4096) :
    ∃ index, (bucketDir.findIdx? fun size => decide (len ≤ size)) =
        some index ∧ index < 9 ∧ bucketSize index = sizeFor len := by
  cases found : bucketDir.findIdx? fun size => decide (len ≤ size) with
  | none =>
      have fails := List.findIdx?_eq_none_iff.mp found 4096 (by decide)
      simp only [decide_eq_false_iff_not] at fails
      exact (fails modest).elim
  | some index =>
      obtain ⟨inDir, _⟩ := List.findIdx?_eq_some_iff_getElem.mp found
      exact ⟨index, rfl, inDir, by simp [sizeFor, found]⟩

/-- An object that is given is long enough. -/
theorem le_sizeFor {len : Nat} (given : 0 < sizeFor len) :
    len ≤ sizeFor len := by
  cases found : bucketDir.findIdx? fun size => decide (len ≤ size) with
  | none => simp [sizeFor, found] at given
  | some index =>
      obtain ⟨inDir, passes, _⟩ := List.findIdx?_eq_some_iff_getElem.mp found
      have isSize : sizeFor len = bucketDir[index] := by
        simp [sizeFor, found, bucketSize, inDir]
      rw [isSize]
      simpa using passes

/-- No bucket is without objects. -/
def Busy (heap : Heap) (buckets : List Bucket) : Prop :=
  ∀ bucket ∈ buckets, heap.liveOn bucket.page ≠ []

theorem liveOn_cons {heap : Heap} {object : Object} {page : Nat}
    (some : pageOf object.address = page ∨ heap.liveOn page ≠ []) :
    ({ heap with live := object :: heap.live } : Heap).liveOn page ≠ [] := by
  intro none
  have all := List.filter_eq_nil_iff.mp none
  rcases some with own | old
  · exact all object List.mem_cons_self (by simp [own])
  · apply old
    rw [Heap.liveOn, List.filter_eq_nil_iff]
    exact fun other isOther => all other (List.mem_cons_of_mem object isOther)

section Steps

variable {heap : Heap} {buckets : List Bucket} {pool : List Nat}

/-- A bucket with a free object gives it. -/
theorem Sound.takes (sound : Sound heap buckets pool) {bucket : Bucket}
    (member : bucket ∈ buckets) (has : bucket.free ≠ []) {len : Nat}
    (isSize : bucketSize bucket.index = sizeFor len)
    (others : ∀ other ∈ buckets, other ≠ bucket →
      heap.liveOn other.page ≠ []) :
    ∃ later, Sound { (heap.take bucket.desc).2 with
        live := ⟨(heap.take bucket.desc).1, len⟩ :: heap.live } later pool ∧
      Busy { (heap.take bucket.desc).2 with
        live := ⟨(heap.take bucket.desc).1, len⟩ :: heap.live } later := by
  cases isFree : bucket.free with
  | nil => exact (has isFree).elim
  | cons address free =>
      obtain ⟨isFirst, kept⟩ := sound.take member isFree isSize
      rw [isFirst]
      refine ⟨_, kept, ?_⟩
      intro other isOther
      obtain ⟨old, isOld, rfl⟩ := List.mem_map.mp isOther
      rw [refill_page]
      apply liveOn_cons
      by_cases own : old = bucket
      · subst own
        left
        exact sound.free_page member (by simp [isFree])
      · exact .inr (others old isOld own)

/-- A page that is fresh still is when another one has been taken. -/
theorem Heap.Fresh.after {descPage page : Nat} (fresh : heap.Fresh page)
    (different : descPage ≠ page) :
    (heap.initBucketDesc descPage).Fresh page := by
  obtain ⟨aligned, positive, isNew⟩ := fresh
  refine ⟨aligned, positive, ?_⟩
  intro isGiven
  rcases List.mem_cons.mp isGiven with same | old
  · exact different same.symm
  · exact isNew old

theorem Sound.malloc (sound : Sound heap buckets pool)
    (busy : Busy heap buckets) {len descPage page : Nat}
    (allowed : Sensible heap (.malloc len descPage page)) :
    ∃ next, allocator.step heap (.malloc len descPage page) = some next ∧
      ∃ later pool, Sound next later pool ∧ Busy next later := by
  obtain ⟨modest, freshDesc, fresh, different⟩ := allowed
  obtain ⟨index, isIndex, inDir, isSize⟩ := findIdx_dir modest
  have chainOf := sound.chains index inDir
  obtain ⟨found, walks, isFound⟩ := @walk_found _ _ _
    (fun bdesc => heap.freeptr bdesc != 0) heap.fuel 0 chainOf
    (sound.chainShort index)
  cases isFound with
  | some before desc after isNodes fails passes =>
      have isIn : desc ∈ (buckets.filter (·.index == index)).map
          Bucket.desc := by simp [isNodes]
      obtain ⟨bucket, isBucket, rfl⟩ := List.mem_map.mp isIn
      obtain ⟨member, sameIndex⟩ := List.mem_filter.mp isBucket
      rw [beq_iff_eq] at sameIndex
      subst sameIndex
      have has : bucket.free ≠ [] := by
        intro none
        have chain := (sound.kept bucket member).free
        rw [none] at chain
        simp [Chain.nil_iff.mp chain] at passes
      have notZero : bucket.desc ≠ 0 := by
        intro isZero
        have zero := chainOf.notZero
        rw [isNodes, isZero] at zero
        simp at zero
      obtain ⟨later, kept⟩ := sound.takes member has isSize
        fun other isOther _ => busy other isOther
      refine ⟨_, ?_, later, pool, kept⟩
      simp [allocator, Heap.malloc, isIndex, walks, notZero]
      rfl
  | none last fails =>
      obtain ⟨start, desc, rest, isStart, ready, stillFresh, sameLive⟩ :
          ∃ start desc rest,
            (if heap.freeBucketDesc = 0 then heap.initBucketDesc descPage
              else heap) = start ∧ Sound start buckets (desc :: rest) ∧
            start.Fresh page ∧ start.live = heap.live := by
        cases pool with
        | nil =>
            have isNull : heap.freeBucketDesc = 0 := sound.spare
            have kept := sound.initBucketDesc freshDesc
            rw [List.range_succ_eq_map, List.map_cons] at kept
            exact ⟨_, _, _, if_pos isNull, kept, fresh.after different, rfl⟩
        | cons desc rest =>
            have isFirst : heap.freeBucketDesc ≠ 0 := by
              rw [sound.spare.1]
              exact sound.spare.2.1
            exact ⟨heap, desc, rest, if_neg isFirst, sound, fresh, rfl⟩
      have new := ready.newBucket inDir stillFresh
      have isFirst : start.freeBucketDesc = desc := ready.spare.1
      have newDesc : (start.newBucket index page).1 = desc := isFirst
      have has : slots page (bucketSize index) ≠ [] := by
        intro none
        have length := @slots_length page (bucketSize index)
        have isCount := bucketSize_count inDir
        rw [none, List.length_nil] at length
        omega
      obtain ⟨later, kept⟩ := new.takes List.mem_cons_self has isSize (by
        intro other isOther notNew
        have old := busy other ((List.mem_cons.mp isOther).resolve_left notNew)
        rw [Heap.liveOn, ← sameLive] at old
        exact old)
      refine ⟨_, ?_, later, rest, kept⟩
      simp [allocator, Heap.malloc, isIndex, walks, isStart, newDesc]
      rfl

/-! `release` does not look at the live objects. -/

theorem release_live (live : List Object) (index prev bdesc : Nat) :
    ({ heap with live } : Heap).release index prev bdesc =
      (heap.release index prev bdesc).map fun next =>
        { next with live } := by
  have same : ({ heap with live } : Heap).accurate index prev bdesc =
      heap.accurate index prev bdesc := rfl
  rw [Heap.release, Heap.release, same]
  cases heap.accurate index prev bdesc with
  | none => rfl
  | some prev =>
      dsimp only
      split
      · rfl
      · split
        · rfl
        · rfl

theorem release_keeps {index prev bdesc : Nat} {next : Heap}
    (released : heap.release index prev bdesc = some next) :
    next.live = heap.live := by
  have same := @release_live heap heap.live index prev bdesc
  rw [released, Option.map_some, Option.some.injEq] at same
  rw [same]

theorem Sound.freeS (sound : Sound heap buckets pool)
    (busy : Busy heap buckets) {object : Object} {size : Int}
    (allowed : Sensible heap (.freeS object size)) :
    ∃ next, allocator.step heap (.freeS object size) = some next ∧
      ∃ later pool, Sound next later pool ∧ Busy next later := by
  obtain ⟨isLive, modest⟩ := allowed
  obtain ⟨bucket, member, onPage, isSize⟩ := sound.owners object isLive
  have kept := sound.put member isLive onPage
  generalize isFree : object.address :: bucket.free = free at kept
  generalize isNext : ({ heap.put object.address bucket.desc with
    live := heap.live.erase object } : Heap) = next at kept
  have stillLive : next.live = heap.live.erase object := by rw [← isNext]
  have isIn : ({ bucket with free } : Bucket) ∈
      refill bucket.desc free buckets :=
    List.mem_map.mpr ⟨bucket, member, if_pos rfl⟩
  have others : ∀ other ∈ refill bucket.desc free buckets,
      other ≠ { bucket with free } → next.liveOn other.page ≠ [] := by
    intro other isOther different
    obtain ⟨old, isOld, rfl⟩ := List.mem_map.mp isOther
    have notOwn : old.page ≠ bucket.page := by
      intro same
      apply different
      rw [sound.page_injective isOld member same, if_pos rfl]
    have erased := liveOn_erase isLive old.page
    rw [List.filter_cons_of_neg (by simpa [onPage] using notOwn.symm)] at erased
    have isSome := busy old isOld
    rw [refill_page, Heap.liveOn, stillLive]
    intro none
    rw [none] at erased
    exact isSome erased.eq_nil
  have count : (heap.put object.address bucket.desc).refcnt bucket.desc =
      (next.liveOn bucket.page).length := by
    have isCount := (kept.kept _ isIn).refcnt
    rw [← isCount, ← isNext]
    rfl
  obtain ⟨before, after, split, found⟩ :
      ∃ before after,
        (buckets.filter (·.index == bucket.index)).map Bucket.desc =
          before ++ bucket.desc :: after ∧
        heap.findPage bucket.page size (List.range 9) =
          some (bucket.index, before.getLastD 0, bucket.desc) := by
    apply sound.findPage member
    · have large := (bucketSize_cases (sound.kept bucket member).index).1
      rcases modest with isZero | inSize
      · omega
      · omega
    · exact fun index => List.mem_range.mp
    · exact List.mem_range.mpr (sound.kept bucket member).index
  have freed : heap.freeS object.address size =
      if (heap.put object.address bucket.desc).refcnt bucket.desc = 0 then
        (heap.put object.address bucket.desc).release bucket.index
          (before.getLastD 0) bucket.desc
      else some (heap.put object.address bucket.desc) := by
    have isPage : object.address / pageSize * pageSize = bucket.page := onPage
    unfold Heap.freeS
    dsimp only
    rw [isPage]
    have isRange : List.range bucketDir.length = List.range 9 := rfl
    rw [isRange, found]
  by_cases last : (heap.put object.address bucket.desc).refcnt bucket.desc = 0
  · rw [if_pos last] at freed
    have unused : next.liveOn bucket.page = [] :=
      List.length_eq_zero_iff.mp (count ▸ last)
    obtain ⟨final, released, sound', sameLive⟩ :=
      kept.release isIn (refill_sorted bucket.index ▸ split) unused
    have shared := @release_live (heap.put object.address bucket.desc)
      (heap.live.erase object) bucket.index (before.getLastD 0) bucket.desc
    rw [isNext] at shared
    rw [shared] at released
    obtain ⟨result, isResult, isFinal⟩ := Option.map_eq_some_iff.mp released
    have resultLive := release_keeps isResult
    refine ⟨final, ?_, _, _, sound', ?_⟩
    · simp only [allocator, freed, isResult, Option.map_some, resultLive]
      exact congrArg some isFinal
    · intro other isOther
      rw [kept.nodupBuckets.mem_erase_iff] at isOther
      rw [Heap.liveOn, sameLive]
      exact others other isOther.2 isOther.1
  · rw [if_neg last] at freed
    refine ⟨next, ?_, _, _, kept, ?_⟩
    · simp only [allocator, freed, Option.map_some]
      exact congrArg some isNext
    · intro other isOther
      by_cases own : other = { bucket with free }
      · subst own
        intro none
        apply last
        rw [count, none]
        rfl
      · exact others other isOther own

/-- What the users write stays inside their objects. -/
theorem Sound.write (sound : Sound heap buckets pool) {memory : Nat → Nat}
    (allowed : Sensible heap (.write memory)) :
    Sound { heap with memory } buckets pool := by
  have field {desc offset : Nat} (isDesc : desc ∈ pool ++
      buckets.map Bucket.desc) (inDesc : offset < 16) :
      memory (desc + offset) = heap.memory (desc + offset) := by
    obtain ⟨isAligned, isPage⟩ := sound.places desc isDesc
    apply allowed
    intro object isLive inside
    have onPage := sound.live_inside isLive inside
    obtain ⟨owner, isOwner, isOwn, _⟩ := sound.owners object isLive
    rw [pageOf_field isAligned inDesc, isOwn] at onPage
    exact (sound.page isOwner).2 (onPage ▸ isPage)
  refine sound.update rfl rfl (fun _ => rfl) rfl rfl rfl rfl ?_ ?_
    sound.owners sound.distinct
  · exact fun desc isDesc => field isDesc (by decide)
  · intro bucket member
    apply (sound.kept bucket member).congr
    · intro offset inDesc _
      exact field (List.mem_append_right _ (List.mem_map_of_mem member)) inDesc
    · intro address isFree
      apply allowed
      intro object isLive inside
      have onPage := sound.live_inside isLive inside
      obtain ⟨owner, isOwner, isOwn, isSize, isListed, isSlot⟩ :=
        sound.live_slot isLive
      rw [sound.free_page member isFree, isOwn] at onPage
      have same := sound.page_injective member isOwner onPage
      subst same
      have freeSlot :=
        (sound.slot member (List.mem_append_left _ isFree)).1
      have different : address ≠ object.address := by
        rintro rfl
        exact (List.disjoint_of_nodup_append (sound.partsNodup member)) isFree
          isListed
      have large := (bucketSize_cases (sound.kept bucket member).index).1
      rcases slots_apart freeSlot isSlot different with before | after
      · omega
      · omega
    · exact List.Perm.refl _

/-- Every sensible action is possible and keeps the buckets. -/
theorem Sound.step (sound : Sound heap buckets pool) (busy : Busy heap buckets)
    {action : HeapAction} (allowed : Sensible heap action) :
    ∃ next, allocator.step heap action = some next ∧
      ∃ later pool, Sound next later pool ∧ Busy next later := by
  cases action with
  | malloc len descPage page => exact sound.malloc busy allowed
  | freeS object size => exact sound.freeS busy allowed
  | write memory =>
      exact ⟨_, rfl, buckets, pool, sound.write allowed, busy⟩

end Steps

/-! ## Runs -/

/-- Before the first `malloc`. -/
def boot (memory : Nat → Nat) : Heap := ⟨memory, fun _ => 0, 0, [], [], []⟩

theorem boot_sound (memory : Nat → Nat) :
    Sound (boot memory) [] [] ∧ Busy (boot memory) [] := by
  refine ⟨⟨?_, rfl, List.nodup_nil, nofun, .nil, List.nodup_nil, nofun, nofun,
    nofun, List.nodup_nil⟩, nofun⟩
  exact fun _ _ => rfl

theorem reachable_sound {memory : Nat → Nat} {heap : Heap}
    (reached : allocator.Reachable Sensible (boot memory) heap) :
    ∃ buckets pool, Sound heap buckets pool ∧ Busy heap buckets := by
  induction reached with
  | start => exact ⟨[], [], boot_sound memory⟩
  | step action _ allowed steps induction =>
      obtain ⟨buckets, pool, sound, busy⟩ := induction
      obtain ⟨next, isNext, kept⟩ := sound.step busy allowed
      rw [steps, Option.some.injEq] at isNext
      subst isNext
      exact kept

/-- No byte belongs to both objects. -/
def Object.Apart (first second : Object) : Prop :=
  first.address + sizeFor first.len ≤ second.address ∨
    second.address + sizeFor second.len ≤ first.address

/-- A descriptor counts the live objects of its page, and its free list holds
every other one. -/
def Heap.Right (heap : Heap) (index desc : Nat) : Prop :=
  heap.refcnt desc = (heap.liveOn (heap.page desc)).length ∧
    ∃ free, Chain heap.memory (heap.freeptr desc) free ∧ free.Nodup ∧
      ∀ address, address ∈ free ↔
        address ∈ slots (heap.page desc) (bucketSize index) ∧
          ∀ object ∈ heap.live, object.address ≠ address

section Claims

variable {heap : Heap} {buckets : List Bucket} {pool : List Nat}

/-- A live object is long enough and inside a page of its own kind. -/
theorem Sound.inside (sound : Sound heap buckets pool) {object : Object}
    (isLive : object ∈ heap.live) :
    object.len ≤ sizeFor object.len ∧
      ∃ page ∈ heap.given, page % pageSize = 0 ∧ page ∉ heap.descPages ∧
        page ≤ object.address ∧
        object.address + sizeFor object.len ≤ page + pageSize := by
  obtain ⟨bucket, member, _, isSize, _, isSlot⟩ := sound.live_slot isLive
  obtain ⟨large, divides, _⟩ := bucketSize_cases (sound.kept bucket member).index
  obtain ⟨above, below⟩ := slot_inside divides isSlot
  obtain ⟨isGiven, notDesc⟩ := sound.page member
  rw [isSize] at large below
  exact ⟨le_sizeFor (by omega), bucket.page, isGiven,
    (sound.aligned _ isGiven).1, notDesc, above, below⟩

theorem Sound.apart (sound : Sound heap buckets pool) {first second : Object}
    (isFirst : first ∈ heap.live) (isSecond : second ∈ heap.live)
    (different : first.address ≠ second.address) : first.Apart second := by
  obtain ⟨bucket, member, onPage, isSize, _, isSlot⟩ := sound.live_slot isFirst
  obtain ⟨other, isOther, otherPage, otherSize, _, otherSlot⟩ :=
    sound.live_slot isSecond
  unfold Object.Apart
  rw [← isSize, ← otherSize]
  by_cases same : bucket = other
  · subst same
    exact slots_apart isSlot otherSlot different
  · have apart : bucket.page ≠ other.page := fun equal =>
      same (sound.page_injective member isOther equal)
    obtain ⟨_, divides, _⟩ := bucketSize_cases (sound.kept bucket member).index
    obtain ⟨_, otherDivides, _⟩ :=
      bucketSize_cases (sound.kept other isOther).index
    obtain ⟨_, below⟩ := slot_inside divides isSlot
    obtain ⟨_, otherBelow⟩ := slot_inside otherDivides otherSlot
    have aligned := (sound.aligned _ (sound.page member).1).1
    have otherAligned := (sound.aligned _ (sound.page isOther).1).1
    unfold pageOf pageSize at *
    omega

/-- The descriptors of the buckets are right. -/
theorem Sound.right (sound : Sound heap buckets pool) {bucket : Bucket}
    (member : bucket ∈ buckets) : heap.Right bucket.index bucket.desc := by
  have kept := sound.kept bucket member
  have nodup := sound.partsNodup member
  unfold Heap.Right
  rw [kept.page]
  refine ⟨kept.refcnt, bucket.free, kept.free,
    List.Nodup.of_append_left nodup, ?_⟩
  intro address
  rw [← kept.parts.mem_iff]
  constructor
  · intro isFree
    refine ⟨List.mem_append_left _ isFree, ?_⟩
    rintro object isLive rfl
    have onPage := sound.free_page member isFree
    have isListed : object ∈ heap.liveOn bucket.page := by
      rw [Heap.liveOn, List.mem_filter]
      exact ⟨isLive, by simp [onPage]⟩
    exact (List.disjoint_of_nodup_append nodup) isFree
      (List.mem_map_of_mem isListed)
  · rintro ⟨isPart, notLive⟩
    rcases List.mem_append.mp isPart with isFree | isListed
    · exact isFree
    · obtain ⟨object, isObject, isAddress⟩ := List.mem_map.mp isListed
      exact (notLive object (List.mem_filter.mp isObject).1 isAddress).elim

end Claims

/-- In every run, `malloc` and `free_s` succeed; a live object is long enough,
inside one page and apart from the other ones and from the pages for
descriptors; every descriptor in a chain is right, and there is one for every
live object; and without live objects only the pages for descriptors have not
been given back. -/
theorem malloc_apart {memory : Nat → Nat} {heap : Heap}
    (reached : allocator.Reachable Sensible (boot memory) heap) :
    (∀ action, Sensible heap action →
      ∃ next, allocator.step heap action = some next) ∧
    (∀ object ∈ heap.live, object.len ≤ sizeFor object.len ∧
      (∃ page ∈ heap.given, page % pageSize = 0 ∧ page ≤ object.address ∧
        object.address + sizeFor object.len ≤ page + pageSize) ∧
      ∀ page ∈ heap.descPages,
        object.address + sizeFor object.len ≤ page ∨
          page + pageSize ≤ object.address) ∧
    heap.live.Pairwise Object.Apart ∧
    (∀ index < 9, ∃ descs, Chain heap.next (heap.chain index) descs ∧
      ∀ desc ∈ descs, heap.Right index desc) ∧
    (∀ object ∈ heap.live, ∃ index < 9, ∃ descs,
      Chain heap.next (heap.chain index) descs ∧
        ∃ desc ∈ descs, heap.page desc = pageOf object.address ∧
          bucketSize index = sizeFor object.len) ∧
    (heap.live = [] → heap.given.Perm heap.descPages) := by
  obtain ⟨buckets, pool, sound, busy⟩ := reachable_sound reached
  refine ⟨?_, ?_, ?_, ?_, ?_, ?_⟩
  · intro action allowed
    obtain ⟨next, steps, _⟩ := sound.step busy allowed
    exact ⟨next, steps⟩
  · intro object isLive
    obtain ⟨long, page, isGiven, aligned, notDesc, above, below⟩ :=
      sound.inside isLive
    refine ⟨long, ⟨page, isGiven, aligned, above, below⟩, ?_⟩
    intro descPage isDescPage
    have isDescGiven : descPage ∈ heap.given :=
      sound.pages.mem_iff.mpr (List.mem_append_left _ isDescPage)
    have descAligned := (sound.aligned descPage isDescGiven).1
    have different : page ≠ descPage := by
      rintro rfl
      exact notDesc isDescPage
    unfold pageSize at *
    omega
  · have nodup := sound.distinct
    rw [List.nodup_iff_pairwise_ne, List.pairwise_map] at nodup
    refine nodup.imp_of_mem ?_
    intro first second isFirst isSecond different
    exact sound.apart isFirst isSecond different
  · intro index inDir
    refine ⟨_, sound.chains index inDir, ?_⟩
    intro desc isDesc
    obtain ⟨bucket, isBucket, rfl⟩ := List.mem_map.mp isDesc
    obtain ⟨member, sameIndex⟩ := List.mem_filter.mp isBucket
    rw [beq_iff_eq] at sameIndex
    rw [← sameIndex]
    exact sound.right member
  · intro object isLive
    obtain ⟨bucket, member, onPage, isSize⟩ := sound.owners object isLive
    have kept := sound.kept bucket member
    refine ⟨bucket.index, kept.index, _, sound.chains _ kept.index,
      bucket.desc, ?_, kept.page.trans onPage.symm, isSize⟩
    exact List.mem_map_of_mem (List.mem_filter.mpr ⟨member, by simp⟩)
  · intro none
    cases buckets with
    | nil => simpa using sound.pages
    | cons bucket rest =>
        apply (busy bucket List.mem_cons_self _).elim
        rw [Heap.liveOn, none]
        rfl

section Witness

/-- A guard that can be checked. -/
def Careful (heap : Heap) : HeapAction → Prop
  | .malloc len descPage page =>
      len ≤ 4096 ∧ heap.Fresh descPage ∧ heap.Fresh page ∧ descPage ≠ page
  | .freeS object size =>
      object ∈ heap.live ∧ (size = 0 ∨ size ≤ sizeFor object.len)
  | .write _ => False

instance (heap : Heap) (page : Nat) : Decidable (heap.Fresh page) :=
  inferInstanceAs (Decidable (_ ∧ _))

instance (heap : Heap) (action : HeapAction) :
    Decidable (Careful heap action) :=
  match action with
  | .malloc _ _ _ => inferInstanceAs (Decidable (_ ∧ _))
  | .freeS _ _ => inferInstanceAs (Decidable (_ ∧ _))
  | .write _ => .isFalse id

theorem Careful.sensible (heap : Heap) (action : HeapAction)
    (careful : Careful heap action) : Sensible heap action := by
  cases action with
  | malloc => exact careful
  | freeS => exact careful
  | write => exact careful.elim

/-- Two objects of one page, one of another, and the first is given back. -/
def mallocRun : List HeapAction :=
  [.malloc 100 4096 8192, .malloc 128 12288 16384, .malloc 4000 12288 16384,
    .freeS ⟨8192, 100⟩ 0]

theorem malloc_apart_freed :
    ∃ heap, allocator.run Careful (boot fun _ => 0) mallocRun = some heap ∧
      heap.live = [⟨16384, 4000⟩, ⟨8320, 128⟩] ∧
      Object.Apart ⟨16384, 4000⟩ ⟨8320, 128⟩ := by
  have ran : (allocator.run Careful (boot fun _ => 0) mallocRun).map
      Heap.live = some [⟨16384, 4000⟩, ⟨8320, 128⟩] := by
    decide +kernel
  obtain ⟨heap, isHeap, isLive⟩ := Option.map_eq_some_iff.mp ran
  have reached := (Machine.reachable_of_run .start isHeap).weaken
    Careful.sensible
  obtain ⟨_, _, apart, _⟩ := malloc_apart reached
  rw [isLive] at apart
  exact ⟨heap, isHeap, isLive, List.rel_of_pairwise_cons apart (by simp)⟩

end Witness

end Linux011.Lib
