import Linux011.Lib.Buckets

/-!
# What `malloc` and `free_s` do with buckets

`malloc` takes the first free object of a bucket, `free_s` puts one back.
Buckets come from the pool of descriptors and go back to it.
-/

namespace Linux011.Lib

open Chains Machines

/-! ## Other free objects in a bucket -/

/-- The buckets, with other free objects in that of a descriptor. -/
def refill (desc : Nat) (free : List Nat) (buckets : List Bucket) :
    List Bucket :=
  buckets.map fun bucket =>
    if bucket.desc = desc then { bucket with free } else bucket

section Refill

variable {desc : Nat} {free : List Nat} {buckets : List Bucket}

theorem refill_desc (bucket : Bucket) :
    (if bucket.desc = desc then { bucket with free } else bucket).desc =
      bucket.desc := by
  split <;> rfl

theorem refill_page (bucket : Bucket) :
    (if bucket.desc = desc then { bucket with free } else bucket).page =
      bucket.page := by
  split <;> rfl

theorem refill_index (bucket : Bucket) :
    (if bucket.desc = desc then { bucket with free } else bucket).index =
      bucket.index := by
  split <;> rfl

theorem refill_descs :
    (refill desc free buckets).map Bucket.desc =
      buckets.map Bucket.desc := by
  simp only [refill, List.map_map]
  exact List.map_congr_left fun bucket _ => refill_desc bucket

theorem refill_pages :
    (refill desc free buckets).map Bucket.page =
      buckets.map Bucket.page := by
  simp only [refill, List.map_map]
  exact List.map_congr_left fun bucket _ => refill_page bucket

theorem refill_sorted (index : Nat) :
    ((refill desc free buckets).filter (·.index == index)).map Bucket.desc =
      (buckets.filter (·.index == index)).map Bucket.desc := by
  have kept : ((fun bucket : Bucket => bucket.index == index) ∘
      fun bucket => if bucket.desc = desc then { bucket with free }
        else bucket) = fun bucket => bucket.index == index := by
    funext bucket
    exact congrArg (· == index) (refill_index bucket)
  rw [refill, List.filter_map, kept, List.map_map]
  exact List.map_congr_left fun bucket _ => refill_desc bucket

end Refill

namespace Sound

variable {heap next : Heap} {buckets : List Bucket} {pool : List Nat}
  {bucket : Bucket}

/-- The free objects of one bucket change, and what is live on its page. -/
theorem refilled {free : List Nat} (sound : Sound heap buckets pool)
    (member : bucket ∈ buckets) (chain : next.chain = heap.chain)
    (freeBucketDesc : next.freeBucketDesc = heap.freeBucketDesc)
    (given : next.given = heap.given)
    (descPages : next.descPages = heap.descPages)
    (memory : ∀ address, pageOf address ≠ bucket.page →
      address ≠ bucket.desc + 8 → address ≠ bucket.desc + 12 →
        next.memory address = heap.memory address)
    (live : ∀ page, page ≠ bucket.page →
      (next.liveOn page).Perm (heap.liveOn page))
    (kept : Bucket.Kept next { bucket with free })
    (owners : ∀ object ∈ next.live, object ∈ heap.live ∨
      pageOf object.address = bucket.page ∧
        bucketSize bucket.index = sizeFor object.len)
    (distinct : (next.live.map Object.address).Nodup) :
    Sound next (refill bucket.desc free buckets) pool := by
  obtain ⟨aligned, inDescs⟩ := sound.desc member
  have notDesc := (sound.page member).2
  -- the fields of the other descriptors are elsewhere
  have field {desc offset : Nat} (isDesc : desc % 16 = 0)
      (isPage : pageOf desc ∈ heap.descPages) (inDesc : offset < 16)
      (different : desc ≠ bucket.desc ∨ offset ≠ 8 ∧ offset ≠ 12) :
      next.memory (desc + offset) = heap.memory (desc + offset) := by
    apply memory
    · rw [pageOf_field isDesc inDesc]
      intro same
      exact notDesc (same ▸ isPage)
    · exact desc_apart isDesc aligned inDesc (by decide) (by omega)
    · exact desc_apart isDesc aligned inDesc (by decide) (by omega)
  refine sound.update refill_descs refill_pages refill_sorted chain
    freeBucketDesc given descPages ?_ ?_ ?_ distinct
  · intro desc isDesc
    obtain ⟨isDesc, isPage⟩ := sound.places desc isDesc
    exact field isDesc isPage (by decide) (.inr (by decide))
  · intro other isOther
    obtain ⟨old, isOld, rfl⟩ := List.mem_map.mp isOther
    by_cases own : old.desc = bucket.desc
    · rw [if_pos own, sound.desc_injective isOld member own]
      exact kept
    · rw [if_neg own]
      have notPage : old.page ≠ bucket.page := fun same =>
        own (congrArg Bucket.desc (sound.page_injective isOld member same))
      obtain ⟨isDesc, isPage⟩ := sound.desc isOld
      apply (sound.kept old isOld).congr
      · intro offset inDesc _
        exact field isDesc isPage inDesc (.inl own)
      · intro address isFree
        have onPage := sound.free_page isOld isFree
        apply memory
        · rw [onPage]
          exact notPage
        · rintro rfl
          rw [pageOf_field aligned (by decide)] at onPage
          exact (sound.page isOld).2 (onPage ▸ inDescs)
        · rintro rfl
          rw [pageOf_field aligned (by decide)] at onPage
          exact (sound.page isOld).2 (onPage ▸ inDescs)
      · exact live old.page notPage
  · intro object isLive
    obtain ⟨owner, isOwner, isPage, isSize⟩ : ∃ owner ∈ buckets,
        pageOf object.address = owner.page ∧
          bucketSize owner.index = sizeFor object.len := by
      rcases owners object isLive with old | new
      · exact sound.owners object old
      · exact ⟨bucket, member, new⟩
    refine ⟨_, List.mem_map_of_mem isOwner, ?_, ?_⟩
    · rw [refill_page]
      exact isPage
    · rw [refill_index]
      exact isSize

/-- The free and the live objects of a page are different. -/
theorem partsNodup (sound : Sound heap buckets pool)
    (member : bucket ∈ buckets) :
    (bucket.free ++ (heap.liveOn bucket.page).map Object.address).Nodup := by
  have kept := sound.kept bucket member
  have positive := (bucketSize_cases kept.index).1
  exact kept.parts.nodup_iff.mpr (slots_nodup (by omega))

theorem partsLength (sound : Sound heap buckets pool)
    (member : bucket ∈ buckets) :
    bucket.free.length + (heap.liveOn bucket.page).length ≤ 256 := by
  have kept := sound.kept bucket member
  have length := kept.parts.length_eq
  have most := (bucketSize_cases kept.index).2.2
  rw [slots_length, List.length_append, List.length_map] at length
  omega

/-! ## `malloc` -/

theorem take_memory (desc other : Nat) : (heap.take desc).2.memory other =
    if other = desc + 12 then (heap.refcnt desc + 1) % 2 ^ 16
    else if other = desc + 8 then heap.memory (heap.freeptr desc)
    else heap.memory other := by
  have count (value : Nat) :
      (heap.store (desc + 8) value).refcnt desc = heap.refcnt desc :=
    if_neg (by omega)
  unfold Heap.take
  dsimp only
  rw [count]
  rfl

theorem take (sound : Sound heap buckets pool) (member : bucket ∈ buckets)
    {address len : Nat} {free : List Nat}
    (isFree : bucket.free = address :: free)
    (isSize : bucketSize bucket.index = sizeFor len) :
    (heap.take bucket.desc).1 = address ∧
      Sound { (heap.take bucket.desc).2 with
          live := ⟨address, len⟩ :: heap.live }
        (refill bucket.desc free buckets) pool := by
  have kept := sound.kept bucket member
  obtain ⟨aligned, inDescs⟩ := sound.desc member
  have chain := kept.free
  rw [isFree] at chain
  obtain ⟨isFirst, _, tail⟩ := chain
  have isPart : address ∈ bucket.free := by simp [isFree]
  have onPage := sound.free_page member isPart
  have nodup := sound.partsNodup member
  have few := sound.partsLength member
  rw [isFree, List.cons_append, List.nodup_cons] at nodup
  have length : bucket.free.length = free.length + 1 := by simp [isFree]
  refine ⟨isFirst, ?_⟩
  generalize isNext : ({ (heap.take bucket.desc).2 with
    live := ⟨address, len⟩ :: heap.live } : Heap) = next
  have memory (other : Nat) : next.memory other =
      if other = bucket.desc + 12 then (heap.refcnt bucket.desc + 1) % 2 ^ 16
      else if other = bucket.desc + 8 then heap.memory address
      else heap.memory other := by
    rw [← isNext, ← isFirst]
    exact take_memory bucket.desc other
  have isLive : next.live = ⟨address, len⟩ :: heap.live := by rw [← isNext]
  have own : next.liveOn bucket.page =
      ⟨address, len⟩ :: heap.liveOn bucket.page := by
    rw [Heap.liveOn, isLive, List.filter_cons_of_pos (by simp [onPage])]
    rfl
  apply sound.refilled member
  · rw [← isNext]
    rfl
  · rw [← isNext]
    rfl
  · rw [← isNext]
    rfl
  · rw [← isNext]
    rfl
  · intro other _ notPtr notCount
    rw [memory, if_neg notCount, if_neg notPtr]
  · intro page different
    rw [Heap.liveOn, isLive, List.filter_cons_of_neg]
    · exact List.Perm.refl _
    · rw [beq_iff_eq, onPage]
      exact different.symm
  · have unchanged {offset : Nat} (notPtr : offset ≠ 8)
        (notCount : offset ≠ 12) :
        next.memory (bucket.desc + offset) =
          heap.memory (bucket.desc + offset) := by
      rw [memory, if_neg (by omega), if_neg (by omega)]
    refine ⟨kept.index, ?_, ?_, ?_, ?_, ?_⟩
    · exact (@unchanged 0 (by decide) (by decide)).trans kept.page
    · exact (@unchanged 14 (by decide) (by decide)).trans kept.size
    · have isPtr : next.freeptr bucket.desc = heap.memory address := by
        rw [Heap.freeptr, memory, if_neg (by omega), if_pos rfl]
      rw [isPtr]
      apply tail.congr
      intro other isOther
      have onOther := sound.free_page member
        (isFree ▸ List.mem_cons_of_mem address isOther)
      have notField {offset : Nat} (inDesc : offset < 16) :
          other ≠ bucket.desc + offset := by
        rintro rfl
        rw [pageOf_field aligned inDesc] at onOther
        exact (sound.page member).2 (onOther ▸ inDescs)
      rw [memory, if_neg (notField (by decide)), if_neg (notField (by decide))]
    · rw [own, List.map_cons]
      refine List.perm_middle.trans ?_
      have parts := kept.parts
      rw [isFree] at parts
      exact parts
    · rw [own, List.length_cons, Heap.refcnt, memory, if_pos rfl, kept.refcnt]
      omega
  · intro object member
    rw [isLive] at member
    rcases List.mem_cons.mp member with rfl | old
    · exact .inr ⟨onPage, isSize⟩
    · exact .inl old
  · rw [isLive, List.map_cons, List.nodup_cons]
    refine ⟨?_, sound.distinct⟩
    intro isOld
    obtain ⟨object, isObject, sameAddress⟩ := List.mem_map.mp isOld
    apply nodup.1
    refine List.mem_append_right _ (List.mem_map.mpr ⟨object, ?_, sameAddress⟩)
    rw [Heap.liveOn, List.mem_filter]
    exact ⟨isObject, by simp [sameAddress, onPage]⟩

/-! ## `free_s` -/

theorem put_memory {obj desc : Nat} (other : Nat) (apart : obj ≠ desc + 12) :
    (heap.put obj desc).memory other =
      if other = desc + 12 then
        (heap.refcnt desc + (2 ^ 16 - 1)) % 2 ^ 16
      else if other = desc + 8 then obj
      else if other = obj then heap.freeptr desc
      else heap.memory other := by
  have count (value : Nat) : ((heap.store obj value).store (desc + 8)
      obj).refcnt desc = heap.refcnt desc := by
    refine (if_neg (by omega)).trans ?_
    exact if_neg apart.symm
  unfold Heap.put
  dsimp only
  rw [count]
  rfl

/-- An object that is live no more. -/
theorem liveOn_erase {object : Object} (isLive : object ∈ heap.live)
    (page : Nat) : (heap.liveOn page).Perm
      ((object :: heap.live.erase object).filter fun object =>
        pageOf object.address == page) :=
  (List.perm_cons_erase isLive).filter _

theorem put (sound : Sound heap buckets pool) (member : bucket ∈ buckets)
    {object : Object} (isLive : object ∈ heap.live)
    (onPage : pageOf object.address = bucket.page) :
    Sound { heap.put object.address bucket.desc with
        live := heap.live.erase object }
      (refill bucket.desc (object.address :: bucket.free) buckets) pool := by
  have kept := sound.kept bucket member
  obtain ⟨aligned, inDescs⟩ := sound.desc member
  have notField {other offset : Nat} (isPage : pageOf other = bucket.page)
      (inDesc : offset < 16) : other ≠ bucket.desc + offset := by
    rintro rfl
    rw [pageOf_field aligned inDesc] at isPage
    exact (sound.page member).2 (isPage ▸ inDescs)
  have isListed : object ∈ heap.liveOn bucket.page := by
    rw [Heap.liveOn, List.mem_filter]
    exact ⟨isLive, by simp [onPage]⟩
  have few := sound.partsLength member
  have nodup := sound.partsNodup member
  generalize isNext : ({ heap.put object.address bucket.desc with
    live := heap.live.erase object } : Heap) = next
  have memory (other : Nat) : next.memory other =
      if other = bucket.desc + 12 then
        (heap.refcnt bucket.desc + (2 ^ 16 - 1)) % 2 ^ 16
      else if other = bucket.desc + 8 then object.address
      else if other = object.address then heap.freeptr bucket.desc
      else heap.memory other := by
    rw [← isNext]
    exact put_memory other (notField onPage (by decide))
  have stillLive : next.live = heap.live.erase object := by rw [← isNext]
  have own : (heap.liveOn bucket.page).Perm
      (object :: next.liveOn bucket.page) := by
    have erased := liveOn_erase isLive bucket.page
    rw [List.filter_cons_of_pos (by simp [onPage]), ← stillLive] at erased
    exact erased
  apply sound.refilled member
  · rw [← isNext]
    rfl
  · rw [← isNext]
    rfl
  · rw [← isNext]
    rfl
  · rw [← isNext]
    rfl
  · intro other notPage notPtr notCount
    rw [memory, if_neg notCount, if_neg notPtr, if_neg]
    rintro rfl
    exact notPage onPage
  · intro page different
    have erased := liveOn_erase isLive page
    rw [List.filter_cons_of_neg] at erased
    · rw [Heap.liveOn, stillLive]
      exact erased.symm
    · rw [beq_iff_eq, onPage]
      exact different.symm
  · have unchanged {offset : Nat} (inDesc : offset < 16)
        (notPtr : offset ≠ 8) (notCount : offset ≠ 12) :
        next.memory (bucket.desc + offset) =
          heap.memory (bucket.desc + offset) := by
      rw [memory, if_neg (by omega), if_neg (by omega),
        if_neg (notField onPage inDesc).symm]
    have isPtr : next.freeptr bucket.desc = object.address := by
      rw [Heap.freeptr, memory, if_neg (by omega), if_pos rfl]
    have link : next.memory object.address = heap.freeptr bucket.desc := by
      rw [memory, if_neg (notField onPage (by decide)),
        if_neg (notField onPage (by decide)), if_pos rfl]
    refine ⟨kept.index, ?_, ?_, ?_, ?_, ?_⟩
    · exact (@unchanged 0 (by decide) (by decide) (by decide)).trans kept.page
    · exact (@unchanged 14 (by decide) (by decide) (by decide)).trans kept.size
    · rw [isPtr]
      refine ⟨rfl, ?_, ?_⟩
      · intro isZero
        have positive := (sound.aligned _ (sound.page member).1).2
        rw [isZero] at onPage
        exact positive onPage.symm
      · rw [link]
        apply kept.free.congr
        intro other isFree
        have onOther := sound.free_page member isFree
        rw [memory, if_neg (notField onOther (by decide)),
          if_neg (notField onOther (by decide)), if_neg]
        rintro rfl
        exact (List.disjoint_of_nodup_append nodup) isFree
          (List.mem_map_of_mem isListed)
    · have swapped := ((own.map Object.address).append_left
        bucket.free).trans List.perm_middle
      exact swapped.symm.trans kept.parts
    · have length := own.length_eq
      rw [List.length_cons] at length
      rw [Heap.refcnt, memory, if_pos rfl, kept.refcnt]
      dsimp only
      omega
  · intro other isOther
    rw [stillLive] at isOther
    exact .inl (List.mem_of_mem_erase isOther)
  · rw [stillLive]
    exact sound.distinct.sublist ((List.erase_sublist).map _)

/-! ## Buckets come and go -/

theorem nodupBuckets (sound : Sound heap buckets pool) : buckets.Nodup :=
  List.Nodup.of_map _ (List.Nodup.of_append_right sound.descs)

/-- The chain a bucket is in, around it. -/
theorem around (sound : Sound heap buckets pool) (member : bucket ∈ buckets)
    {before after : List Nat}
    (split : (buckets.filter (·.index == bucket.index)).map Bucket.desc =
      before ++ bucket.desc :: after) :
    ((buckets.erase bucket).filter (·.index == bucket.index)).map
      Bucket.desc = before ++ after := by
  obtain ⟨first, second, isSplit, rfl, isSecond⟩ :=
    List.map_eq_append_iff.mp split
  obtain ⟨found, rest, rfl, isDesc, rfl⟩ := List.map_eq_cons_iff.mp isSecond
  have isBucket : found ∈ buckets := by
    have inFilter : found ∈ buckets.filter (·.index == bucket.index) := by
      simp [isSplit]
    exact (List.mem_filter.mp inFilter).1
  have same := sound.desc_injective isBucket member isDesc
  subst same
  have nodup : (first ++ found :: rest).Nodup := by
    rw [← isSplit]
    exact sound.nodupBuckets.filter _
  have notFirst : found ∉ first := fun isFirst =>
    (List.disjoint_of_nodup_append nodup) isFirst List.mem_cons_self
  rw [sound.nodupBuckets.erase_eq_filter, List.filter_comm, isSplit,
    ← List.Nodup.erase_eq_filter (isSplit ▸ sound.nodupBuckets.filter _),
    List.erase_append_right _ notFirst, List.erase_cons_head, List.map_append]

/-- The chains of the other sizes. -/
theorem elsewhere (sound : Sound heap buckets pool) (member : bucket ∈ buckets)
    {index : Nat} (different : index ≠ bucket.index) :
    (buckets.erase bucket).filter (·.index == index) =
      buckets.filter (·.index == index) := by
  rw [sound.nodupBuckets.erase_eq_filter, List.filter_filter]
  apply List.filter_congr
  intro other isOther
  by_cases own : other = bucket
  · subst own
    simp [different.symm]
  · simp [own]

/-- A bucket is unlinked from its chain, its page given back and its
descriptor put into the pool. -/
theorem remove (sound : Sound heap buckets pool) (member : bucket ∈ buckets)
    {before after : List Nat}
    (split : (buckets.filter (·.index == bucket.index)).map Bucket.desc =
      before ++ bucket.desc :: after)
    (unused : heap.liveOn bucket.page = [])
    (links : ∀ address, address ≠ bucket.desc + 4 →
      (before ≠ [] → address ≠ before.getLastD 0 + 4) →
        next.memory address = heap.memory address)
    (isFree : next.memory (bucket.desc + 4) = heap.freeBucketDesc)
    (unlinked : before ≠ [] → next.memory (before.getLastD 0 + 4) =
      heap.next bucket.desc)
    (chain : ∀ index, next.chain index =
      if before = [] ∧ index = bucket.index then heap.next bucket.desc
      else heap.chain index)
    (freeBucketDesc : next.freeBucketDesc = bucket.desc)
    (given : next.given = heap.given.erase bucket.page)
    (descPages : next.descPages = heap.descPages)
    (live : next.live = heap.live) :
    Sound next (buckets.erase bucket) (bucket.desc :: pool) := by
  have kept := sound.kept bucket member
  have perm := List.perm_cons_erase member
  have chainOf := sound.chains bucket.index kept.index
  have inChain (desc : Nat) : desc ∈ before ++ bucket.desc :: after ↔
      ∃ other ∈ buckets, other.index = bucket.index ∧ other.desc = desc := by
    rw [← split]
    simp [and_assoc]
  have chainNodup : (before ++ bucket.desc :: after).Nodup := by
    rw [← split]
    exact (List.Nodup.of_append_right sound.descs).sublist
      (List.filter_sublist.map _)
  rw [split] at chainOf
  have isLast (some : before ≠ []) : before.getLastD 0 ∈ before := by
    rw [List.getLastD_eq_getLast?, List.getLast?_eq_some_getLast some]
    exact List.getLast_mem some
  have link {desc : Nat} (isDesc : desc % 16 = 0)
      (notOwn : desc ≠ bucket.desc)
      (notLast : before ≠ [] → desc ≠ before.getLastD 0) :
      next.next desc = heap.next desc := by
    apply links
    · omega
    · intro some same
      exact notLast some (by omega)
  have perms : (bucket.desc :: pool ++
      (buckets.erase bucket).map Bucket.desc).Perm
        (pool ++ buckets.map Bucket.desc) := by
    rw [List.cons_append]
    exact List.perm_middle.symm.trans ((perm.map _).symm.append_left pool)
  refine ⟨?_, ?_, ?_, ?_, ?_, ?_, ?_, ?_, ?_, ?_⟩
  · intro index inDir
    by_cases own : index = bucket.index
    · subst own
      rw [sound.around member split, chain]
      rcases List.eq_nil_or_concat' before with rfl | ⟨front, prev, rfl⟩
      · rw [if_pos ⟨rfl, rfl⟩]
        apply chainOf.split.2.1.congr
        intro desc behind
        apply link
        · obtain ⟨other, isOther, _, rfl⟩ :=
            (inChain desc).mp (by simp [behind])
          exact (sound.desc isOther).1
        · rintro rfl
          exact (List.nodup_cons.mp chainNodup).1 behind
        · exact fun some => (some rfl).elim
      · have last : (front ++ [prev]).getLastD 0 = prev := by simp
        rw [last] at unlinked
        rw [if_neg (by simp), List.append_assoc]
        rw [List.append_assoc] at chainOf chainNodup
        apply Chain.unlink chainOf (unlinked (by simp))
        intro desc member
        have nodup := chainNodup
        rw [List.singleton_append, List.nodup_middle] at nodup
        obtain ⟨notPrev, nodup⟩ := List.nodup_cons.mp nodup
        rw [List.nodup_middle] at nodup
        have notOwn := (List.nodup_cons.mp nodup).1
        apply link
        · obtain ⟨other, isOther, _, rfl⟩ := (inChain desc).mp (by
            rcases List.mem_append.mp member with isFront | isAfter
            · simp [isFront]
            · simp [isAfter])
          exact (sound.desc isOther).1
        · rintro rfl
          exact notOwn member
        · rw [last]
          rintro _ rfl
          apply notPrev
          rcases List.mem_append.mp member with isFront | isAfter
          · simp [isFront]
          · simp [isAfter]
    · rw [sound.elsewhere member own, chain, if_neg fun both => own both.2]
      apply (sound.chains index inDir).congr
      intro desc isDesc
      obtain ⟨other, isOther, rfl⟩ := List.mem_map.mp isDesc
      obtain ⟨isOther, isIndex⟩ := List.mem_filter.mp isOther
      rw [beq_iff_eq] at isIndex
      apply link (sound.desc isOther).1
      · intro same
        apply own
        rw [← isIndex, sound.desc_injective isOther member same]
      · intro some same
        obtain ⟨third, isThird, thirdIndex, isDesc⟩ :=
          (inChain _).mp (List.mem_append_left _ (isLast some))
        apply own
        rw [← isIndex, ← thirdIndex,
          sound.desc_injective isOther isThird (same.trans isDesc.symm)]
  · rw [freeBucketDesc]
    refine ⟨rfl, chainOf.split.1, ?_⟩
    have isNext : next.next bucket.desc = heap.freeBucketDesc := isFree
    rw [isNext]
    apply sound.spare.congr
    intro desc isSpare
    have apart := List.disjoint_of_nodup_append sound.descs isSpare
    apply link (sound.places desc (List.mem_append_left _ isSpare)).1
    · rintro rfl
      exact apart (List.mem_map_of_mem member)
    · rintro some rfl
      obtain ⟨other, isOther, _, isDesc⟩ :=
        (inChain _).mp (List.mem_append_left _ (isLast some))
      exact apart (isDesc ▸ List.mem_map_of_mem isOther)
  · exact perms.nodup_iff.mpr sound.descs
  · intro desc isDesc
    rw [descPages]
    exact sound.places desc (perms.mem_iff.mp isDesc)
  · rw [given, descPages]
    have pages := (sound.pages.trans
      ((perm.map Bucket.page).append_left heap.descPages)).trans
        List.perm_middle
    have erased := pages.erase bucket.page
    rw [List.erase_cons_head] at erased
    exact erased
  · rw [given]
    exact sound.nodup.erase _
  · intro page isGiven
    rw [given] at isGiven
    exact sound.aligned page (List.mem_of_mem_erase isGiven)
  · intro other isOther
    have isBucket := List.mem_of_mem_erase isOther
    obtain ⟨aligned, inDescs⟩ := sound.desc member
    have home {desc : Nat} (isDesc : desc ∈ before ++ bucket.desc :: after) :
        desc % 16 = 0 ∧ pageOf desc ∈ heap.descPages := by
      obtain ⟨third, isThird, _, rfl⟩ := (inChain desc).mp isDesc
      exact sound.desc isThird
    apply (sound.kept other isBucket).congr
    · intro offset inDesc notNext
      apply links
      · exact desc_apart (sound.desc isBucket).1 aligned inDesc (by decide)
          (.inr notNext)
      · intro some
        exact desc_apart (sound.desc isBucket).1
          (home (List.mem_append_left _ (isLast some))).1 inDesc (by decide)
          (.inr notNext)
    · intro address isFreeObject
      have onPage := sound.free_page isBucket isFreeObject
      have notDesc := (sound.page isBucket).2
      apply links
      · rintro rfl
        rw [pageOf_field aligned (by decide)] at onPage
        exact notDesc (onPage ▸ inDescs)
      · rintro some rfl
        obtain ⟨isDesc, isPage⟩ := home (List.mem_append_left _ (isLast some))
        rw [pageOf_field isDesc (by decide)] at onPage
        exact notDesc (onPage ▸ isPage)
    · unfold Heap.liveOn
      rw [live]
  · intro object isLive
    rw [live] at isLive
    obtain ⟨owner, isOwner, isPage, isSize⟩ := sound.owners object isLive
    refine ⟨owner, ?_, isPage, isSize⟩
    rw [sound.nodupBuckets.mem_erase_iff]
    refine ⟨?_, isOwner⟩
    rintro rfl
    have listed : object ∈ heap.liveOn owner.page := by
      rw [Heap.liveOn, List.mem_filter]
      exact ⟨isLive, by simp [isPage]⟩
    rw [unused] at listed
    cases listed
  · rw [live]
    exact sound.distinct

theorem release (sound : Sound heap buckets pool) (member : bucket ∈ buckets)
    {before after : List Nat}
    (split : (buckets.filter (·.index == bucket.index)).map Bucket.desc =
      before ++ bucket.desc :: after)
    (unused : heap.liveOn bucket.page = []) :
    ∃ next, heap.release bucket.index (before.getLastD 0) bucket.desc =
        some next ∧
      Sound next (buckets.erase bucket) (bucket.desc :: pool) ∧
      next.live = heap.live := by
  have kept := sound.kept bucket member
  have chainOf := sound.chains bucket.index kept.index
  have notZero : 0 ∉ before ++ bucket.desc :: after := by
    rw [← split]
    exact chainOf.notZero
  rw [split] at chainOf
  obtain ⟨_, _, isStart, isPrev⟩ := chainOf.split
  rcases List.eq_nil_or_concat' before with rfl | ⟨front, prev, rfl⟩
  · have start := isStart rfl
    refine ⟨(heap.setChain bucket.index (heap.next bucket.desc)).retire
      bucket.desc, ?_, ?_, rfl⟩
    · simp [Heap.release, Heap.accurate, start]
    · have page : (heap.setChain bucket.index
          (heap.next bucket.desc)).page bucket.desc = bucket.page := kept.page
      apply sound.remove member split unused
      · intro address notOwn _
        exact if_neg notOwn
      · exact if_pos rfl
      · exact fun some => (some rfl).elim
      · intro index
        simp [Heap.retire, Heap.setChain, Heap.freePage, Heap.store]
      · rfl
      · rw [← page]
        rfl
      all_goals rfl
  · have last : (front ++ [prev]).getLastD 0 = prev := by simp
    have isNext : heap.next prev = bucket.desc := isPrev front prev rfl
    have positive : prev ≠ 0 := by
      rintro rfl
      exact notZero (by simp)
    obtain ⟨other, isOther, isDesc, different⟩ :
        ∃ other ∈ buckets, other.desc = prev ∧ prev ≠ bucket.desc := by
      have isIn : prev ∈
          (buckets.filter (·.index == bucket.index)).map Bucket.desc := by
        simp [split]
      obtain ⟨other, isOther, isDesc⟩ := List.mem_map.mp isIn
      refine ⟨other, (List.mem_filter.mp isOther).1, isDesc, ?_⟩
      rintro rfl
      have nodup : ((front ++ [bucket.desc]) ++ bucket.desc :: after).Nodup := by
        rw [← split]
        exact (List.Nodup.of_append_right sound.descs).sublist
          (List.filter_sublist.map _)
      exact List.disjoint_of_nodup_append nodup
        (List.mem_append_right front List.mem_cons_self) List.mem_cons_self
    have aligned := (sound.desc member).1
    have prevAligned := (sound.desc isOther).1
    rw [isDesc] at prevAligned
    have page : (heap.store (prev + 4) (heap.next bucket.desc)).page
        bucket.desc = bucket.page :=
      (if_neg (by omega)).trans kept.page
    rw [last]
    refine ⟨(heap.store (prev + 4) (heap.next bucket.desc)).retire bucket.desc,
      ?_, ?_, rfl⟩
    · simp [Heap.release, Heap.accurate, isNext, positive]
    · apply sound.remove member split unused
      · intro address notOwn notLast
        rw [last] at notLast
        exact (if_neg notOwn).trans (if_neg (notLast (by simp)))
      · exact if_pos rfl
      · rw [last]
        exact fun _ => (if_neg (by omega)).trans (if_pos rfl)
      · intro index
        simp [Heap.retire, Heap.freePage, Heap.store]
      · rfl
      · rw [← page]
        rfl
      all_goals rfl

/-! ## The search of `free_s` -/

/-- A chain is no longer than the search. -/
theorem chainShort (sound : Sound heap buckets pool) (index : Nat) :
    ((buckets.filter (·.index == index)).map Bucket.desc).length <
      heap.fuel := by
  have all := List.length_filter_le (·.index == index) buckets
  have pages := sound.pages.length_eq
  rw [List.length_append, List.length_map] at pages
  rw [List.length_map]
  unfold Heap.fuel
  omega

/-- The page of a live object is found, with its place in its chain. -/
theorem findPage (sound : Sound heap buckets pool) (member : bucket ∈ buckets)
    {size : Int} (modest : size ≤ bucketSize bucket.index)
    {indices : List Nat} (inDir : ∀ index ∈ indices, index < 9)
    (isIndex : bucket.index ∈ indices) :
    ∃ before after,
      (buckets.filter (·.index == bucket.index)).map Bucket.desc =
        before ++ bucket.desc :: after ∧
      heap.findPage bucket.page size indices =
        some (bucket.index, before.getLastD 0, bucket.desc) := by
  induction indices with
  | nil => cases isIndex
  | cons index rest induction =>
      have skips (other : index ≠ bucket.index) : ∃ before after,
          (buckets.filter (·.index == bucket.index)).map Bucket.desc =
            before ++ bucket.desc :: after ∧
          heap.findPage bucket.page size rest =
            some (bucket.index, before.getLastD 0, bucket.desc) :=
        induction (fun other isOther => inDir other
          (List.mem_cons_of_mem index isOther))
          ((List.mem_cons.mp isIndex).resolve_left other.symm)
      unfold Heap.findPage
      split
      · rename_i small
        apply skips
        rintro rfl
        omega
      · have chainOf := sound.chains index (inDir index List.mem_cons_self)
        obtain ⟨found, walks, isFound⟩ := @walk_found _ _ _
          (fun bdesc => heap.page bdesc == bucket.page) _ 0 chainOf
          (sound.chainShort index)
        rw [walks]
        cases isFound with
        | none last fails =>
            dsimp only
            rw [if_neg (by simp)]
            apply skips
            rintro rfl
            have passes := fails bucket.desc (List.mem_map_of_mem
              (List.mem_filter.mpr ⟨member, by simp⟩))
            rw [beq_eq_false_iff_ne] at passes
            exact passes (sound.kept bucket member).page
        | some before desc after isNodes fails passes =>
            have isIn : desc ∈ (buckets.filter (·.index == index)).map
                Bucket.desc := by simp [isNodes]
            obtain ⟨other, isOther, rfl⟩ := List.mem_map.mp isIn
            obtain ⟨isOther, sameIndex⟩ := List.mem_filter.mp isOther
            rw [beq_iff_eq] at sameIndex passes
            rw [(sound.kept other isOther).page] at passes
            have same := sound.page_injective isOther member passes
            subst same
            subst sameIndex
            have notZero : other.desc ≠ 0 := by
              intro isZero
              have zero := chainOf.notZero
              rw [isNodes, isZero] at zero
              simp at zero
            exact ⟨before, after, isNodes, if_pos notZero⟩

/-! ## New pages -/

section NewPages

attribute [local irreducible] thread

/-- A fresh page holds nothing that is in use. -/
theorem fresh_elsewhere {page : Nat}
    (fresh : heap.Fresh page) {address : Nat}
    (inUse : pageOf address ∈ heap.given) :
    ¬(page ≤ address ∧ address < page + pageSize) := by
  rintro ⟨above, below⟩
  rw [pageOf_inside fresh.1 above below] at inUse
  exact fresh.2.2 inUse

theorem desc_given (sound : Sound heap buckets pool) {desc : Nat}
    (isDesc : pageOf desc ∈ heap.descPages) : pageOf desc ∈ heap.given :=
  sound.pages.mem_iff.mpr (List.mem_append_left _ isDesc)

theorem initBucketDesc_eq (first address : Nat) :
    (heap.initBucketDesc first).memory address =
      if address = first + 255 * 16 + 4 then heap.freeBucketDesc
      else thread 4 16 255 first (heap.getFreePage first).memory address :=
  rfl

theorem initBucketDesc_memory {first address : Nat}
    (outside : ¬(first ≤ address ∧ address < first + pageSize)) :
    (heap.initBucketDesc first).memory address = heap.memory address := by
  have cleared : (heap.getFreePage first).memory address =
      heap.memory address := if_neg outside
  unfold pageSize at outside
  have threaded : thread 4 16 255 first (heap.getFreePage first).memory
      address = heap.memory address := by
    rw [thread_other, cleared]
    omega
  rw [initBucketDesc_eq, if_neg (by omega)]
  exact threaded

theorem initBucketDesc (sound : Sound heap buckets []) {first : Nat}
    (fresh : heap.Fresh first) :
    Sound (heap.initBucketDesc first) buckets
      ((List.range 256).map fun index => first + index * 16) := by
  have isNull : heap.freeBucketDesc = 0 := sound.spare
  obtain ⟨aligned, positive, isNew⟩ := fresh
  have inFirst {desc : Nat}
      (isDesc : desc ∈ (List.range 256).map fun index => first + index * 16) :
      desc % 16 = 0 ∧ pageOf desc = first := by
    obtain ⟨index, below, rfl⟩ := List.mem_map.mp isDesc
    rw [List.mem_range] at below
    unfold pageOf
    unfold pageSize at *
    omega
  have same {address : Nat} (inUse : pageOf address ∈ heap.given) :
      (heap.initBucketDesc first).memory address = heap.memory address :=
    initBucketDesc_memory (fresh_elsewhere ⟨aligned, positive, isNew⟩ inUse)
  have field {desc offset : Nat} (isDesc : desc ∈ buckets.map Bucket.desc)
      (inDesc : offset < 16) :
      (heap.initBucketDesc first).memory (desc + offset) =
        heap.memory (desc + offset) := by
    obtain ⟨isAligned, isPage⟩ := sound.places desc isDesc
    apply same
    rw [pageOf_field isAligned inDesc]
    exact sound.desc_given isPage
  refine ⟨?_, ?_, ?_, ?_, ?_, ?_, ?_, ?_, sound.owners, sound.distinct⟩
  · intro index inDir
    apply (sound.chains index inDir).congr
    intro desc isDesc
    obtain ⟨bucket, isBucket, rfl⟩ := List.mem_map.mp isDesc
    exact field (List.mem_map_of_mem (List.mem_filter.mp isBucket).1)
      (by decide)
  · have linked (index : Nat) (below : index < 255) :
        (heap.initBucketDesc first).next (first + index * 16) =
          first + (index + 1) * 16 := by
      rw [Heap.next, initBucketDesc_eq, if_neg (by omega)]
      exact thread_link (by decide) below
    have last : (heap.initBucketDesc first).next (first + 255 * 16) = 0 := by
      rw [Heap.next, initBucketDesc_eq, if_pos rfl]
      exact isNull
    have chain := Chain.progression positive linked
      (Chain.nil_iff.mpr last)
    rwa [List.append_nil] at chain
  · rw [List.nodup_append]
    have old := sound.descs
    rw [List.nil_append] at old
    refine ⟨?_, old, ?_⟩
    · apply List.Nodup.map _ List.nodup_range
      intro left right equal
      dsimp only at equal
      omega
    · rintro desc isDesc other isOther rfl
      have isPage := (sound.places desc isOther).2
      rw [(inFirst isDesc).2] at isPage
      exact isNew (sound.pages.mem_iff.mpr (List.mem_append_left _ isPage))
  · intro desc isDesc
    rcases List.mem_append.mp isDesc with new | old
    · obtain ⟨isAligned, isPage⟩ := inFirst new
      exact ⟨isAligned, isPage ▸ List.mem_cons_self⟩
    · obtain ⟨isAligned, isPage⟩ := sound.places desc old
      exact ⟨isAligned, List.mem_cons_of_mem first isPage⟩
  · exact sound.pages.cons first
  · exact List.nodup_cons.mpr ⟨isNew, sound.nodup⟩
  · intro page isGiven
    rcases List.mem_cons.mp isGiven with rfl | old
    · exact ⟨aligned, positive⟩
    · exact sound.aligned page old
  · intro bucket member
    apply (sound.kept bucket member).congr
    · intro offset inDesc _
      exact field (List.mem_map_of_mem member) inDesc
    · intro address isFree
      apply same
      rw [sound.free_page member isFree]
      exact (sound.page member).1
    · exact List.Perm.refl _

theorem newBucket_memory {index page address : Nat}
    (outside : ¬(page ≤ address ∧ address < page + pageSize))
    (inDir : index < 9)
    (notDesc : ∀ offset, offset < 16 →
      address ≠ heap.freeBucketDesc + offset) :
    (heap.newBucket index page).2.memory address = heap.memory address := by
  obtain ⟨large, divides, _⟩ := bucketSize_cases inDir
  have count : (pageSize / bucketSize index - 1) * bucketSize index +
      bucketSize index = pageSize := by
    have some : 0 < pageSize / bucketSize index := by
      by_contra none
      rw [Nat.eq_zero_of_not_pos none, Nat.zero_mul] at divides
      cases divides
    rw [← Nat.succ_mul, Nat.succ_eq_add_one, Nat.sub_add_cancel some]
    exact divides
  refine (if_neg (notDesc 4 (by decide))).trans ?_
  refine (if_neg (by omega)).trans ?_
  refine (thread_other ?_).trans ?_
  · intro place below
    have most := Nat.mul_le_mul_right (bucketSize index) (Nat.le_of_lt below)
    omega
  · refine (if_neg (notDesc 0 (by decide))).trans ?_
    refine (if_neg (notDesc 8 (by decide))).trans ?_
    refine (if_neg outside).trans ?_
    refine (if_neg (notDesc 14 (by decide))).trans ?_
    exact if_neg (notDesc 12 (by decide))

theorem newBucket_eq (index page address : Nat) :
    (heap.newBucket index page).2.memory address =
      if address = heap.freeBucketDesc + 4 then heap.chain index
      else if address = page +
          (pageSize / bucketSize index - 1) * bucketSize index then 0
      else thread 0 (bucketSize index) (pageSize / bucketSize index - 1) page
        (fun address =>
          if address = heap.freeBucketDesc then page
          else if address = heap.freeBucketDesc + 8 then page
          else if page ≤ address ∧ address < page + pageSize then 0
          else if address = heap.freeBucketDesc + 14 then bucketSize index
          else if address = heap.freeBucketDesc + 12 then 0
          else heap.memory address) address :=
  rfl

theorem bucketSize_count {index : Nat} (inDir : index < 9) :
    pageSize / bucketSize index - 1 + 1 = pageSize / bucketSize index := by
  have divides := (bucketSize_cases inDir).2.1
  apply Nat.sub_add_cancel
  apply Nat.pos_of_ne_zero
  intro none
  rw [none, Nat.zero_mul] at divides
  cases divides

/-- The objects of a new bucket are all free. -/
theorem newBucket_free {index page : Nat} (inDir : index < 9)
    (positive : page ≠ 0)
    (apart : ¬(page ≤ heap.freeBucketDesc + 4 ∧
      heap.freeBucketDesc + 4 < page + pageSize)) :
    Chain (heap.newBucket index page).2.memory page
      (slots page (bucketSize index)) := by
  obtain ⟨large, divides, _⟩ := bucketSize_cases inDir
  have isCount := bucketSize_count inDir
  generalize count : pageSize / bucketSize index - 1 = last at isCount
  rw [← isCount, Nat.succ_mul] at divides
  have linked (place : Nat) (below : place < last) :
      (heap.newBucket index page).2.memory (page + place * bucketSize index) =
        page + (place + 1) * bucketSize index := by
    have most := Nat.mul_le_mul_right (bucketSize index)
      (Nat.succ_le_of_lt below)
    rw [Nat.succ_mul] at most
    rw [newBucket_eq, count, if_neg (by omega), if_neg (by omega)]
    exact thread_link (by omega) below
  have ends : (heap.newBucket index page).2.memory
      (page + last * bucketSize index) = 0 := by
    rw [newBucket_eq, count, if_neg (by omega), if_pos rfl]
  have chain := Chain.progression positive linked (Chain.nil_iff.mpr ends)
  rw [List.append_nil, isCount] at chain
  exact chain

theorem newBucket_desc {index page offset : Nat} (inDir : index < 9)
    (apart : ¬(page ≤ heap.freeBucketDesc + offset ∧
      heap.freeBucketDesc + offset < page + pageSize))
    (notNext : offset ≠ 4) :
    (heap.newBucket index page).2.memory (heap.freeBucketDesc + offset) =
      if offset = 0 then page
      else if offset = 8 then page
      else if offset = 14 then bucketSize index
      else if offset = 12 then 0
      else heap.memory (heap.freeBucketDesc + offset) := by
  obtain ⟨large, divides, _⟩ := bucketSize_cases inDir
  have isCount := bucketSize_count inDir
  generalize count : pageSize / bucketSize index - 1 = last at isCount
  rw [← isCount, Nat.succ_mul] at divides
  rw [newBucket_eq, count, if_neg (by omega), if_neg (by omega),
    thread_other, if_neg apart]
  · simp
  · intro place below
    have most := Nat.mul_le_mul_right (bucketSize index) (Nat.le_of_lt below)
    omega

theorem newBucket {desc index page : Nat}
    (sound : Sound heap buckets (desc :: pool)) (inDir : index < 9)
    (fresh : heap.Fresh page) :
    Sound (heap.newBucket index page).2
      (⟨index, desc, page, slots page (bucketSize index)⟩ :: buckets) pool := by
  obtain ⟨isFirst, _, spare⟩ := sound.spare
  obtain ⟨aligned, positive, isNew⟩ := fresh
  obtain ⟨isAligned, inDescs⟩ := sound.places desc (by simp)
  have apart {other offset : Nat} (isDesc : other % 16 = 0)
      (isPage : pageOf other ∈ heap.descPages) (inDesc : offset < 16) :
      ¬(page ≤ other + offset ∧ other + offset < page + pageSize) := by
    apply fresh_elsewhere ⟨aligned, positive, isNew⟩
    rw [pageOf_field isDesc inDesc]
    exact sound.desc_given isPage
  have notDesc := sound.descs
  rw [List.cons_append, List.nodup_cons] at notDesc
  -- nothing changes in the other descriptors and pages
  have field {other offset : Nat} (isOther : other ∈ pool ++
      buckets.map Bucket.desc) (inDesc : offset < 16) :
      (heap.newBucket index page).2.memory (other + offset) =
        heap.memory (other + offset) := by
    obtain ⟨otherAligned, otherPage⟩ := sound.places other
      (List.mem_cons_of_mem desc isOther)
    apply newBucket_memory (apart otherAligned otherPage inDesc) inDir
    intro place inPlace
    rw [isFirst]
    apply desc_apart otherAligned isAligned inDesc inPlace
    left
    rintro rfl
    exact notDesc.1 isOther
  have unused : heap.liveOn page = [] := by
    rw [Heap.liveOn, List.filter_eq_nil_iff]
    intro object isLive
    obtain ⟨owner, isOwner, isPage, _⟩ := sound.owners object isLive
    rw [beq_iff_eq, isPage]
    rintro rfl
    exact isNew (sound.page isOwner).1
  refine ⟨?_, ?_, ?_, ?_, ?_, ?_, ?_, ?_, ?_, sound.distinct⟩
  · intro other otherInDir
    have old : Chain (heap.newBucket index page).2.next (heap.chain other)
        ((buckets.filter (·.index == other)).map Bucket.desc) := by
      apply (sound.chains other otherInDir).congr
      intro node isNode
      obtain ⟨bucket, isBucket, rfl⟩ := List.mem_map.mp isNode
      exact field (List.mem_append_right _
        (List.mem_map_of_mem (List.mem_filter.mp isBucket).1)) (by decide)
    by_cases own : other = index
    · subst own
      have isChain : (heap.newBucket other page).2.chain other = desc :=
        (if_pos rfl).trans isFirst
      have notZero := sound.spare.notZero
      rw [isChain, List.filter_cons_of_pos (by simp), List.map_cons]
      refine ⟨rfl, ?_, ?_⟩
      · rintro rfl
        exact notZero List.mem_cons_self
      · have isNext : (heap.newBucket other page).2.next desc =
            heap.chain other := by
          rw [Heap.next, newBucket_eq, isFirst, if_pos rfl]
        rw [isNext]
        exact old
    · have isChain : (heap.newBucket index page).2.chain other =
          heap.chain other := if_neg own
      rw [isChain, List.filter_cons_of_neg (by simpa using Ne.symm own)]
      exact old
  · have isSpare : (heap.newBucket index page).2.freeBucketDesc =
        heap.next desc := congrArg heap.next isFirst
    rw [isSpare]
    apply spare.congr
    intro node isNode
    exact field (List.mem_append_left _ isNode) (by decide)
  · exact List.perm_middle.nodup_iff.mpr sound.descs
  · intro other isOther
    exact sound.places other (List.perm_middle.mem_iff.mp isOther)
  · exact (sound.pages.cons page).trans List.perm_middle.symm
  · exact List.nodup_cons.mpr ⟨isNew, sound.nodup⟩
  · intro other isGiven
    rcases List.mem_cons.mp isGiven with rfl | old
    · exact ⟨aligned, positive⟩
    · exact sound.aligned other old
  · intro bucket isBucket
    rcases List.mem_cons.mp isBucket with rfl | old
    · have own (offset : Nat) (inDesc : offset < 16) (notNext : offset ≠ 4) :=
        @newBucket_desc heap index page offset inDir
          (by
            rw [isFirst]
            exact apart isAligned inDescs inDesc) notNext
      rw [isFirst] at own
      refine ⟨inDir, ?_, ?_, ?_, ?_, ?_⟩
      · exact own 0 (by decide) (by decide)
      · exact own 14 (by decide) (by decide)
      · have isPtr : (heap.newBucket index page).2.freeptr desc = page :=
          own 8 (by decide) (by decide)
        rw [isPtr]
        apply newBucket_free inDir positive
        rw [isFirst]
        exact apart isAligned inDescs (by decide)
      · have isLive : (heap.newBucket index page).2.liveOn page = [] := unused
        simp [isLive]
      · have isLive : (heap.newBucket index page).2.liveOn page = [] := unused
        have isCount : (heap.newBucket index page).2.refcnt desc = 0 :=
          own 12 (by decide) (by decide)
        simp [isLive, isCount]
    · apply (sound.kept bucket old).congr
      · intro offset inDesc _
        exact field (List.mem_append_right _ (List.mem_map_of_mem old)) inDesc
      · intro address isFree
        have onPage := sound.free_page old isFree
        apply newBucket_memory _ inDir
        · intro offset inDesc
          rintro rfl
          rw [isFirst, pageOf_field isAligned inDesc] at onPage
          exact (sound.page old).2 (onPage ▸ inDescs)
        · apply fresh_elsewhere ⟨aligned, positive, isNew⟩
          rw [onPage]
          exact (sound.page old).1
      · exact List.Perm.refl _
  · intro object isLive
    obtain ⟨owner, isOwner, rest⟩ := sound.owners object isLive
    exact ⟨owner, List.mem_cons_of_mem _ isOwner, rest⟩

end NewPages

end Sound

end Linux011.Lib
