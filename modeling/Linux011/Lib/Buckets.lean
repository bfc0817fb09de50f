import Linux011.Lib.Malloc

/-!
# The buckets behind the allocator

The chains in memory stand for a list of buckets and a pool of free
descriptors.  The objects of a page are its free ones and the live ones on
it.
-/

namespace Linux011.Lib

open Chains

/-- The page an address is on. -/
def pageOf (address : Nat) : Nat := address / pageSize * pageSize

/-- The objects a page is cut into. -/
def slots (page size : Nat) : List Nat :=
  (List.range (pageSize / size)).map fun index => page + index * size

theorem bucketSize_cases {index : Nat} (inDir : index < 9) :
    16 ≤ bucketSize index ∧
      pageSize / bucketSize index * bucketSize index = pageSize ∧
      pageSize / bucketSize index ≤ 256 := by
  have all : ∀ index < 9, 16 ≤ bucketSize index ∧
      pageSize / bucketSize index * bucketSize index = pageSize ∧
      pageSize / bucketSize index ≤ 256 := by decide
  exact all index inDir

section Slots

variable {page size address : Nat}

theorem mem_slots : address ∈ slots page size ↔
    ∃ index, index < pageSize / size ∧ page + index * size = address := by
  simp [slots]

theorem slot_inside (divides : pageSize / size * size = pageSize)
    (isSlot : address ∈ slots page size) :
    page ≤ address ∧ address + size ≤ page + pageSize := by
  obtain ⟨index, below, isAddress⟩ := mem_slots.mp isSlot
  have most : (index + 1) * size ≤ pageSize / size * size :=
    Nat.mul_le_mul_right size below
  rw [Nat.add_mul, Nat.one_mul] at most
  omega

theorem pageOf_inside (aligned : page % pageSize = 0) (above : page ≤ address)
    (below : address < page + pageSize) : pageOf address = page := by
  unfold pageOf pageSize at *
  omega

theorem slot_page (positive : 0 < size) (aligned : page % pageSize = 0)
    (divides : pageSize / size * size = pageSize)
    (isSlot : address ∈ slots page size) : pageOf address = page := by
  obtain ⟨above, below⟩ := slot_inside divides isSlot
  exact pageOf_inside aligned above (by omega)

theorem slots_nodup (positive : 0 < size) : (slots page size).Nodup := by
  apply List.Nodup.map _ List.nodup_range
  intro first second same
  have scaled : first * size = second * size := Nat.add_left_cancel same
  exact Nat.eq_of_mul_eq_mul_right positive scaled

/-- Different objects of a page do not overlap. -/
theorem slots_apart {other : Nat} (isSlot : address ∈ slots page size)
    (isOther : other ∈ slots page size) (different : address ≠ other) :
    address + size ≤ other ∨ other + size ≤ address := by
  obtain ⟨first, _, rfl⟩ := mem_slots.mp isSlot
  obtain ⟨second, _, rfl⟩ := mem_slots.mp isOther
  rcases Nat.lt_trichotomy first second with below | same | above
  · have most := Nat.mul_le_mul_right size below
    rw [Nat.succ_mul] at most
    exact .inl (by omega)
  · exact (different (by rw [same])).elim
  · have most := Nat.mul_le_mul_right size above
    rw [Nat.succ_mul] at most
    exact .inr (by omega)

theorem slots_length : (slots page size).length = pageSize / size := by
  simp [slots]

end Slots

/-- A page of objects: the index of their size, the descriptor, the page and
the free objects in their order. -/
structure Bucket where
  index : Nat
  desc : Nat
  page : Nat
  free : List Nat
  deriving DecidableEq

def Heap.liveOn (heap : Heap) (page : Nat) : List Object :=
  heap.live.filter fun object => pageOf object.address == page

/-- What the descriptor says of its page. -/
structure Bucket.Kept (heap : Heap) (bucket : Bucket) : Prop where
  index : bucket.index < 9
  page : heap.page bucket.desc = bucket.page
  size : heap.size bucket.desc = bucketSize bucket.index
  free : Chain heap.memory (heap.freeptr bucket.desc) bucket.free
  parts : (bucket.free ++ (heap.liveOn bucket.page).map Object.address).Perm
    (slots bucket.page (bucketSize bucket.index))
  refcnt : heap.refcnt bucket.desc = (heap.liveOn bucket.page).length

/-- The chains of the heap are those of the buckets and the pool. -/
structure Sound (heap : Heap) (buckets : List Bucket) (pool : List Nat) :
    Prop where
  chains : ∀ index, index < 9 → Chain heap.next (heap.chain index)
    ((buckets.filter (·.index == index)).map Bucket.desc)
  spare : Chain heap.next heap.freeBucketDesc pool
  descs : (pool ++ buckets.map Bucket.desc).Nodup
  places : ∀ desc ∈ pool ++ buckets.map Bucket.desc,
    desc % 16 = 0 ∧ pageOf desc ∈ heap.descPages
  pages : heap.given.Perm (heap.descPages ++ buckets.map Bucket.page)
  nodup : heap.given.Nodup
  aligned : ∀ page ∈ heap.given, page % pageSize = 0 ∧ page ≠ 0
  kept : ∀ bucket ∈ buckets, bucket.Kept heap
  owners : ∀ object ∈ heap.live, ∃ bucket ∈ buckets,
    pageOf object.address = bucket.page ∧
      bucketSize bucket.index = sizeFor object.len
  distinct : (heap.live.map Object.address).Nodup

theorem Bucket.Kept.congr {heap next : Heap} {bucket : Bucket}
    (kept : bucket.Kept heap)
    (fields : ∀ offset, offset < 16 → offset ≠ 4 →
      next.memory (bucket.desc + offset) = heap.memory (bucket.desc + offset))
    (free : ∀ address ∈ bucket.free,
      next.memory address = heap.memory address)
    (live : (next.liveOn bucket.page).Perm (heap.liveOn bucket.page)) :
    bucket.Kept next where
  index := kept.index
  page := by
    have same := fields 0 (by decide) (by decide)
    exact same.trans kept.page
  size := by
    have same := fields 14 (by decide) (by decide)
    exact same.trans kept.size
  free := by
    have same : next.freeptr bucket.desc = heap.freeptr bucket.desc :=
      fields 8 (by decide) (by decide)
    rw [same]
    exact kept.free.congr free
  parts := ((live.map Object.address).append_left bucket.free).trans kept.parts
  refcnt := by
    rw [live.length_eq]
    have same := fields 12 (by decide) (by decide)
    exact same.trans kept.refcnt

/-- The fields of different descriptors. -/
theorem desc_apart {first second left right : Nat}
    (isFirst : first % 16 = 0) (isSecond : second % 16 = 0)
    (inFirst : left < 16) (inSecond : right < 16)
    (different : first ≠ second ∨ left ≠ right) :
    first + left ≠ second + right := by
  omega

theorem pageOf_field {desc offset : Nat} (isDesc : desc % 16 = 0)
    (inDesc : offset < 16) : pageOf (desc + offset) = pageOf desc := by
  unfold pageOf pageSize
  omega

namespace Sound

variable {heap : Heap} {buckets : List Bucket} {pool : List Nat}
  {bucket : Bucket}

theorem desc (sound : Sound heap buckets pool) (member : bucket ∈ buckets) :
    bucket.desc % 16 = 0 ∧ pageOf bucket.desc ∈ heap.descPages :=
  sound.places _ (List.mem_append_right _ (List.mem_map_of_mem member))

theorem pagesNodup (sound : Sound heap buckets pool) :
    (heap.descPages ++ buckets.map Bucket.page).Nodup :=
  sound.pages.nodup_iff.mp sound.nodup

theorem page (sound : Sound heap buckets pool) (member : bucket ∈ buckets) :
    bucket.page ∈ heap.given ∧ bucket.page ∉ heap.descPages := by
  have isPage : bucket.page ∈ buckets.map Bucket.page :=
    List.mem_map_of_mem member
  refine ⟨sound.pages.mem_iff.mpr (List.mem_append_right _ isPage), ?_⟩
  intro isDesc
  exact (List.disjoint_of_nodup_append sound.pagesNodup) isDesc isPage

theorem page_injective (sound : Sound heap buckets pool) {other : Bucket}
    (member : bucket ∈ buckets) (isOther : other ∈ buckets)
    (same : bucket.page = other.page) : bucket = other :=
  List.inj_on_of_nodup_map (List.Nodup.of_append_right sound.pagesNodup)
    member isOther same

theorem desc_injective (sound : Sound heap buckets pool) {other : Bucket}
    (member : bucket ∈ buckets) (isOther : other ∈ buckets)
    (same : bucket.desc = other.desc) : bucket = other :=
  List.inj_on_of_nodup_map (List.Nodup.of_append_right sound.descs)
    member isOther same

/-- A free object, or a live one on the page. -/
theorem slot (sound : Sound heap buckets pool) (member : bucket ∈ buckets)
    {address : Nat}
    (isPart : address ∈ bucket.free ++
      (heap.liveOn bucket.page).map Object.address) :
    address ∈ slots bucket.page (bucketSize bucket.index) ∧
      pageOf address = bucket.page := by
  have kept := sound.kept bucket member
  have isSlot := kept.parts.mem_iff.mp isPart
  obtain ⟨positive, divides, _⟩ := bucketSize_cases kept.index
  have aligned := (sound.aligned _ (sound.page member).1).1
  exact ⟨isSlot, slot_page (by omega) aligned divides isSlot⟩

theorem free_page (sound : Sound heap buckets pool) (member : bucket ∈ buckets)
    {address : Nat} (isFree : address ∈ bucket.free) :
    pageOf address = bucket.page :=
  (sound.slot member (List.mem_append_left _ isFree)).2

/-- A live object is one of those of its page. -/
theorem live_slot (sound : Sound heap buckets pool) {object : Object}
    (isLive : object ∈ heap.live) :
    ∃ bucket ∈ buckets, pageOf object.address = bucket.page ∧
      bucketSize bucket.index = sizeFor object.len ∧
      object.address ∈ (heap.liveOn bucket.page).map Object.address ∧
      object.address ∈ slots bucket.page (bucketSize bucket.index) := by
  obtain ⟨bucket, member, isPage, isSize⟩ := sound.owners object isLive
  have onPage : object.address ∈
      (heap.liveOn bucket.page).map Object.address := by
    apply List.mem_map_of_mem
    rw [Heap.liveOn, List.mem_filter]
    exact ⟨isLive, by simp [isPage]⟩
  exact ⟨bucket, member, isPage, isSize, onPage,
    (sound.slot member (List.mem_append_right _ onPage)).1⟩

/-- A live object keeps to its page. -/
theorem live_inside (sound : Sound heap buckets pool) {object : Object}
    (isLive : object ∈ heap.live) {address : Nat}
    (inside : object.address ≤ address ∧
      address < object.address + sizeFor object.len) :
    pageOf address = pageOf object.address := by
  obtain ⟨bucket, member, isPage, isSize, _, isSlot⟩ := sound.live_slot isLive
  obtain ⟨_, divides, _⟩ := bucketSize_cases (sound.kept bucket member).index
  obtain ⟨above, below⟩ := slot_inside divides isSlot
  have aligned := (sound.aligned _ (sound.page member).1).1
  rw [isPage]
  exact pageOf_inside aligned (by omega) (by omega)

/-- The buckets are the same but for their free objects, and no link between
descriptors changes. -/
theorem update {next : Heap} {later : List Bucket}
    (sound : Sound heap buckets pool)
    (descs : later.map Bucket.desc = buckets.map Bucket.desc)
    (pages : later.map Bucket.page = buckets.map Bucket.page)
    (sorted : ∀ index, (later.filter (·.index == index)).map Bucket.desc =
      (buckets.filter (·.index == index)).map Bucket.desc)
    (chain : next.chain = heap.chain)
    (freeBucketDesc : next.freeBucketDesc = heap.freeBucketDesc)
    (given : next.given = heap.given)
    (descPages : next.descPages = heap.descPages)
    (links : ∀ desc ∈ pool ++ buckets.map Bucket.desc,
      next.memory (desc + 4) = heap.memory (desc + 4))
    (kept : ∀ bucket ∈ later, bucket.Kept next)
    (owners : ∀ object ∈ next.live, ∃ bucket ∈ later,
      pageOf object.address = bucket.page ∧
        bucketSize bucket.index = sizeFor object.len)
    (distinct : (next.live.map Object.address).Nodup) :
    Sound next later pool where
  chains := by
    intro index inDir
    rw [chain, sorted]
    apply (sound.chains index inDir).congr
    intro desc member
    apply links desc (List.mem_append_right _ _)
    obtain ⟨bucket, isBucket, rfl⟩ := List.mem_map.mp member
    exact List.mem_map_of_mem (List.mem_filter.mp isBucket).1
  spare := by
    rw [freeBucketDesc]
    exact sound.spare.congr fun desc member =>
      links desc (List.mem_append_left _ member)
  descs := descs ▸ sound.descs
  places := by
    rw [descs, descPages]
    exact sound.places
  pages := by
    rw [given, descPages, pages]
    exact sound.pages
  nodup := given ▸ sound.nodup
  aligned := given ▸ sound.aligned
  kept := kept
  owners := owners
  distinct := distinct

end Sound

end Linux011.Lib
