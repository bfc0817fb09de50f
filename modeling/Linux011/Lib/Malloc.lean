import Mathlib.Algebra.Group.Nat.Defs
import Linux011.Library.Chains
import Linux011.Library.Machine

/-!
# The kernel allocator

`malloc.c`.  Each page is cut into objects of one size; the free objects of a
page are threaded through themselves.  A bucket descriptor keeps track of a
page.  Memory is the value of the variable at each address; a pointer is an
address, and `NULL` is 0.
-/

namespace Linux011.Lib

open Chains Machines

/-- `PAGE_SIZE`. -/
def pageSize : Nat := 4096

/-- The sizes in `bucket_dir`. -/
def bucketDir : List Nat := [16, 32, 64, 128, 256, 512, 1024, 2048, 4096]

/-- `bucket_dir[index].size`; 0 ends the list. -/
def bucketSize (index : Nat) : Nat := bucketDir.getD index 0

/-- What a caller of `malloc` has, and the length it asked for. -/
structure Object where
  address : Nat
  len : Nat
  deriving DecidableEq

/-- `chain index` is `bucket_dir[index].chain`.  `given` are the pages that
`get_free_page` has given and `free_page` has not taken back, `descPages`
those among them for descriptors, and `live` the objects in use. -/
structure Heap where
  memory : Nat → Nat
  chain : Nat → Nat
  freeBucketDesc : Nat
  given : List Nat
  descPages : List Nat
  live : List Object

namespace Heap

/-! `struct bucket_desc` takes 16 bytes. -/

def page (heap : Heap) (bdesc : Nat) : Nat := heap.memory bdesc

def next (heap : Heap) (bdesc : Nat) : Nat := heap.memory (bdesc + 4)

def freeptr (heap : Heap) (bdesc : Nat) : Nat := heap.memory (bdesc + 8)

def refcnt (heap : Heap) (bdesc : Nat) : Nat := heap.memory (bdesc + 12)

def size (heap : Heap) (bdesc : Nat) : Nat := heap.memory (bdesc + 14)

def store (heap : Heap) (address value : Nat) : Heap :=
  { heap with
    memory := fun other =>
      if other = address then value else heap.memory other }

def setChain (heap : Heap) (index bdesc : Nat) : Heap :=
  { heap with
    chain := fun other => if other = index then bdesc else heap.chain other }

/-- `get_free_page` when it gives `page`, which it has cleared. -/
def getFreePage (page : Nat) (heap : Heap) : Heap :=
  { heap with
    memory := fun address =>
      if page ≤ address ∧ address < page + pageSize then 0
      else heap.memory address
    given := page :: heap.given }

/-- `free_page`. -/
def freePage (page : Nat) (heap : Heap) : Heap :=
  { heap with given := heap.given.erase page }

/-- `init_bucket_desc`. -/
def initBucketDesc (first : Nat) (heap : Heap) : Heap :=
  let heap := heap.getFreePage first
  let heap := { heap with memory := thread 4 16 255 first heap.memory }
  let heap := heap.store (first + 255 * 16 + 4) heap.freeBucketDesc
  { heap with
    freeBucketDesc := first
    descPages := first :: heap.descPages }

/-- A new bucket of `bucket_dir[index]`, on `page`. -/
def newBucket (index page : Nat) (heap : Heap) : Nat × Heap :=
  let bdesc := heap.freeBucketDesc
  let heap := { heap with freeBucketDesc := heap.next bdesc }
  let heap := heap.store (bdesc + 12) 0
  let heap := heap.store (bdesc + 14) (bucketSize index)
  let heap := heap.getFreePage page
  let heap := heap.store (bdesc + 8) page
  let heap := heap.store bdesc page
  let count := pageSize / bucketSize index - 1
  let heap := { heap with
    memory := thread 0 (bucketSize index) count page heap.memory }
  let heap := heap.store (page + count * bucketSize index) 0
  let heap := heap.store (bdesc + 4) (heap.chain index)
  (bdesc, heap.setChain index bdesc)

/-- Take the first free object of a bucket. -/
def take (bdesc : Nat) (heap : Heap) : Nat × Heap :=
  let retval := heap.freeptr bdesc
  let heap := heap.store (bdesc + 8) (heap.memory retval)
  let heap := heap.store (bdesc + 12) ((heap.refcnt bdesc + 1) % 2 ^ 16)
  (retval, heap)

/-- Enough steps for a search along a chain of buckets. -/
def fuel (heap : Heap) : Nat := heap.given.length + 1

/-- `malloc`, where `get_free_page` gives `descPage` for descriptors and
`page` for a bucket; none for its panics. -/
def malloc (len descPage page : Nat) (heap : Heap) : Option (Nat × Heap) :=
  match bucketDir.findIdx? fun size => decide (len ≤ size) with
  | none => none
  | some index =>
      match walk heap.next (fun bdesc => heap.freeptr bdesc != 0) heap.fuel 0
          (heap.chain index) with
      | none => none
      | some (_, bdesc) =>
          if bdesc ≠ 0 then some (heap.take bdesc)
          else
            let heap := if heap.freeBucketDesc = 0 then
              heap.initBucketDesc descPage else heap
            let (bdesc, heap) := heap.newBucket index page
            some (heap.take bdesc)

/-- The search of `free_s` through `bucket_dir` from an index on: the index,
the descriptor of the page and the one before it. -/
def findPage (page : Nat) (size : Int) (heap : Heap) :
    List Nat → Option (Nat × Nat × Nat)
  | [] => none
  | index :: rest =>
      if (bucketSize index : Int) < size then heap.findPage page size rest
      else
        match walk heap.next (fun bdesc => heap.page bdesc == page) heap.fuel 0
            (heap.chain index) with
        | none => none
        | some (prev, bdesc) =>
            if bdesc ≠ 0 then some (index, prev, bdesc)
            else heap.findPage page size rest

/-- Give back the page of a bucket that is unlinked, and its descriptor. -/
def retire (bdesc : Nat) (heap : Heap) : Heap :=
  let heap := heap.freePage (heap.page bdesc)
  let heap := heap.store (bdesc + 4) heap.freeBucketDesc
  { heap with freeBucketDesc := bdesc }

/-- `prev`, which is searched for again if it is not accurate. -/
def accurate (index prev bdesc : Nat) (heap : Heap) : Option Nat :=
  if (prev ≠ 0 ∧ heap.next prev ≠ bdesc) ∨
      (prev = 0 ∧ heap.chain index ≠ bdesc) then
    (walk heap.next (fun prev => heap.next prev == bdesc) heap.fuel 0
      (heap.chain index)).map Prod.snd
  else some prev

/-- Give back a bucket without objects. -/
def release (index prev bdesc : Nat) (heap : Heap) : Option Heap :=
  match heap.accurate index prev bdesc with
  | none => none
  | some prev =>
      if prev ≠ 0 then
        some ((heap.store (prev + 4) (heap.next bdesc)).retire bdesc)
      else if heap.chain index ≠ bdesc then none
      else some ((heap.setChain index (heap.next bdesc)).retire bdesc)

/-- Put an object in front of the free ones of its bucket. -/
def put (obj bdesc : Nat) (heap : Heap) : Heap :=
  let heap := heap.store obj (heap.freeptr bdesc)
  let heap := heap.store (bdesc + 8) obj
  heap.store (bdesc + 12) ((heap.refcnt bdesc + (2 ^ 16 - 1)) % 2 ^ 16)

/-- `free_s`; none for its panics. -/
def freeS (obj : Nat) (size : Int) (heap : Heap) : Option Heap :=
  let page := obj / pageSize * pageSize
  match heap.findPage page size (List.range bucketDir.length) with
  | none => none
  | some (index, prev, bdesc) =>
      let heap := heap.put obj bdesc
      if heap.refcnt bdesc = 0 then heap.release index prev bdesc
      else some heap

end Heap

/-- The size of the objects that are given for a length. -/
def sizeFor (len : Nat) : Nat :=
  ((bucketDir.findIdx? fun size => decide (len ≤ size)).map bucketSize).getD 0

/-- What the users of the allocator do; `write` is any change of memory. -/
inductive HeapAction where
  | malloc (len descPage page : Nat)
  | freeS (object : Object) (size : Int)
  | write (memory : Nat → Nat)

def allocator : Machine Heap HeapAction where
  step := fun heap action =>
    match action with
    | .malloc len descPage page =>
        (heap.malloc len descPage page).map fun (address, heap) =>
          { heap with live := ⟨address, len⟩ :: heap.live }
    | .freeS object size =>
        (heap.freeS object.address size).map fun heap =>
          { heap with live := heap.live.erase object }
    | .write memory => some { heap with memory }

/-- A page that `get_free_page` may give. -/
def Heap.Fresh (heap : Heap) (page : Nat) : Prop :=
  page % pageSize = 0 ∧ page ≠ 0 ∧ page ∉ heap.given

/-- What is asked of `get_free_page` and of the users: pages are fresh, only
live objects are freed and written to. -/
def Sensible (heap : Heap) : HeapAction → Prop
  | .malloc len descPage page =>
      len ≤ 4096 ∧ heap.Fresh descPage ∧ heap.Fresh page ∧ descPage ≠ page
  | .freeS object size =>
      object ∈ heap.live ∧ (size = 0 ∨ size ≤ sizeFor object.len)
  | .write memory => ∀ address,
      (∀ object ∈ heap.live, ¬(object.address ≤ address ∧
        address < object.address + sizeFor object.len)) →
      memory address = heap.memory address

end Linux011.Lib
