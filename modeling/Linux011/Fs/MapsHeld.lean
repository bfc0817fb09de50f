import Mathlib.Logic.Relation
import Linux011.Fs.CacheKeeps
import Linux011.Fs.CacheReferences
import Linux011.Fs.RequestSpecs

/-!
# Blocks that a superblock holds

Buffers with a reference of their own, such as those of the maps, keep their
block and their data, whatever else is asked of the cache and whatever the
devices do: they are not claimed for other blocks, and nothing is read into
them.
-/

namespace Linux011.Fs

open Coop Prog

/-- What the devices do while the task sleeps. -/
def Devices : Kernel → Kernel → Prop := Relation.ReflTransGen Device

theorem Devices.interrupts {kernel next : Kernel} (acts : Devices kernel next) :
    Interrupts kernel next := by
  induction acts with
  | refl => exact ⟨Quiet.refl kernel, rfl, rfl⟩
  | tail _ acts induction =>
      have last := acts.interrupts
      exact ⟨induction.quiet.trans last.quiet, last.inodes.trans induction.inodes,
        last.supers.trans induction.supers⟩

/-- The request leaves the held buffers as they are. -/
def Request.Spares (request : Request) (isMap : Nat → Prop) : Prop :=
  request.cmd = .write ∨ ¬isMap request.bh

/-- The buffer is still that of the same block, and nothing was stored. -/
structure Buffer.Kept (buffer next : Buffer) : Prop where
  dev : next.dev = buffer.dev
  block : next.block = buffer.block
  count : next.count = buffer.count
  data : next.data = buffer.data

/-- Since `base` the held buffers were let alone, and of the inodes only
locks and dirty bits changed. -/
structure Guarded (base : Kernel) (isMap : Nat → Prop) (kernel : Kernel) :
    Prop where
  nrBuffers : kernel.nrBuffers = base.nrBuffers
  lists : Lists kernel
  aside : Aside base kernel
  kept : ∀ bh, isMap bh → (base.buffers bh).Kept (kernel.buffers bh)
  pending : ∀ major, ∀ slot ∈ kernel.queue major,
    (kernel.requests slot).Spares isMap

/-- The held buffers are in use, and none is of a block with inodes. -/
structure MapsHeld (kernel : Kernel) (isMap : Nat → Prop) : Prop where
  used : ∀ bh, isMap bh → (kernel.buffers bh).countByte ≠ 0
  apart : ∀ bh, isMap bh → ∀ sb,
    (kernel.supers sb).dev = (kernel.buffers bh).dev →
      (kernel.buffers bh).block <
        2 + (kernel.supers sb).imapBlocks + (kernel.supers sb).zmapBlocks

/-- The block is none of those in the held buffers. -/
def Unheld (base : Kernel) (isMap : Nat → Prop) (dev block : Nat) : Prop :=
  ∀ bh, isMap bh → (base.buffers bh).dev = dev →
    (base.buffers bh).block ≠ block

theorem Buffer.Kept.refl (buffer : Buffer) : buffer.Kept buffer :=
  ⟨rfl, rfl, rfl, rfl⟩

theorem Buffer.Kept.trans {first second third : Buffer}
    (left : first.Kept second) (right : second.Kept third) :
    first.Kept third where
  dev := right.dev.trans left.dev
  block := right.block.trans left.block
  count := right.count.trans left.count
  data := right.data.trans left.data

namespace Guarded

variable {base kernel : Kernel} {isMap : Nat → Prop}

theorem change {next : Kernel} (guarded : Guarded base isMap kernel)
    (nrBuffers : next.nrBuffers = kernel.nrBuffers) (lists : Lists next)
    (aside : Aside kernel next)
    (kept : ∀ bh, isMap bh → (kernel.buffers bh).Kept (next.buffers bh))
    (pending : ∀ major, ∀ slot ∈ next.queue major,
      (next.requests slot).Spares isMap) :
    Guarded base isMap next where
  nrBuffers := nrBuffers.trans guarded.nrBuffers
  lists := lists
  aside := Steady.trans guarded.aside aside
  kept := fun bh isHeld => (guarded.kept bh isHeld).trans (kept bh isHeld)
  pending := pending

/-- A change of one buffer, which keeps the lists. -/
theorem setBuffer {bh : Nat} {buffer : Buffer}
    (guarded : Guarded base isMap kernel)
    (same : SameLists kernel (kernel.setBuffer bh buffer))
    (kept : isMap bh → (kernel.buffers bh).Kept buffer) :
    Guarded base isMap (kernel.setBuffer bh buffer) := by
  refine guarded.change rfl (guarded.lists.congr same)
    (Aside.elsewhere rfl rfl) ?_ guarded.pending
  intro other isHeld
  rw [Kernel.setBuffer_buffers]
  split <;> rename_i here
  · subst here
    exact kept isHeld
  · exact .refl _

/-- A change of the flags of a buffer. -/
theorem setFlags (guarded : Guarded base isMap kernel) (bh : Nat)
    (uptodate dirt lock : Bool) :
    Guarded base isMap (kernel.setBuffer bh
      { kernel.buffers bh with uptodate, dirt, lock }) :=
  guarded.setBuffer Quiet.setBuffer.same fun _ => ⟨rfl, rfl, rfl, rfl⟩

/-- A change of the requests. -/
theorem requeue {requests : Nat → Request} {queue : Nat → List Nat}
    (guarded : Guarded base isMap kernel)
    (pending : ∀ major, ∀ slot ∈ queue major,
      (requests slot).Spares isMap) :
    Guarded base isMap { kernel with requests, queue } := by
  refine guarded.change rfl ?_ (Aside.elsewhere rfl rfl) (fun bh _ => .refl _)
    pending
  exact guarded.lists.congr (SameLists.elsewhere rfl rfl rfl rfl)

/-! ### The devices -/

theorem transfer {slot : Nat} (guarded : Guarded base isMap kernel)
    (spares : (kernel.requests slot).Spares isMap) :
    Guarded base isMap (transfer slot kernel) := by
  unfold Fs.transfer
  dsimp only
  split <;> rename_i writes
  · refine guarded.change rfl ?_ (Aside.elsewhere rfl rfl)
      (fun bh _ => .refl _) guarded.pending
    exact guarded.lists.congr (SameLists.elsewhere rfl rfl rfl rfl)
  · apply guarded.setBuffer Quiet.setBuffer.same
    intro isHeld
    exact ((spares.resolve_left writes) isHeld).elim

theorem endRequest (guarded : Guarded base isMap kernel) (major : Nat)
    (uptodate : Bool) :
    Guarded base isMap (endRequest major uptodate kernel) := by
  unfold Fs.endRequest
  split
  · exact guarded
  · rename_i slot rest isQueue
    refine (guarded.setFlags (kernel.requests slot).bh uptodate _ false).requeue ?_
    intro other entry member
    have spares : (kernel.requests entry).Spares isMap := by
      apply guarded.pending other
      dsimp only at member
      split at member <;> rename_i here
      · rw [here, isQueue]
        exact List.mem_cons_of_mem _ member
      · exact member
    show (if entry = slot then { kernel.requests slot with dev := none }
      else kernel.requests entry : Request).Spares isMap
    split <;> rename_i here
    · subst here
      exact spares
    · exact spares

theorem complete (guarded : Guarded base isMap kernel) (major : Nat)
    (success : Bool) : Guarded base isMap (complete major success kernel) := by
  unfold Fs.complete
  split
  · exact guarded
  · rename_i slot rest isQueue
    split
    · refine (guarded.transfer (guarded.pending major slot ?_)).endRequest _ _
      rw [isQueue]
      exact List.mem_cons_self
    · exact guarded.endRequest _ _

theorem devices {next : Kernel} (guarded : Guarded base isMap kernel)
    (acts : Devices kernel next) : Guarded base isMap next := by
  induction acts with
  | refl => exact guarded
  | tail _ acts induction =>
      cases acts with
      | complete major success => exact induction.complete major success
      | unlock bh uptodate => exact induction.setFlags bh uptodate _ false

theorem requestFn (guarded : Guarded base isMap kernel) (major slot : Nat) :
    Guarded base isMap (requestFn major slot kernel) := by
  unfold Fs.requestFn
  split
  · exact guarded.complete _ _
  · exact guarded

theorem addRequest (guarded : Guarded base isMap kernel) (major slot : Nat)
    (spares : (kernel.requests slot).Spares isMap) :
    Guarded base isMap (addRequest major slot kernel) := by
  obtain ⟨line, order, added⟩ := addRequest_cases kernel major slot
  have isLined : Guarded base isMap
      (lined kernel major (kernel.requests slot).bh line) := by
    refine (guarded.setFlags (kernel.requests slot).bh _ false _).requeue ?_
    intro other entry member
    dsimp only at member
    split at member
    · rw [order.mem_iff, List.mem_cons] at member
      rcases member with rfl | inQueue
      · exact spares
      · exact guarded.pending major entry inQueue
    · exact guarded.pending other entry member
  rcases added with added | added <;> rw [added]
  · exact isLined
  · exact isLined.requestFn _ _

/-! ### The cache -/

/-- Everything the cache does leaves the held buffers alone, as long as it is
not asked for their blocks. -/
theorem keeps {fate : Fate} (held : MapsHeld base isMap) (spent : fate.spent)
    (panic : ∀ message ∈ cachePanics, fate.panic message) :
    CacheKeeps fate Devices base.nrBuffers (Guarded base isMap)
      (fun bh => ¬isMap bh) (Unheld base isMap) where
  spent := spent
  panic := panic
  lists := Guarded.lists
  nrBuffers := Guarded.nrBuffers
  lasts := Guarded.devices
  inode := by
    intro kernel index lock dirt guarded
    refine guarded.change rfl ?_ (Aside.setInode _ _ _ _)
      (fun bh _ => .refl _) guarded.pending
    exact guarded.lists.congr (SameLists.elsewhere rfl rfl rfl rfl)
  lock := fun bh lock guarded => guarded.setFlags bh _ _ lock
  file := by
    intro kernel major slot bh rw guarded may
    have filled : Guarded base isMap
        (kernel.setRequest slot (requestOf kernel bh rw)) := by
      refine guarded.requeue ?_
      intro other entry member
      split
      · exact may
      · exact guarded.pending other entry member
    apply filled.addRequest
    show (if slot = slot then requestOf kernel bh rw
      else kernel.requests slot).Spares isMap
    rw [if_pos rfl]
    exact may
  found := by
    intro kernel dev block bh guarded unheld sameDev sameBlock isHeld
    have kept := guarded.kept bh isHeld
    exact unheld bh isHeld (kept.dev.symm.trans sameDev)
      (kept.block.symm.trans sameBlock)
  unused := by
    intro kernel bh guarded unused isHeld
    apply held.used bh isHeld
    unfold Buffer.countByte at unused ⊢
    rw [← (guarded.kept bh isHeld).count]
    exact unused
  count := fun _ guarded isSpare =>
    guarded.setBuffer (sameLists_setBuffer rfl rfl rfl rfl rfl rfl)
      fun isHeld => (isSpare isHeld).elim
  store := fun _ _ guarded isSpare =>
    guarded.setBuffer Quiet.setBuffer.same fun isHeld => (isSpare isHeld).elim
  claim := by
    intro kernel bh dev block guarded isSpare _ isBuffer missing
    have isBuffer : bh < kernel.nrBuffers := guarded.nrBuffers ▸ isBuffer
    have lists := claim_lists guarded.lists isBuffer
      fun hasDev other isOther sameDev =>
        findBuffer_none guarded.lists missing hasDev isOther sameDev
    have bare := claim_bare bh dev block kernel
    have inodes := congrArg Kernel.inodes bare
    have supers := congrArg Kernel.supers bare
    refine guarded.change claim_nrBuffers lists
      (Aside.elsewhere inodes supers) ?_ ?_
    · intro other isHeld
      have different : other ≠ bh := by
        rintro rfl
        exact isSpare isHeld
      have same := Kernel.bare_buffer bare other
      rw [Kernel.setBuffer_other different] at same
      have dev := congrArg Buffer.dev same
      have block := congrArg Buffer.block same
      have count := congrArg Buffer.count same
      have data := congrArg Buffer.data same
      exact ⟨dev, block, count, data⟩
    · have queue := congrArg Kernel.queue bare
      have requests := congrArg Kernel.requests bare
      have sameQueue : (Fs.claim bh dev block kernel).queue = kernel.queue :=
        queue
      have sameRequests : (Fs.claim bh dev block kernel).requests =
          kernel.requests := requests
      rw [sameQueue, sameRequests]
      exact guarded.pending
  locate := by
    intro kernel fuel index guarded
    have lasts (first second : Kernel)
        (holds : Guarded base isMap first ∧
          (first.inodes index).dev = (kernel.inodes index).dev)
        (acts : Devices first second) :
        Guarded base isMap second ∧
          (second.inodes index).dev = (kernel.inodes index).dev := by
      rw [acts.interrupts.inodes]
      exact ⟨holds.1.devices acts, holds.2⟩
    refine hoare_at ⟨guarded, rfl⟩ (hoare_post
      (getSuper_finds spent lasts (kernel.inodes index).dev fuel) ?_)
    rintro found next ⟨⟨later, sameDev⟩, finds⟩
    refine ⟨later, fun sb isFound bh isHeld same sameBlock => ?_⟩
    subst isFound
    have superDev := finds.2
    rw [later.aside.supers] at superDev
    have before := held.apart bh isHeld sb (by rw [superDev, same, sameDev])
    rw [sameBlock, later.aside.supers] at before
    unfold inodeBlock inodesPerBlock at before
    omega

end Guarded

/-! ### The maps -/

/-- The buffer is one of a map of a mounted superblock. -/
def Kernel.IsMap (kernel : Kernel) (bh : Nat) : Prop :=
  ∃ sb, (kernel.supers sb).dev ≠ 0 ∧
    ∃ i, (kernel.supers sb).imap i = some bh ∨
      (kernel.supers sb).zmap i = some bh

/-- The buffer was got for a block of the device, and not given back. -/
structure Kernel.Holding (kernel : Kernel) (dev block bh : Nat) : Prop where
  dev : (kernel.buffers bh).dev = dev
  block : (kernel.buffers bh).block = block
  used : (kernel.buffers bh).countByte ≠ 0

/-- Each device is mounted once, and its maps are in the cache as `read_super`
leaves them there; `s_ninodes` is a short. -/
structure MapsLoaded (kernel : Kernel) : Prop where
  lists : Lists kernel
  ninodes : ∀ sb, (kernel.supers sb).ninodes < 65536
  once : ∀ sb other, (kernel.supers sb).dev ≠ 0 →
    (kernel.supers other).dev = (kernel.supers sb).dev → other = sb
  imap : ∀ sb, (kernel.supers sb).dev ≠ 0 → ∀ i bh,
    (kernel.supers sb).imap i = some bh →
      i < (kernel.supers sb).imapBlocks ∧
        kernel.Holding (kernel.supers sb).dev (2 + i) bh
  zmap : ∀ sb, (kernel.supers sb).dev ≠ 0 → ∀ i bh,
    (kernel.supers sb).zmap i = some bh →
      i < (kernel.supers sb).zmapBlocks ∧
        kernel.Holding (kernel.supers sb).dev
          (2 + (kernel.supers sb).imapBlocks + i) bh
  pending : ∀ major, ∀ slot ∈ kernel.queue major,
    (kernel.requests slot).Spares kernel.IsMap

namespace MapsLoaded

variable {kernel : Kernel}

theorem held (loaded : MapsLoaded kernel) : MapsHeld kernel kernel.IsMap where
  used := by
    rintro bh ⟨sb, isUsed, i, isMap | isMap⟩
    · exact (loaded.imap sb isUsed i bh isMap).2.used
    · exact (loaded.zmap sb isUsed i bh isMap).2.used
  apart := by
    rintro bh ⟨sb, isUsed, i, isMap | isMap⟩ other sameDev
    · obtain ⟨inMap, holding⟩ := loaded.imap sb isUsed i bh isMap
      rw [holding.dev] at sameDev
      rw [loaded.once sb other isUsed sameDev, holding.block]
      omega
    · obtain ⟨inMap, holding⟩ := loaded.zmap sb isUsed i bh isMap
      rw [holding.dev] at sameDev
      rw [loaded.once sb other isUsed sameDev, holding.block]
      omega

theorem guarded (loaded : MapsLoaded kernel) :
    Guarded kernel kernel.IsMap kernel where
  nrBuffers := rfl
  lists := loaded.lists
  aside := Steady.refl kernel
  kept := fun _ _ => .refl _
  pending := loaded.pending

/-- Any later state with the same superblocks in which the buffers of the maps
still are those of their blocks. -/
theorem later {next : Kernel} (loaded : MapsLoaded kernel)
    (lists : Lists next) (supers : next.supers = kernel.supers)
    (same : ∀ bh, kernel.IsMap bh →
      (next.buffers bh).dev = (kernel.buffers bh).dev ∧
        (next.buffers bh).block = (kernel.buffers bh).block ∧
        (next.buffers bh).count = (kernel.buffers bh).count)
    (pending : ∀ major, ∀ slot ∈ next.queue major,
      (next.requests slot).Spares kernel.IsMap) : MapsLoaded next := by
  have holding {dev block bh : Nat} (isMap : kernel.IsMap bh)
      (holds : kernel.Holding dev block bh) : next.Holding dev block bh := by
    obtain ⟨sameDev, sameBlock, sameCount⟩ := same bh isMap
    refine ⟨sameDev.trans holds.dev, sameBlock.trans holds.block, ?_⟩
    unfold Buffer.countByte
    rw [sameCount]
    exact holds.used
  have sameMaps : next.IsMap = kernel.IsMap := by
    unfold Kernel.IsMap
    rw [supers]
  constructor
  case lists => exact lists
  case ninodes => exact supers ▸ loaded.ninodes
  case once => exact supers ▸ loaded.once
  case imap =>
    rw [supers]
    intro sb isUsed i bh isMap
    obtain ⟨inMap, holds⟩ := loaded.imap sb isUsed i bh isMap
    exact ⟨inMap, holding ⟨sb, isUsed, i, .inl isMap⟩ holds⟩
  case zmap =>
    rw [supers]
    intro sb isUsed i bh isMap
    obtain ⟨inMap, holds⟩ := loaded.zmap sb isUsed i bh isMap
    exact ⟨inMap, holding ⟨sb, isUsed, i, .inr isMap⟩ holds⟩
  case pending => exact sameMaps ▸ pending

/-- The buffers of the maps, after the cache has been at work. -/
theorem guards {next : Kernel} (loaded : MapsLoaded kernel)
    (guarded : Guarded kernel kernel.IsMap next) : MapsLoaded next := by
  apply loaded.later guarded.lists guarded.aside.supers _ guarded.pending
  intro bh isMap
  have kept := guarded.kept bh isMap
  exact ⟨kept.dev, kept.block, kept.count⟩

end MapsLoaded

end Linux011.Fs
