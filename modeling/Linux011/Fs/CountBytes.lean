import Linux011.Fs.CacheKeeps
import Linux011.Fs.CacheReferences

/-!
# The counts of references as bytes

`b_count` is a byte.  Whatever it does on its way, and also where a byte
wraps, each function of the cache adds its own reference and leaves every
other byte as it found it.
-/

namespace Linux011.Fs

open Coop Prog

/-! ## The bytes -/

/-- The bytes are those of `start` with these references more. -/
structure Bytes (start : Kernel) (gain : Nat → Nat) (kernel : Kernel) :
    Prop where
  lists : Lists kernel
  size : kernel.nrBuffers = start.nrBuffers
  byte : ∀ bh, (kernel.buffers bh).count % 256 =
    ((start.buffers bh).count + gain bh) % 256

namespace Bytes

variable {start kernel next : Kernel} {gain more : Nat → Nat} {bh : Nat}

theorem refl (lists : Lists kernel) : Bytes kernel 0 kernel :=
  ⟨lists, rfl, fun _ => rfl⟩

theorem quiet (bytes : Bytes start gain kernel) (quiet : Quiet kernel next) :
    Bytes start gain next where
  lists := bytes.lists.congr quiet.same
  size := quiet.same.nrBuffers.trans bytes.size
  byte := by
    intro bh
    rw [quiet.count]
    exact bytes.byte bh

theorem interrupts (bytes : Bytes start gain kernel)
    (moved : Interrupts kernel next) : Bytes start gain next :=
  bytes.quiet moved.quiet

/-- A change of one count. -/
theorem recount {buffer : Buffer} {count : Nat}
    (bytes : Bytes start gain kernel)
    (isBuffer : buffer = { kernel.buffers bh with count })
    (own : count % 256 = ((start.buffers bh).count + more bh) % 256)
    (others : ∀ other, other ≠ bh → more other = gain other) :
    Bytes start more (kernel.setBuffer bh buffer) := by
  subst isBuffer
  refine ⟨bytes.lists.congr (sameLists_setBuffer rfl rfl rfl rfl rfl rfl),
    bytes.size, fun other => ?_⟩
  rw [Kernel.setBuffer_buffers]
  split <;> rename_i here
  · rw [here]
    exact own
  · rw [others other here]
    exact bytes.byte other

theorem take (bytes : Bytes start gain kernel) (bh : Nat) :
    Bytes start (gain + one bh) (kernel.setBuffer bh
      { kernel.buffers bh with count := (kernel.buffers bh).count + 1 }) := by
  have byte := bytes.byte bh
  refine bytes.recount rfl ?_ fun other different => ?_
  · rw [Pi.add_apply, one_same]
    omega
  · rw [Pi.add_apply, one_other different, Nat.add_zero]

/-- Also where the byte is 0. -/
theorem drop (bytes : Bytes start (gain + one bh) kernel) :
    Bytes start gain (kernel.setBuffer bh (kernel.buffers bh).dropCount) := by
  have byte := bytes.byte bh
  rw [Pi.add_apply, one_same] at byte
  refine bytes.recount rfl ?_ fun other different => ?_
  · unfold Buffer.countByte
    split
    · omega
    · omega
  · rw [Pi.add_apply, one_other different, Nat.add_zero]

/-- An unused buffer is taken for a block that is not cached. -/
theorem claim {dev block : Nat} (bytes : Bytes start gain kernel)
    (isBuffer : bh < kernel.nrBuffers)
    (unused : (kernel.buffers bh).countByte = 0)
    (missing : findBuffer kernel dev block = none) :
    Bytes start (gain + one bh) (claim bh dev block kernel) where
  lists := claim_lists bytes.lists isBuffer fun hasDev _ isOther sameDev =>
    findBuffer_none bytes.lists missing hasDev isOther sameDev
  size := claim_nrBuffers.trans bytes.size
  byte := by
    intro other
    have byte := bytes.byte other
    rw [Kernel.bare_count (claim_bare bh dev block kernel),
      Kernel.setBuffer_buffers, Pi.add_apply]
    split <;> rename_i here
    · rw [here] at byte ⊢
      rw [one_same]
      unfold Buffer.countByte at unused
      show 1 % 256 = _
      omega
    · rw [one_other here, Nat.add_zero]
      exact byte

end Bytes

section Programs

variable {start : Kernel} {gain : Nat → Nat}

/-- A buffer for the block. -/
structure Holder (dev block bh : Nat) (kernel : Kernel) : Prop where
  isBuffer : bh < kernel.nrBuffers
  isFor : IsFor dev block bh kernel

section Circle

variable {getblk : Nat → Nat → Sys Nat}
  (gets : ∀ gain dev block, Hoare .any Interrupts (Bytes start gain)
    (getblk dev block).unmarked fun bh kernel =>
      Bytes start (gain + one bh) kernel ∧ Holder dev block bh kernel)

include gets

end Circle

end Programs

end Linux011.Fs
