import Linux011.Proc.ArgumentPages

/-!
# The memory of the new image

After `change_ldt` the segment of the task is its whole window and every page
in it is its own.  Here is what loads and stores of the kernel do there.
-/

namespace Linux011.Proc

open Linux011.Mm Bytes Coop

variable {layout : Layout} {nr : Nat} {exec next : Exec}

open Classical in
/-- The bytes at the offsets of the segment that have a page. -/
noncomputable def Exec.sees (layout : Layout) (nr : Nat) (exec : Exec)
    (offset : Nat) : Option Byte :=
  if offset < 0x4000000 ∧
      Mapped layout exec.system.memory (windowBase nr + offset) then
    exec.system.memory.userByte (windowBase nr + offset)
  else none

/-- The task runs in the whole of its window. -/
structure Started (layout : Layout) (nr : Nat) (exec : Exec) : Prop where
  running : ∃ holds, Running layout nr exec holds
  segment : ∃ p, exec.system.task nr = some p ∧
    p.dataSegment = ⟨windowBase nr, 0x4000000⟩
  pages : exec.Paged layout nr

/-- Nothing that could be read but the bytes from `first` up to `last` has
changed. -/
def Kept (layout : Layout) (nr : Nat) (first last : Nat)
    (exec next : Exec) : Prop :=
  ∀ offset byte, offset < first ∨ last ≤ offset →
    exec.sees layout nr offset = some byte →
      next.sees layout nr offset = some byte

theorem sees_eq_some {offset : Nat} {byte : Byte} :
    exec.sees layout nr offset = some byte ↔ offset < 0x4000000 ∧
      Mapped layout exec.system.memory (windowBase nr + offset) ∧
        exec.system.memory.userByte (windowBase nr + offset) =
          some byte := by
  unfold Exec.sees
  split <;> rename_i readable
  · exact Iff.intro (fun isByte => ⟨readable.1, readable.2, isByte⟩)
      (fun all => all.2.2)
  · exact Iff.intro (fun impossible => nomatch impossible)
      (fun all => absurd ⟨all.1, all.2.1⟩ readable)

theorem Kept.refl {first last : Nat} : Kept layout nr first last exec exec :=
  fun _ _ _ isByte => isByte

theorem Kept.trans {middle : Exec} {first last otherFirst otherLast least
    greatest : Nat} (before : Kept layout nr first last exec middle)
    (after : Kept layout nr otherFirst otherLast middle next)
    (from_ : least ≤ first ∧ least ≤ otherFirst)
    (upTo : last ≤ greatest ∧ otherLast ≤ greatest) :
    Kept layout nr least greatest exec next := by
  intro offset byte outside isByte
  refine after offset byte ?_ (before offset byte ?_ isByte)
  · rcases outside with below | above
    · exact .inl (by omega)
    · exact .inr (by omega)
  · rcases outside with below | above
    · exact .inl (by omega)
    · exact .inr (by omega)

theorem Kept.holds {first last address : Nat} {bytes : List Byte}
    (kept : Kept layout nr first last exec next)
    (holds : Holds (exec.sees layout nr) address bytes)
    (apart : address + bytes.length ≤ first ∨ last ≤ address) :
    Holds (next.sees layout nr) address bytes := by
  refine holds.stays ?_
  intro offset byte above below isByte
  refine kept offset byte ?_ isByte
  rcases apart with before | after
  · exact .inl (by omega)
  · exact .inr (by omega)

namespace Started

variable {offset : Nat}

theorem isTask (started : Started layout nr exec) : 1 ≤ nr ∧ nr < 64 := by
  obtain ⟨holds, running⟩ := started.running
  exact running.isTask

theorem inside (started : Started layout nr exec)
    (small : offset < 0x4000000) :
    Fault.At nr (windowBase nr + offset) :=
  ⟨started.isTask, by omega, by omega⟩

theorem elsewhere (started : Started layout nr exec)
    (other : Elsewhere layout nr exec next) : Started layout nr next := by
  obtain ⟨holds, running⟩ := started.running
  obtain ⟨p, isTask, segment⟩ := started.segment
  obtain ⟨q, isNext, same⟩ := other.image p isTask
  exact ⟨other.running holds running,
    ⟨q, isNext, (congrArg Image.dataSegment same).trans segment⟩,
    other.pages started.pages⟩

theorem kept (started : Started layout nr exec)
    (other : Elsewhere layout nr exec next) {first last : Nat} :
    Kept layout nr first last exec next := by
  intro offset byte _ isByte
  obtain ⟨small, mapped, isUser⟩ := sees_eq_some.mp isByte
  obtain ⟨nextMapped, same⟩ := other.mapped _ (started.inside small) mapped
  exact sees_eq_some.mpr ⟨small, nextMapped, same.trans isUser⟩

/-- A change of memory under the same holds. -/
theorem setMemory (started : Started layout nr exec) {memory : Mm.State}
    (valid : ∀ holds, Valid layout exec.system.memory holds →
      Valid layout memory holds)
    (pages : ∀ address, Fault.At nr address →
      (memory.entryAt address).present = true →
        Mapped layout memory address) :
    Started layout nr (exec.setMemory memory) := by
  obtain ⟨holds, running⟩ := started.running
  obtain ⟨p, isTask, segment⟩ := started.segment
  obtain ⟨q, isOwn, inWindow, _⟩ := running.own
  refine ⟨⟨holds, ?_⟩, ⟨p, isTask, segment⟩, pages⟩
  refine
    { isTask := running.isTask
      valid := valid holds running.valid
      windowed := running.windowed
      own := ⟨q, isOwn, inWindow, ?_⟩
      held := running.held
      apart := running.apart
      few := running.few }
  intro dir above below
  rw [isTask, Option.some.injEq] at isOwn
  subst isOwn
  rw [segment] at above
  dsimp only at above
  omega

end Started

section Access

variable {around : Surroundings} {offset : Nat}

theorem myself_wp {p : TaskStruct} (isTask : exec.system.task nr = some p)
    {fate : Fate} {env : Exec → Exec → Prop} {post : TaskStruct → Exec → Prop} :
    (myself nr).wp fate env post exec ↔ post p exec := by
  unfold myself
  rw [Prog.wp_bind, Prog.wp_get, isTask]
  rfl

/-- A little-endian number in memory. -/
def HoldsLong (memory : Nat → Option Byte) (address value : Nat) : Prop :=
  Holds memory address (longBytes (BitVec.ofNat 32 value))

end Access

end Linux011.Proc
