import Linux011.Mm.StoreIsolation

/-!
# What `verify_area` covers

`verify_area` goes through the pages of an area one by one.  Its size is an
`int`, and so is the sum of the size and the offset in the first page.
-/

namespace Linux011.Mm

/-! ## Entries of linear addresses -/

/-- The page-table entry for a linear address, 0 where it has no page
table. -/
def State.entryOf (state : State) (linear : Nat) : Word :=
  if (state.pde (dirIndex linear)).present = true then
    state.phys (state.pde (dirIndex linear)).page (tableIndex linear)
  else 0#32

/-- The page, if it is there, is writable. -/
def State.Open (state : State) (linear : Nat) : Prop :=
  (state.entryOf linear).present = true →
    (state.entryOf linear).writable = true

/-- The page of a linear address has not been touched: it has its entry, and a
page of a task also its content. -/
structure Untouched (state next : State) (linear : Nat) : Prop where
  entry : next.entryOf linear = state.entryOf linear
  reads : dirIndex linear ∈ userDirs →
    next.reads (dirIndex linear, tableIndex linear) =
      state.reads (dirIndex linear, tableIndex linear)

/-- What `verify_area` is to do for the bytes from `start` on. -/
structure Covers (state next : State) (start size : Nat) : Prop where
  isOpen : ∀ linear, start ≤ linear → linear < start + size →
    next.Open linear
  others : ∀ linear, linear < 2 ^ 32 →
    linear / 4096 < start / 4096 ∨
      (start + size - 1) / 4096 < linear / 4096 →
    Untouched state next linear

section Entries

variable {layout : Layout} {state middle next : State} {holds : Nat → Nat}
  {linear other : Nat}

theorem entryOf_user (isUser : dirIndex linear ∈ userDirs) :
    state.entryOf linear = state.entryAt linear := by
  unfold State.entryOf
  split <;> rename_i isPresent
  · exact (State.pte_eq (address_slot isUser) isPresent).symm
  · exact (State.pte_eq_zero (by simpa using isPresent)).symm

theorem entryOf_samePage (same : other / 4096 = linear / 4096) :
    state.entryOf other = state.entryOf linear := by
  have sameDir : dirIndex other = dirIndex linear := by
    unfold dirIndex
    omega
  have sameTable : tableIndex other = tableIndex linear := by
    unfold tableIndex
    omega
  unfold State.entryOf
  rw [sameDir, sameTable]

theorem Untouched.refl (state : State) (linear : Nat) :
    Untouched state state linear :=
  ⟨rfl, fun _ => rfl⟩

theorem Untouched.trans (first : Untouched state middle linear)
    (second : Untouched middle next linear) : Untouched state next linear where
  entry := second.entry.trans first.entry
  reads := fun isUser => (second.reads isUser).trans (first.reads isUser)

theorem Untouched.isOpen (untouched : Untouched state next linear)
    (isOpen : state.Open linear) : next.Open linear := by
  unfold State.Open
  rw [untouched.entry]
  exact isOpen

/-- The entries of the kernel stay. -/
theorem KernelSame.entryOf (same : KernelSame layout state next)
    (tables : KernelTables layout state) (notUser : dirIndex linear ∉ userDirs) :
    next.entryOf linear = state.entryOf linear := by
  have low : dirIndex linear < 16 := by
    rw [mem_userDirs] at notUser
    have inRange : dirIndex linear < 1024 := Nat.mod_lt _ (by decide)
    omega
  unfold State.entryOf
  rw [same.pde _ low]
  split <;> rename_i isPresent
  · obtain ⟨notZero, unmanaged⟩ := tables.tables _ low isPresent
    rw [same.phys _ notZero unmanaged]
  · rfl

end Entries

/-! ## The loop -/

section Loop

variable {layout : Layout} {state next : State} {holds : Nat → Nat}

/-- One round opens its page and touches no other. -/
theorem writeVerify_opens (valid : Valid layout state holds)
    (tables : KernelTables layout state) {address : Nat}
    (small : address < 2 ^ 32) (returns : writeVerify address state = .ok next) :
    Valid layout next holds ∧ KernelTables layout next ∧ next.Open address ∧
      ∀ linear, linear < 2 ^ 32 → linear / 4096 ≠ address / 4096 →
        Untouched state next linear := by
  by_cases isUser : dirIndex address ∈ userDirs
  · have moved := writeVerify_moved valid tables small
    have spec := writeVerify_spec valid isUser
    rw [returns] at moved spec
    obtain ⟨moved, unshared⟩ := moved
    refine ⟨moved.valid, tables.stay moved.kernel, ?_, ?_⟩
    · unfold State.Open
      rw [entryOf_user isUser]
      exact unshared
    · intro linear linearSmall different
      rcases spec with rfl | ⟨word, owned⟩
      · exact .refl _ _
      · by_cases otherUser : dirIndex linear ∈ userDirs
        · obtain ⟨_, inside⟩ := at_of_user small isUser
          obtain ⟨_, otherInside⟩ := at_of_user linearSmall otherUser
          refine ⟨?_, fun _ => owned.reads (address_slot otherUser) ?_⟩
          · rw [entryOf_user otherUser, entryOf_user otherUser]
            exact entryAt_setEntry_other owned.entries inside otherInside
              different
          · intro same
            rw [Prod.mk.injEq] at same
            apply different
            unfold dirIndex tableIndex at same
            omega
        · exact ⟨moved.kernel.entryOf tables otherUser,
            fun isUser => (otherUser isUser).elim⟩
  · rw [writeVerify_kernel tables isUser] at returns
    obtain rfl : state = next := Except.ok.inj returns
    refine ⟨valid, tables, ?_, fun _ _ _ => .refl _ _⟩
    intro isPresent
    have low : dirIndex address < 16 := by
      rw [mem_userDirs] at isUser
      have inRange : dirIndex address < 1024 := Nat.mod_lt _ (by decide)
      omega
    unfold State.entryOf at isPresent ⊢
    split at isPresent <;> rename_i hasTable
    · rw [if_pos hasTable]
      exact tables.open_ _ low hasTable _ (Nat.mod_lt _ (by decide)) isPresent
    · cases isPresent

/-- The loop opens the pages it comes to and touches no others. -/
theorem verifyPages_opens (valid : Valid layout state holds)
    (tables : KernelTables layout state) {start pages : Nat}
    (aligned : start % 4096 = 0) (fits : start + pages * 4096 ≤ 2 ^ 32)
    (returns : verifyPages start pages state = .ok next) :
    (∀ linear, start ≤ linear → linear < start + pages * 4096 →
        next.Open linear) ∧
      ∀ linear, linear < 2 ^ 32 →
        linear < start ∨ start + pages * 4096 ≤ linear →
          Untouched state next linear := by
  induction pages generalizing start state with
  | zero =>
      obtain rfl : state = next := Except.ok.inj returns
      exact ⟨fun _ _ _ => by omega, fun _ _ _ => .refl _ _⟩
  | succ pages induction =>
      have small : start < 2 ^ 32 := by omega
      unfold verifyPages at returns
      cases first : writeVerify start state with
      | error fault =>
          rw [first] at returns
          cases returns
      | ok middle =>
          rw [first] at returns
          obtain ⟨stillValid, stillTables, isOpen, others⟩ :=
            writeVerify_opens valid tables small first
          have rest : (∀ linear, start + 4096 ≤ linear →
              linear < start + 4096 + pages * 4096 → next.Open linear) ∧
                ∀ linear, linear < 2 ^ 32 → linear < start + 4096 ∨
                  start + 4096 + pages * 4096 ≤ linear →
                    Untouched middle next linear := by
            -- behind the last page of all the address wraps, but nothing follows
            cases pages with
            | zero =>
                obtain rfl : middle = next := Except.ok.inj returns
                exact ⟨fun _ _ _ => by omega, fun _ _ _ => .refl _ _⟩
            | succ pages =>
                have wrapped : (start + 4096) % 2 ^ 32 = start + 4096 := by omega
                have goesOn : verifyPages ((start + 4096) % 2 ^ 32) (pages + 1)
                    middle = .ok next := returns
                rw [wrapped] at goesOn
                exact induction stillValid stillTables (by omega) (by omega)
                  goesOn
          refine ⟨?_, ?_⟩
          · intro linear above below
            by_cases here : linear < start + 4096
            · have kept := rest.2 linear (by omega) (.inl here)
              apply kept.isOpen
              unfold State.Open
              rw [entryOf_samePage (by omega : linear / 4096 = start / 4096)]
              exact isOpen
            · exact rest.1 linear (by omega) (by omega)
          · intro linear linearSmall outside
            exact (others linear linearSmall (by omega)).trans
              (rest.2 linear linearSmall (by omega))

end Loop

/-! ## The area -/

/-- `verify_area` does its work unless the sum of the size and the offset in
the page overflows.  Where it does, there must have been nothing to do. -/
theorem verifyArea_covers_iff {layout : Layout} {state next : State}
    {holds : Nat → Nat} (valid : Valid layout state holds)
    (tables : KernelTables layout state) {nr address size : Nat}
    (isSize : 0 < size) (isInt : size < 2 ^ 31)
    (fits : windowBase nr + address + size ≤ 2 ^ 32)
    (returns : verifyArea (windowBase nr) address size state = .ok next) :
    Covers state next (windowBase nr + address) size ↔
      address % 4096 + size < 2 ^ 31 ∨
        ∀ linear, windowBase nr + address ≤ linear →
          linear < windowBase nr + address + size → state.Open linear := by
  have aligned : windowBase nr % 4096 = 0 := by
    unfold windowBase
    omega
  unfold verifyArea verifiedPages at returns
  rw [show (address / 4096 * 4096 + windowBase nr) % 2 ^ 32 =
    windowBase nr + address / 4096 * 4096 by omega] at returns
  split at returns <;> rename_i small
  · refine ⟨fun _ => .inl small, fun _ => ?_⟩
    obtain ⟨isOpen, others⟩ := verifyPages_opens valid tables (by omega)
      (by omega) returns
    refine ⟨fun linear above below => isOpen linear (by omega) (by omega),
      fun linear linearSmall outside => others linear linearSmall ?_⟩
    omega
  · obtain rfl : state = next := Except.ok.inj returns
    refine ⟨fun covers => .inr covers.isOpen, fun already => ?_⟩
    exact ⟨already.resolve_left small, fun _ _ _ => .refl _ _⟩

section Example

/-- Task 2 shares the page at its first address, and a call that has it
verified goes on. -/
def sharesFirst (kernel : Kernel) : Bool :=
  (firstEntry kernel.memory 2).present &&
    !(firstEntry kernel.memory 2).writable &&
    match verifyArea (windowBase 2) 16 4 kernel.memory with
    | .ok _ => true
    | .error _ => false

/-- After a reference of task 1 to its first address. -/
theorem refer_sharesFirst :
    ∃ kernel, Secure sixteenMegabytes.layout kernel ∧
      sharesFirst kernel = true := by
  obtain ⟨called, isCalled⟩ : ∃ called, called =
      { twoTasks.setScript 1 (.unverified [.load 0] []) with
        current := some 1 } := ⟨_, rfl⟩
  have calls : kernelCalls.step twoTasks (.call 1 (.refer 0)) =
      some called := by
    rw [isCalled]
    rfl
  have secure : Secure sixteenMegabytes.layout called := by
    refine twoTasks_initial.secure.step ?_ calls
    intro _ space offset value _ isStore
    cases isStore
  have noStores (nr offset : Nat) : ¬called.Owed nr offset := by
    rintro ⟨_, other, value, isStore, _⟩
    rw [isCalled] at isStore
    change _ ∈ (if nr = 1 then _ else _ : Script).puts at isStore
    split at isStore <;> cases isStore
  have ran : (kernelCalls.step called (.proceed 2 fun _ => 0)).any
      sharesFirst = true := by
    rw [isCalled]
    decide +kernel
  obtain ⟨kernel, steps, shares⟩ := (Option.any_eq_true _ _).mp ran
  refine ⟨kernel, secure.step ?_ steps, shares⟩
  intro nr space isNr _
  refine ⟨?_, fun offset p _ _ => ⟨noStores p offset, noStores nr offset⟩⟩
  intro address size isArea
  rw [isCalled] at isNr isArea
  cases isNr
  cases isArea

theorem verifyArea_covers_shared :
    ∃ state next, verifyArea (windowBase 2) 16 4 state = .ok next ∧
      (firstEntry state 2).writable = false ∧
        Covers state next (windowBase 2 + 16) 4 := by
  obtain ⟨kernel, secure, shares⟩ := refer_sharesFirst
  unfold sharesFirst at shares
  simp only [Bool.and_eq_true, Bool.not_eq_true'] at shares
  obtain ⟨⟨_, readOnly⟩, verifies⟩ := shares
  cases returns : verifyArea (windowBase 2) 16 4 kernel.memory with
  | error fault =>
      rw [returns] at verifies
      cases verifies
  | ok next =>
      exact ⟨kernel.memory, next, returns, readOnly,
        (verifyArea_covers_iff secure.valid secure.tables (by decide)
          (by decide) (by decide) returns).mpr (.inl (by decide))⟩

/-- A size that `sys_read` lets through.  With the offset 1 in the page the sum
is negative, and the page stays shared. -/
theorem verifyArea_overflows :
    ∃ kernel, Secure sixteenMegabytes.layout kernel ∧
      verifyArea (windowBase 2) 1 (2 ^ 31 - 1) kernel.memory =
        .ok kernel.memory ∧
      ¬Covers kernel.memory kernel.memory (windowBase 2 + 1) (2 ^ 31 - 1) := by
  obtain ⟨kernel, secure, shares⟩ := refer_sharesFirst
  unfold sharesFirst at shares
  simp only [Bool.and_eq_true, Bool.not_eq_true'] at shares
  obtain ⟨⟨isPresent, readOnly⟩, _⟩ := shares
  refine ⟨kernel, secure, rfl, fun covers => ?_⟩
  have entry : kernel.memory.entryOf (windowBase 2 + 1) =
      firstEntry kernel.memory 2 := rfl
  have writable := covers.isOpen (windowBase 2 + 1) (Nat.le_refl _) (by decide)
  unfold State.Open at writable
  rw [entry, readOnly] at writable
  cases writable isPresent

end Example

end Linux011.Mm
