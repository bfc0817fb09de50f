import Linux011.Fs.DirectoryNames

/-!
# Searching a directory

What `find_entry` has passed, and where it leads.
-/

namespace Linux011.Fs

section Search

variable {users : Users} {task : Nat} {next : Tree}

/-- The name the call is to add is not in these slots. -/
def Tree.Passed (tree : Tree) (call : Call) (slots : Nat → Prop) : Prop :=
  call.creates → call.wanted ≠ dotDotName →
    (tree.dirs call.dir).zone 0 ≠ 0 →
      ∀ slot, slots slot → ¬tree.Named call.dir slot call.wanted

/-- The search of the call is over. -/
abbrev Tree.Searched (tree : Tree) (call : Call) : Prop :=
  tree.Passed call fun _ => True

theorem Tree.Passed.unmissed {tree : Tree} {call : Call}
    {slots : Nat → Prop} {phase : Phase} (passed : tree.Passed call slots)
    (misses : ∀ dir name slot,
      phase.misses dir name slot (tree.zoneOf dir slot) →
        call.Adds dir name ∧ slots slot) : tree.Unmissed phase := by
  intro dir slot name notDotDot hasFirst missed named
  obtain ⟨⟨creates, rfl, rfl⟩, isSlot⟩ := misses dir name slot missed
  exact passed creates notDotDot hasFirst slot isSlot named

theorem addStarts_leads (sound : users.Sound)
    (leaves : Leaves users task next) {call : Call} {number : Nat}
    (creating : next.Creating call) (searched : next.Searched call)
    (making : call.kind = .mkdir → next.Making number)
    (alone : call.kind = .mkdir → ∀ other, other ≠ task →
      (users.tasks other).builds ≠ some number) :
    Leads users task (next.addStarts call number) := by
  unfold Tree.addStarts
  dsimp only
  split <;> rename_i isBlock
  · exact addFails_leads leaves call
  · apply leads_some
    refine ⟨leaves, ⟨⟨creating, making, isBlock, by simp⟩,
      leaves.shape.inBlock isBlock, .inl rfl⟩, ?_, ?_⟩
    · exact searched.unmissed fun _ _ _ adds => ⟨adds, trivial⟩
    · intro other isOther
      refine apart_zone rfl rfl ?_ (leaves.unfilled sound isOther)
      intro own isOwn
      by_cases isMkdir : call.kind = .mkdir
      · have same : some number = some own := (if_pos isMkdir).symm.trans isOwn
        cases same
        exact alone isMkdir other isOther
      · have none := (if_neg isMkdir).symm.trans isOwn
        cases none

/-! ## `find_entry` -/

theorem searchFails_leads (sound : users.Sound) {call : Call}
    (working : users.tree.Working call)
    (searched : users.tree.Searched call) :
    Leads users task (users.tree.searchFails call) := by
  unfold Tree.searchFails
  have stays := sound.stays task
  split <;> rename_i kind
  · exact leads_some (idle_may stays)
  · have notMkdir : call.kind ≠ .mkdir := by simp [kind]
    exact addStarts_leads sound stays
      ⟨working, by simp [Call.creates, kind]⟩ searched
      (fun isMkdir => (notMkdir isMkdir).elim)
      fun isMkdir => (notMkdir isMkdir).elim
  · rename_i notUnlink
    apply leads_some
    refine ⟨stays, ⟨working, notUnlink⟩, ?_,
      fun _ _ => apart_plain rfl rfl rfl _⟩
    exact searched.unmissed fun _ _ _ adds => ⟨adds, trivial⟩

/-- The slots before a block and those behind the end that was noted. -/
def beyond (entries block : Nat) (slot : Nat) : Prop :=
  slot < block * dirEntriesPerBlock ∨ entries ≤ slot

theorem searchOn_leads (sound : users.Sound) {call : Call}
    {wanted : List UInt8} {entries block : Nat}
    (working : users.tree.Working call)
    (looksFor : wanted = call.wanted ∨ call.wanted = dotDotName)
    (passed : users.tree.Passed call (beyond entries (block + 1))) :
    Leads users task (users.tree.searchOn call wanted entries block) := by
  unfold Tree.searchOn
  split <;> rename_i goesOn
  · apply leads_some
    refine ⟨sound.stays task, ⟨working, looksFor⟩, ?_,
      fun _ _ => apart_plain rfl rfl rfl _⟩
    exact passed.unmissed fun _ _ _ misses => misses
  · apply searchFails_leads sound working
    intro creates notDotDot hasFirst slot _
    apply passed creates notDotDot hasFirst
    unfold beyond
    omega

/-- What the search leaves out, if it goes on without a block. -/
def leftOut (block slot : Nat) : Prop :=
  block = 0 ∨ slot / dirEntriesPerBlock = block

theorem skip_leads (sound : users.Sound) {call : Call}
    {wanted : List UInt8} {entries block : Nat}
    (working : users.tree.Working call)
    (looksFor : wanted = call.wanted ∨ call.wanted = dotDotName)
    (passed : users.tree.Passed call fun slot =>
      beyond entries block slot ∨ leftOut block slot) :
    Leads users task (users.tree.skip call wanted entries block) := by
  unfold Tree.skip
  split <;> rename_i isFirst
  · apply searchFails_leads sound working
    intro creates notDotDot hasFirst slot _
    exact passed creates notDotDot hasFirst slot (.inr (.inl isFirst))
  · apply searchOn_leads sound working looksFor
    intro creates notDotDot hasFirst slot isSlot
    apply passed creates notDotDot hasFirst
    unfold leftOut beyond dirEntriesPerBlock at *
    omega

theorem seek_leads (sound : users.Sound) {call : Call}
    {wanted : List UInt8} {entries block : Nat}
    (working : users.tree.Working call)
    (looksFor : wanted = call.wanted ∨ call.wanted = dotDotName)
    (passed : users.tree.Passed call (beyond entries block)) :
    Leads users task (users.tree.seek call wanted entries block) := by
  unfold Tree.seek
  dsimp only
  split <;> rename_i isBlock
  · apply skip_leads sound working looksFor
    rintro creates notDotDot hasFirst slot (isBeyond | isFirst | inBlock) named
    · exact passed creates notDotDot hasFirst slot isBeyond named
    · rw [isFirst] at isBlock
      exact hasFirst isBlock
    · exact named.isBlock (inBlock ▸ isBlock)
  · apply leads_some
    refine ⟨sound.stays task,
      ⟨working, looksFor, sound.shape.inBlock isBlock⟩, ?_, ?_⟩
    · refine passed.unmissed ?_
      rintro dir name slot ⟨⟨creates, rfl, rfl⟩, isBefore | isBehind |
        ⟨inBlock, otherZone⟩⟩
      · exact ⟨⟨creates, rfl, rfl⟩, .inl isBefore⟩
      · exact ⟨⟨creates, rfl, rfl⟩, .inr isBehind⟩
      · exact (otherZone (by rw [Tree.zoneOf, inBlock])).elim
    · intro other isOther
      refine apart_zone rfl rfl (fun _ none => by cases none) ?_
      exact (sound.stays task).unfilled sound isOther

theorem searchStarts_leads (sound : users.Sound) {call : Call}
    (working : users.tree.Working call) :
    Leads users task (users.tree.searchStarts call) := by
  unfold Tree.searchStarts
  dsimp only
  split <;> rename_i isDotDot
  · have vacuous (slots : Nat → Prop) : users.tree.Passed call slots :=
      fun _ notDotDot => (notDotDot isDotDot).elim
    split
    · exact seek_leads sound working (.inr isDotDot) (vacuous _)
    · split
      · rename_i covered isMount
        apply leads_some
        exact ⟨sound.stays task,
          ⟨working.proper, sound.shape.covers _ _ isMount, isDotDot⟩,
          fun _ _ _ _ _ misses => misses.elim,
          fun _ _ => apart_plain rfl rfl rfl _⟩
      · exact seek_leads sound working (.inl rfl) (vacuous _)
  · apply seek_leads sound working (.inl rfl)
    intro _ _ _ slot isBeyond named
    have inSize := named.inSize
    unfold beyond at isBeyond
    omega

theorem firstMatch_none {tree : Tree} {wanted : List UInt8}
    {entries block zone : Nat} (proper : ProperName wanted)
    (missing : tree.firstMatch wanted entries block zone = none) {slot : Nat}
    (inBlock : slot / dirEntriesPerBlock = block) (inEntries : slot < entries) :
    ¬((tree.data zone (slot % dirEntriesPerBlock)).inode ≠ 0 ∧
      (tree.data zone (slot % dirEntriesPerBlock)).text = wanted) := by
  intro isNamed
  have none := List.find?_eq_none.mp missing (slot % dirEntriesPerBlock)
    (List.mem_range.mpr (Nat.mod_lt _ (by decide)))
  rw [Bool.and_eq_true, decide_eq_true_eq, DirEntry.isMatch_iff proper] at none
  refine none ⟨?_, isNamed⟩
  unfold dirEntriesPerBlock at *
  omega

/-- A search reads a block. -/
theorem read_leads (sound : users.Sound) {outcome : Outcome} {call : Call}
    {wanted : List UInt8} {entries block zone : Nat}
    (isReading : users.tasks task = .reading call wanted entries block zone)
    (unread : outcome.fails = true →
      users.tree.Passed call (leftOut block)) :
    Leads users task
      (users.tree.read outcome call wanted entries block zone) := by
  have isOk := sound.phases task
  have unmissed := sound.unmissed task
  have apart := sound.apart
  rw [isReading] at isOk unmissed
  obtain ⟨working, looksFor, inBlock⟩ := isOk
  have passed : users.tree.Passed call (beyond entries block) := by
    intro creates notDotDot hasFirst slot isSlot
    exact unmissed call.dir slot call.wanted notDotDot hasFirst
      ⟨⟨creates, rfl, rfl⟩, isSlot.imp_right .inl⟩
  unfold Tree.read
  split
  · rename_i fails
    apply skip_leads sound working looksFor
    rintro creates notDotDot hasFirst slot (isBeyond | isLeft)
    · exact passed creates notDotDot hasFirst slot isBeyond
    · exact unread fails creates notDotDot hasFirst slot isLeft
  · split
    · rename_i missing
      apply searchOn_leads sound working looksFor
      intro creates notDotDot hasFirst slot isSlot named
      have looked : wanted = call.wanted :=
        looksFor.resolve_right notDotDot
      by_cases left : beyond entries block slot
      · exact passed creates notDotDot hasFirst slot left named
      · have here : slot / dirEntriesPerBlock = block ∧ slot < entries := by
          unfold beyond dirEntriesPerBlock at *
          omega
        by_cases isZone : users.tree.zoneOf call.dir slot = zone
        · have proper : ProperName wanted := looked ▸ working.proper.wanted
          apply firstMatch_none proper missing here.1 here.2
          rw [← isZone, looked]
          exact ⟨named.isLive, named.text⟩
        · exact unmissed call.dir slot call.wanted notDotDot hasFirst
            ⟨⟨creates, rfl, rfl⟩, .inr (.inr ⟨here.1, isZone⟩)⟩ named
    · split
      · apply leads_some
        refine ⟨sound.stays task, ⟨inBlock.hasZone, inBlock.allocated⟩,
          fun _ _ _ _ _ misses => misses.elim, ?_⟩
        intro other isOther
        refine apart_zone rfl rfl (fun _ none => by cases none) ?_
        intro fills
        have filled := (apart other task isOther).zone zone fills
        rw [isReading] at filled
        exact filled rfl
      · exact leads_some (idle_may (sound.stays task))

end Search

end Linux011.Fs
