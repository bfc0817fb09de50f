import Mathlib.Data.List.Chain
import Mathlib.Data.List.Nodup

/-!
# Doubly linked lists

Linked lists whose links are two partial functions on the nodes.  A list is
either open, with a head pointer and empty links at both ends, or a ring that
closes on itself.  The lemmas say what taking a node out and putting a node in
do to the list, as the pointer assignments of such code perform them.
-/

namespace Links

variable {ι : Type*}

/-- Two nodes that follow each other, by both links. -/
def Adjacent (next prev : ι → Option ι) (first second : ι) : Prop :=
  next first = some second ∧ prev second = some first

/-- The forward links once `node` has been bypassed. -/
def bypassNext [DecidableEq ι] (next prev : ι → Option ι) (node : ι) :
    ι → Option ι :=
  fun other => if prev node = some other then next node else next other

def bypassPrev [DecidableEq ι] (next prev : ι → Option ι) (node : ι) :
    ι → Option ι :=
  fun other => if next node = some other then prev node else prev other

variable {next prev : ι → Option ι}

/-- Bypassing a node keeps the other neighbours. -/
theorem Adjacent.bypass [DecidableEq ι] {node first second : ι}
    (adjacent : Adjacent next prev first second) (notFirst : first ≠ node)
    (notSecond : second ≠ node)
    (before : ∀ other, prev node = some other → next other = some node)
    (after : ∀ other, next node = some other → prev other = some node) :
    Adjacent (bypassNext next prev node) (bypassPrev next prev node)
      first second := by
  obtain ⟨forward, backward⟩ := adjacent
  constructor
  · unfold bypassNext
    rw [if_neg]
    · exact forward
    · intro isBefore
      rw [before first isBefore, Option.some.injEq] at forward
      exact notSecond forward.symm
  · unfold bypassPrev
    rw [if_neg]
    · exact backward
    · intro isAfter
      rw [after second isAfter, Option.some.injEq] at backward
      exact notFirst backward.symm

/-! ## Open lists -/

/-- The nodes reached from `head`, in order. -/
structure Listed (next prev : ι → Option ι) (head : Option ι)
    (nodes : List ι) : Prop where
  head : head = nodes.head?
  nodup : nodes.Nodup
  chain : nodes.IsChain (Adjacent next prev)
  first : ∀ node ∈ nodes.head?, prev node = none
  last : ∀ node ∈ nodes.getLast?, next node = none

namespace Listed

variable {head : Option ι} {nodes : List ι}

theorem congr {otherNext otherPrev : ι → Option ι}
    (listed : Listed next prev head nodes)
    (same : ∀ node ∈ nodes, otherNext node = next node ∧
      otherPrev node = prev node) :
    Listed otherNext otherPrev head nodes where
  head := listed.head
  nodup := listed.nodup
  chain := by
    refine listed.chain.imp_of_mem_imp ?_
    intro first second inFirst inSecond adjacent
    exact ⟨(same first inFirst).1.trans adjacent.1,
      (same second inSecond).2.trans adjacent.2⟩
  first := by
    intro node isFirst
    rw [(same node (List.mem_of_mem_head? isFirst)).2]
    exact listed.first node isFirst
  last := by
    intro node isLast
    rw [(same node (List.mem_of_mem_getLast? isLast)).1]
    exact listed.last node isLast

/-- The links of a node in the list lead to nodes of the list. -/
theorem neighbours {node : ι} {before after : List ι}
    (listed : Listed next prev head (before ++ node :: after)) :
    prev node = before.getLast? ∧ next node = after.head? := by
  have chain := List.isChain_append.mp listed.chain
  constructor
  · cases last : before.getLast? with
    | none =>
        have empty : before = [] := List.getLast?_eq_none_iff.mp last
        subst empty
        exact listed.first node rfl
    | some other =>
        exact (chain.2.2 other last node rfl).2
  · cases first : after.head? with
    | none =>
        have empty : after = [] := List.head?_eq_none_iff.mp first
        subst empty
        exact listed.last node (by simp)
    | some other =>
        exact ((List.isChain_cons.mp chain.2.1).1 other first).1

/-- Taking a node out of its list. -/
theorem remove [DecidableEq ι] {node : ι} {before after : List ι}
    (listed : Listed next prev head (before ++ node :: after)) :
    Listed (bypassNext next prev node) (bypassPrev next prev node)
      (if head = some node then next node else head) (before ++ after) := by
  obtain ⟨toPrev, toNext⟩ := listed.neighbours
  obtain ⟨chainBefore, chainRest, linkBefore⟩ :=
    List.isChain_append.mp listed.chain
  obtain ⟨linkAfter, chainAfter⟩ := List.isChain_cons.mp chainRest
  have nodup := listed.nodup
  rw [List.perm_middle.nodup_iff, List.nodup_cons] at nodup
  have notIn {other : ι} (member : other ∈ before ++ after) :
      other ≠ node := by
    rintro rfl
    exact nodup.1 member
  have backs (other : ι) (isBefore : prev node = some other) :
      next other = some node :=
    (linkBefore other (toPrev ▸ isBefore) node rfl).1
  have fronts (other : ι) (isAfter : next node = some other) :
      prev other = some node :=
    (linkAfter other (toNext ▸ isAfter)).2
  have keep {first second : ι} (inFirst : first ∈ before ++ after)
      (inSecond : second ∈ before ++ after)
      (adjacent : Adjacent next prev first second) :=
    adjacent.bypass (notIn inFirst) (notIn inSecond) backs fronts
  refine ⟨?_, nodup.2, ?_, ?_, ?_⟩
  · rw [listed.head, toNext]
    cases before with
    | nil => simp
    | cons first rest =>
        have different : first ≠ node := notIn (by simp)
        simp [different]
  · rw [List.isChain_append]
    refine ⟨?_, ?_, ?_⟩
    · refine chainBefore.imp_of_mem_imp ?_
      intro first second inFirst inSecond
      exact keep (by simp [inFirst]) (by simp [inSecond])
    · refine chainAfter.imp_of_mem_imp ?_
      intro first second inFirst inSecond
      exact keep (by simp [inFirst]) (by simp [inSecond])
    · intro first isLast second isFirst
      constructor
      · unfold bypassNext
        rw [if_pos (toPrev.trans isLast), toNext]
        exact isFirst
      · unfold bypassPrev
        rw [if_pos (toNext.trans isFirst), toPrev]
        exact isLast
  · intro first isFirst
    unfold bypassPrev
    cases before with
    | nil =>
        rw [if_pos (toNext.trans isFirst), toPrev]
        rfl
    | cons start rest =>
        have same : start = first := by simpa using isFirst
        subst same
        have start_none := listed.first start rfl
        split <;> rename_i isAfter
        · rw [fronts start isAfter] at start_none
          cases start_none
        · exact start_none
  · intro last isLast
    unfold bypassNext
    cases after with
    | nil =>
        rw [List.append_nil] at isLast
        rw [if_pos (toPrev.trans isLast), toNext]
        rfl
    | cons start rest =>
        have atEnd : last ∈ (before ++ node :: start :: rest).getLast? := by
          simpa using isLast
        have last_none := listed.last last atEnd
        split <;> rename_i isBefore
        · rw [backs last isBefore] at last_none
          cases last_none
        · exact last_none

/-- Putting a node in front of the list. -/
theorem push {node : ι} {newNext newPrev : ι → Option ι}
    (listed : Listed next prev head nodes) (fresh : node ∉ nodes)
    (ownNext : newNext node = head) (ownPrev : newPrev node = none)
    (headPrev : ∀ other, head = some other → newPrev other = some node)
    (othersNext : ∀ other ∈ nodes, newNext other = next other)
    (othersPrev : ∀ other ∈ nodes, head ≠ some other →
      newPrev other = prev other) :
    Listed newNext newPrev (some node) (node :: nodes) where
  head := rfl
  nodup := List.nodup_cons.mpr ⟨fresh, listed.nodup⟩
  chain := by
    rw [List.isChain_cons]
    constructor
    · intro other isFirst
      have isHead : head = some other := listed.head.trans isFirst
      exact ⟨ownNext.trans isHead, headPrev other isHead⟩
    · refine listed.chain.imp_of_mem_tail_imp ?_
      intro first second inFirst inSecond adjacent
      refine ⟨(othersNext first inFirst).trans adjacent.1, ?_⟩
      rw [othersPrev second (List.mem_of_mem_tail inSecond)]
      · exact adjacent.2
      · intro isHead
        rw [listed.head] at isHead
        cases nodes with
        | nil => simp at isHead
        | cons start rest =>
            have same : start = second := by simpa using isHead
            subst same
            exact (List.nodup_cons.mp listed.nodup).1 inSecond
  first := by
    intro other isFirst
    have same : node = other := by simpa using isFirst
    rw [← same]
    exact ownPrev
  last := by
    intro other isLast
    cases nodes with
    | nil =>
        have same : node = other := by simpa using isLast
        rw [← same, ownNext, listed.head]
        rfl
    | cons start rest =>
        have atEnd : other ∈ (start :: rest).getLast? := by
          simpa using isLast
        rw [othersNext other (List.mem_of_mem_getLast? atEnd)]
        exact listed.last other atEnd

end Listed

/-! ## Rings -/

/-- The nodes of a ring, in order from `head`. -/
structure Ring (next prev : ι → Option ι) (head : ι) (nodes : List ι) :
    Prop where
  head : nodes.head? = some head
  nodup : nodes.Nodup
  chain : nodes.IsChain (Adjacent next prev)
  closed : ∀ last ∈ nodes.getLast?, ∀ first ∈ nodes.head?,
    Adjacent next prev last first

namespace Ring

variable {head : ι} {nodes : List ι}

/-- A ring can be entered at any of its nodes. -/
theorem rotate {before after : List ι} {node : ι}
    (ring : Ring next prev head (before ++ node :: after)) :
    Ring next prev node (node :: after ++ before) := by
  obtain ⟨chainBefore, chainAfter, link⟩ := List.isChain_append.mp ring.chain
  refine ⟨rfl, ?_, ?_, ?_⟩
  · exact List.perm_append_comm.nodup_iff.mp ring.nodup
  · rw [List.isChain_append]
    refine ⟨chainAfter, chainBefore, ?_⟩
    intro last isLast first isFirst
    apply ring.closed
    · rw [List.getLast?_append, isLast]
      rfl
    · rw [List.head?_append, isFirst]
      rfl
  · intro last isLast first isFirst
    cases before with
    | nil =>
        apply ring.closed
        · simpa using isLast
        · simpa using isFirst
    | cons start rest =>
        apply link
        · rw [List.getLast?_append] at isLast
          cases ending : (start :: rest).getLast? with
          | none => simp at ending
          | some final =>
              rw [ending] at isLast
              exact isLast
        · simpa using isFirst

/-- Every node of a ring has a successor in it. -/
theorem next_mem (ring : Ring next prev head nodes) {node : ι}
    (member : node ∈ nodes) :
    ∃ after ∈ nodes, Adjacent next prev node after := by
  obtain ⟨before, after, rfl⟩ := List.append_of_mem member
  have turned := ring.rotate
  obtain ⟨linkAfter, _⟩ := List.isChain_cons.mp turned.chain
  cases rest : after ++ before with
  | nil =>
      obtain ⟨rfl, rfl⟩ := List.append_eq_nil_iff.mp rest
      exact ⟨node, by simp, turned.closed node (by simp) node (by simp)⟩
  | cons following tail =>
      have inRest : following ∈ after ++ before := by simp [rest]
      refine ⟨following, ?_, ?_⟩
      · simp only [List.mem_append, List.mem_cons] at inRest ⊢
        rcases inRest with inAfter | inBefore
        · exact .inr (.inr inAfter)
        · exact .inl inBefore
      · apply linkAfter
        show following ∈ (after ++ before).head?
        rw [rest]
        rfl

/-- And a predecessor. -/
theorem prev_mem (ring : Ring next prev head nodes) {node : ι}
    (member : node ∈ nodes) :
    ∃ before ∈ nodes, Adjacent next prev before node := by
  obtain ⟨before, after, rfl⟩ := List.append_of_mem member
  have turned := ring.rotate
  obtain ⟨last, isLast⟩ : ∃ last,
      (node :: after ++ before).getLast? = some last := by
    rw [List.cons_append]
    exact ⟨_, List.getLast?_cons⟩
  refine ⟨last, ?_, turned.closed last isLast node rfl⟩
  have isIn := List.mem_of_mem_getLast? isLast
  rw [List.cons_append, List.mem_cons, List.mem_append] at isIn
  simp only [List.mem_append, List.mem_cons]
  tauto

/-- Taking out the last node. -/
theorem removeLast [DecidableEq ι] {node : ι}
    (ring : Ring next prev head (nodes ++ [node]))
    (start : nodes.head? = some head) :
    Ring (bypassNext next prev node) (bypassPrev next prev node) head
      nodes := by
  obtain ⟨chain, _, link⟩ := List.isChain_append.mp ring.chain
  have nodup := ring.nodup
  rw [List.nodup_append] at nodup
  have notIn {other : ι} (member : other ∈ nodes) : other ≠ node :=
    nodup.2.2 other member node (by simp)
  have toHead : Adjacent next prev node head := by
    apply ring.closed
    · simp
    · rw [List.head?_append, start]
      rfl
  obtain ⟨last, isLast⟩ : ∃ last, nodes.getLast? = some last := by
    cases nodes with
    | nil => simp at start
    | cons first rest => exact ⟨_, List.getLast?_cons⟩
  have fromLast : Adjacent next prev last node :=
    link last isLast node rfl
  have keep {first second : ι} (inFirst : first ∈ nodes)
      (inSecond : second ∈ nodes)
      (adjacent : Adjacent next prev first second) :
      Adjacent (bypassNext next prev node) (bypassPrev next prev node)
        first second := by
    apply adjacent.bypass (notIn inFirst) (notIn inSecond)
    · intro other isBefore
      rw [fromLast.2, Option.some.injEq] at isBefore
      rw [← isBefore]
      exact fromLast.1
    · intro other isAfter
      rw [toHead.1, Option.some.injEq] at isAfter
      rw [← isAfter]
      exact toHead.2
  refine ⟨start, nodup.1, ?_, ?_⟩
  · refine chain.imp_of_mem_imp ?_
    intro first second inFirst inSecond
    exact keep inFirst inSecond
  · intro other otherLast first isFirst
    have sameLast : last = other := by
      rw [isLast] at otherLast
      simpa using otherLast
    have sameHead : head = first := by
      rw [start] at isFirst
      simpa using isFirst
    subst sameLast sameHead
    constructor
    · unfold bypassNext
      rw [if_pos fromLast.2]
      exact toHead.1
    · unfold bypassPrev
      rw [if_pos toHead.1]
      exact fromLast.2

/-- Putting a node in at the end, before the head. -/
theorem insertLast {node last : ι} {newNext newPrev : ι → Option ι}
    (ring : Ring next prev head nodes) (fresh : node ∉ nodes)
    (isLast : prev head = some last)
    (ownNext : newNext node = some head) (ownPrev : newPrev node = some last)
    (lastNext : newNext last = some node)
    (headPrev : newPrev head = some node)
    (othersNext : ∀ other ∈ nodes, other ≠ last →
      newNext other = next other)
    (othersPrev : ∀ other ∈ nodes, other ≠ head →
      newPrev other = prev other) :
    Ring newNext newPrev head (nodes ++ [node]) := by
  have endsIn : nodes.getLast? = some last := by
    cases ending : nodes.getLast? with
    | none =>
        have empty := List.getLast?_eq_none_iff.mp ending
        have start := ring.head
        simp [empty] at start
    | some other =>
        have link := ring.closed other ending head ring.head
        rw [link.2] at isLast
        exact isLast
  have start := ring.head
  refine ⟨by rw [List.head?_append, start]; rfl, ?_, ?_, ?_⟩
  · rw [List.nodup_append]
    refine ⟨ring.nodup, by simp, ?_⟩
    intro other member inserted isInserted
    have same : inserted = node := by simpa using isInserted
    rw [same]
    rintro rfl
    exact fresh member
  · rw [List.isChain_append]
    refine ⟨?_, List.isChain_singleton node, ?_⟩
    · refine ring.chain.imp_of_mem_tail_imp ?_
      intro first second inFirst inSecond adjacent
      have notHead : second ≠ head := by
        rintro rfl
        cases nodes with
        | nil => simp at start
        | cons front rest =>
            have same : front = second := by simpa using start
            subst same
            exact (List.nodup_cons.mp ring.nodup).1 inSecond
      have notLast : first ≠ last := by
        rintro rfl
        have link := (ring.closed first endsIn head start).1
        rw [adjacent.1, Option.some.injEq] at link
        exact notHead link
      exact ⟨(othersNext first inFirst notLast).trans adjacent.1,
        (othersPrev second (List.mem_of_mem_tail inSecond) notHead).trans
          adjacent.2⟩
    · intro other otherLast inserted isInserted
      have sameLast : last = other := by
        rw [endsIn] at otherLast
        simpa using otherLast
      have sameNode : node = inserted := by simpa using isInserted
      rw [← sameLast, ← sameNode]
      exact ⟨lastNext, ownPrev⟩
  · intro other otherLast first isFirst
    have sameNode : node = other := by simpa using otherLast
    have sameHead : head = first := by
      rw [List.head?_append, start] at isFirst
      simpa using isFirst
    rw [← sameNode, ← sameHead]
    exact ⟨ownNext, headPrev⟩

/-- A ring keeps its shape where its nodes are placed elsewhere. -/
theorem map {κ : Type*} {nextPlaced prevPlaced : κ → Option κ}
    (ring : Ring next prev head nodes) (place : ι → κ)
    (injective : Function.Injective place)
    (forward : ∀ node ∈ nodes, nextPlaced (place node) =
      (next node).map place)
    (backward : ∀ node ∈ nodes, prevPlaced (place node) =
      (prev node).map place) :
    Ring nextPlaced prevPlaced (place head) (nodes.map place) where
  head := by
    rw [List.head?_map, ring.head]
    rfl
  nodup := List.Nodup.map injective ring.nodup
  chain := by
    rw [List.isChain_map]
    refine ring.chain.imp_of_mem_imp ?_
    intro first second inFirst inSecond adjacent
    constructor
    · rw [forward first inFirst, adjacent.1]
      rfl
    · rw [backward second inSecond, adjacent.2]
      rfl
  closed := by
    intro last isLast first isFirst
    rw [List.getLast?_map, Option.mem_def, Option.map_eq_some_iff] at isLast
    rw [List.head?_map, Option.mem_def, Option.map_eq_some_iff] at isFirst
    obtain ⟨last, isLast, rfl⟩ := isLast
    obtain ⟨first, isFirst, rfl⟩ := isFirst
    have adjacent := ring.closed last isLast first isFirst
    constructor
    · rw [forward last (List.mem_of_mem_getLast? isLast), adjacent.1]
      rfl
    · rw [backward first (List.mem_of_mem_head? isFirst), adjacent.2]
      rfl

end Ring

end Links
