import Mathlib.Data.List.Range
import Mathlib.Data.List.Nodup

/-!
# Chains of nodes that end in zero

A singly linked list in a memory: each node leads to the next one, the last
to 0.  The lemmas say what a search along a chain finds, and how putting in
and taking out nodes changes it.
-/

namespace Chains

/-- From `start` on, `next` leads through `nodes` to 0. -/
def Chain (next : Nat → Nat) : Nat → List Nat → Prop
  | start, [] => start = 0
  | start, node :: rest => start = node ∧ node ≠ 0 ∧ Chain next (next node) rest

variable {next later : Nat → Nat} {start : Nat} {nodes : List Nat}

namespace Chain

@[simp] theorem nil_iff : Chain next start [] ↔ start = 0 := Iff.rfl

@[simp] theorem cons_iff {node : Nat} {rest : List Nat} :
    Chain next start (node :: rest) ↔
      start = node ∧ node ≠ 0 ∧ Chain next (next node) rest := Iff.rfl

theorem congr (chain : Chain next start nodes)
    (same : ∀ node ∈ nodes, later node = next node) :
    Chain later start nodes := by
  induction nodes generalizing start with
  | nil => exact chain
  | cons node rest induction =>
      obtain ⟨isStart, notZero, tail⟩ := chain
      have kept := induction tail fun other member =>
        same other (List.mem_cons_of_mem node member)
      rw [← same node List.mem_cons_self] at kept
      exact ⟨isStart, notZero, kept⟩

theorem notZero (chain : Chain next start nodes) : 0 ∉ nodes := by
  induction nodes generalizing start with
  | nil => simp
  | cons node rest induction =>
      obtain ⟨_, notZero, tail⟩ := chain
      simp [notZero.symm, induction tail]

/-- The part behind a node, and what leads to the node. -/
theorem split {before after : List Nat} {node : Nat}
    (chain : Chain next start (before ++ node :: after)) :
    node ≠ 0 ∧ Chain next (next node) after ∧
      (before = [] → start = node) ∧
      ∀ front prev, before = front ++ [prev] → next prev = node := by
  induction before generalizing start with
  | nil =>
      obtain ⟨isStart, notZero, tail⟩ := chain
      refine ⟨notZero, tail, fun _ => isStart, ?_⟩
      intro front prev isBefore
      simp at isBefore
  | cons first before induction =>
      obtain ⟨_, _, tail⟩ := chain
      obtain ⟨notZero, behind, isStart, isPrev⟩ := induction tail
      refine ⟨notZero, behind, nofun, ?_⟩
      intro front prev isBefore
      cases front with
      | nil =>
          obtain ⟨rfl, isEmpty⟩ := List.cons.inj isBefore
          exact isStart isEmpty
      | cons other front =>
          rw [List.cons_append] at isBefore
          exact isPrev front prev (List.cons.inj isBefore).2

/-- A node is taken out behind another one. -/
theorem unlink {front after : List Nat} {prev node : Nat}
    (chain : Chain next start (front ++ prev :: node :: after))
    (linked : later prev = next node)
    (same : ∀ other ∈ front ++ after, later other = next other) :
    Chain later start (front ++ prev :: after) := by
  induction front generalizing start with
  | nil =>
      obtain ⟨isStart, notZero, isNext, _, tail⟩ := chain
      refine ⟨isStart, notZero, ?_⟩
      rw [linked]
      exact tail.congr same
  | cons first front induction =>
      obtain ⟨isStart, notZero, tail⟩ := chain
      have rest := induction tail fun other member =>
        same other (List.mem_cons_of_mem first member)
      rw [← same first List.mem_cons_self] at rest
      exact ⟨isStart, notZero, rest⟩

/-- Equidistant nodes, the last of which leads on. -/
theorem progression {step count : Nat} {rest : List Nat}
    (positive : start ≠ 0)
    (linked : ∀ index, index < count →
      next (start + index * step) = start + (index + 1) * step)
    (tail : Chain next (next (start + count * step)) rest) :
    Chain next start
      ((List.range (count + 1)).map (fun index => start + index * step) ++
        rest) := by
  induction count generalizing start with
  | zero =>
      rw [Nat.zero_mul, Nat.add_zero] at tail
      simpa [List.range_succ] using ⟨positive, tail⟩
  | succ count induction =>
      have first := linked 0 (Nat.succ_pos count)
      rw [Nat.zero_mul, Nat.add_zero, Nat.zero_add, Nat.one_mul] at first
      have shifted (index : Nat) :
          start + step + index * step = start + (index + 1) * step := by
        rw [Nat.add_mul, Nat.one_mul]
        omega
      have behind := @induction (start + step) (by omega)
        (by
          intro index below
          rw [shifted, shifted]
          exact linked (index + 1) (by omega))
        (by
          rw [shifted]
          exact tail)
      rw [List.range_succ_eq_map, List.map_cons, List.map_map,
        List.cons_append, cons_iff, Nat.zero_mul, Nat.add_zero, first]
      refine ⟨rfl, positive, ?_⟩
      have sameNodes : (fun index => start + index * step) ∘ Nat.succ =
          fun index => start + step + index * step := by
        funext index
        exact (shifted index).symm
      rw [sameNodes]
      exact behind

end Chain

/-- The first node from `node` on that passes the test, or 0, with the node
before it. -/
def walk (next : Nat → Nat) (test : Nat → Bool) :
    Nat → Nat → Nat → Option (Nat × Nat)
  | 0, _, _ => none
  | fuel + 1, prev, node =>
      if node = 0 then some (prev, 0)
      else if test node then some (prev, node)
      else walk next test fuel node (next node)

/-- Where a search along a chain ends. -/
inductive Found (test : Nat → Bool) (prev : Nat) (nodes : List Nat) :
    Nat × Nat → Prop where
  | none (last : Nat) (fails : ∀ node ∈ nodes, test node = false) :
      Found test prev nodes (last, 0)
  | some (before : List Nat) (node : Nat) (after : List Nat)
      (isNodes : nodes = before ++ node :: after)
      (fails : ∀ other ∈ before, test other = false)
      (passes : test node = true) :
      Found test prev nodes (before.getLastD prev, node)

/-- A search with enough fuel for the chain ends. -/
theorem walk_found {test : Nat → Bool} {fuel prev : Nat}
    (chain : Chain next start nodes) (enough : nodes.length < fuel) :
    ∃ found, walk next test fuel prev start = some found ∧
      Found test prev nodes found := by
  induction nodes generalizing start fuel prev with
  | nil =>
      cases fuel with
      | zero => exact (Nat.not_lt_zero _ enough).elim
      | succ fuel =>
          refine ⟨(prev, 0), ?_, .none prev (by simp)⟩
          rw [Chain.nil_iff] at chain
          simp [walk, chain]
  | cons node rest induction =>
      cases fuel with
      | zero => exact (Nat.not_lt_zero _ enough).elim
      | succ fuel =>
          obtain ⟨rfl, notZero, tail⟩ := chain
          by_cases passes : test start = true
          · refine ⟨(prev, start), by simp [walk, notZero, passes], ?_⟩
            exact .some [] start rest rfl (by simp) passes
          · have fails : test start = false := by simpa using passes
            obtain ⟨found, walks, isFound⟩ :=
              @induction (next start) fuel start tail (by simpa using enough)
            refine ⟨found, by simpa [walk, notZero, fails] using walks, ?_⟩
            cases isFound with
            | none last failed =>
                exact .none last (by simpa [fails] using failed)
            | some before node after isNodes failed passed =>
                have last : before.getLastD start =
                    (start :: before).getLastD prev := by
                  cases before <;> rfl
                rw [last]
                refine .some (start :: before) node after (by simp [isNodes])
                  ?_ passed
                simpa [fails] using failed

/-- Store in every one of `count` nodes, `step` apart, the address of the
next. -/
def thread (offset step : Nat) : Nat → Nat → (Nat → Nat) → Nat → Nat
  | 0, _, memory => memory
  | count + 1, node, memory =>
      thread offset step count (node + step) fun address =>
        if address = node + offset then node + step else memory address

section Thread

variable {offset step count node : Nat} {memory : Nat → Nat}

theorem thread_other {address : Nat}
    (outside : ∀ index, index < count →
      address ≠ node + index * step + offset) :
    thread offset step count node memory address = memory address := by
  induction count generalizing node memory with
  | zero => rfl
  | succ count induction =>
      have first := outside 0 (Nat.succ_pos count)
      rw [Nat.zero_mul, Nat.add_zero] at first
      have behind := @induction (node + step)
        (fun address =>
          if address = node + offset then node + step else memory address)
        (by
          intro index below
          have later := outside (index + 1) (by omega)
          rw [Nat.add_mul, Nat.one_mul] at later
          omega)
      rw [thread, behind]
      exact if_neg first

theorem thread_link (positive : 0 < step) {index : Nat}
    (below : index < count) :
    thread offset step count node memory (node + index * step + offset) =
      node + (index + 1) * step := by
  induction count generalizing node memory index with
  | zero => exact (Nat.not_lt_zero index below).elim
  | succ count induction =>
      cases index with
      | zero =>
          have unchanged := @thread_other offset step count (node + step)
            (fun address =>
              if address = node + offset then node + step else memory address)
            (node + offset) (by omega)
          simp only [Nat.zero_mul, Nat.add_zero, Nat.zero_add, Nat.one_mul,
            thread]
          rw [unchanged, if_pos rfl]
      | succ index =>
          have behind := @induction (node + step)
            (fun address =>
              if address = node + offset then node + step else memory address)
            index (by omega)
          have place : node + (index + 1) * step =
              node + step + index * step := by
            rw [Nat.add_mul, Nat.one_mul]
            omega
          have following : node + (index + 1 + 1) * step =
              node + step + (index + 1) * step := by
            rw [Nat.add_mul (index + 1) 1, Nat.one_mul]
            omega
          rw [place, following]
          exact behind

end Thread

end Chains
