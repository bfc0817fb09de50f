import Mathlib.Data.Set.Basic

/-!
# Trees that are kept in words

The words of a node name the roots of its subtrees, and the word 0 names none.
The words of a node of depth 0 are not looked at.  A walk over the words of a
node has seen the nodes of the first of its subtrees.
-/

namespace Forests

variable {α : Type} [Zero α] (word : α → Nat → α) (width : Nat)

/-- The nodes of a tree. -/
def below : Nat → α → Set α
  | 0, root => {root}
  | depth + 1, root =>
      {node | ∃ entry < width, word root entry ≠ 0 ∧
        node ∈ below depth (word root entry)} ∪ {root}

/-- The nodes of the first subtrees. -/
def firsts (depth : Nat) (root : α) (count : Nat) : Set α :=
  {node | ∃ entry < count, word root entry ≠ 0 ∧
    node ∈ below word width depth (word root entry)}

/-- No node is there twice. -/
def Proper : Nat → α → Prop
  | 0, _ => True
  | depth + 1, root =>
      ∀ entry < width, word root entry ≠ 0 →
        Proper depth (word root entry) ∧
        root ∉ below word width depth (word root entry) ∧
        ∀ other < width, word root other ≠ 0 → entry ≠ other →
          ∀ node ∈ below word width depth (word root entry),
            node ∉ below word width depth (word root other)

variable {word width} {other : α → Nat → α} {depth count : Nat} {root node : α}

theorem root_below (depth : Nat) (root : α) : root ∈ below word width depth root := by
  cases depth with
  | zero => exact rfl
  | succ depth => exact .inr rfl

theorem firsts_zero : firsts word width depth root 0 = ∅ := by
  ext node
  exact ⟨fun ⟨_, isFirst, _⟩ => absurd isFirst (Nat.not_lt_zero _), False.elim⟩

/-- No subtree more. -/
theorem firsts_none (isNone : word root count = 0) :
    firsts word width depth root (count + 1) =
      firsts word width depth root count := by
  ext node
  constructor
  · rintro ⟨entry, isFirst, isSome, isNode⟩
    have different : entry ≠ count := by
      rintro rfl
      exact isSome isNone
    exact ⟨entry, by omega, isSome, isNode⟩
  · rintro ⟨entry, isFirst, isSome, isNode⟩
    exact ⟨entry, by omega, isSome, isNode⟩

/-- One subtree more. -/
theorem firsts_some (isSome : word root count ≠ 0) :
    firsts word width depth root (count + 1) =
      firsts word width depth root count ∪
        below word width depth (word root count) := by
  ext node
  constructor
  · rintro ⟨entry, isFirst, isEntry, isNode⟩
    by_cases here : entry = count
    · exact .inr (here ▸ isNode)
    · exact .inl ⟨entry, by omega, isEntry, isNode⟩
  · rintro (⟨entry, isFirst, isEntry, isNode⟩ | isNode)
    · exact ⟨entry, by omega, isEntry, isNode⟩
    · exact ⟨count, by omega, isSome, isNode⟩

/-- A tree depends on the words of its nodes. -/
theorem below_congr
    (same : ∀ node ∈ below word width depth root, ∀ entry < width,
      other node entry = word node entry) :
    below other width depth root = below word width depth root := by
  induction depth generalizing root with
  | zero => rfl
  | succ depth induction =>
      have isRoot := same root (root_below _ root)
      ext node
      refine or_congr_left (exists_congr fun entry => ?_)
      refine and_congr_right fun isFirst => ?_
      rw [isRoot entry isFirst]
      refine and_congr_right fun isSome => ?_
      rw [induction fun node isNode =>
        same node (.inl ⟨entry, isFirst, isSome, isNode⟩)]

theorem Proper.congr (proper : Proper word width depth root)
    (same : ∀ node ∈ below word width depth root, ∀ entry < width,
      other node entry = word node entry) :
    Proper other width depth root := by
  induction depth generalizing root with
  | zero => trivial
  | succ depth induction =>
      have isRoot := same root (root_below _ root)
      have within (entry : Nat) (isFirst : entry < width)
          (isSome : word root entry ≠ 0) (node : α)
          (isNode : node ∈ below word width depth (word root entry)) :=
        same node (.inl ⟨entry, isFirst, isSome, isNode⟩)
      have subtree (entry : Nat) (isFirst : entry < width)
          (isSome : word root entry ≠ 0) :=
        below_congr (within entry isFirst isSome)
      intro entry isFirst isSome
      rw [isRoot entry isFirst] at isSome ⊢
      obtain ⟨isProper, notRoot, once⟩ := proper entry isFirst isSome
      rw [subtree entry isFirst isSome]
      refine ⟨induction isProper (within entry isFirst isSome), notRoot, ?_⟩
      intro further isWithin isFurther different
      rw [isRoot further isWithin] at isFurther ⊢
      rw [subtree further isWithin isFurther]
      exact once further isWithin isFurther different

/-- The root is in none of its subtrees. -/
theorem Proper.root_notFirst (proper : Proper word width (depth + 1) root)
    (isWithin : count ≤ width) : root ∉ firsts word width depth root count := by
  rintro ⟨entry, isFirst, isSome, isNode⟩
  exact (proper entry (by omega) isSome).2.1 isNode

/-- The nodes of a subtree are in none before it. -/
theorem Proper.notFirst (proper : Proper word width (depth + 1) root)
    (isWithin : count < width) (isSome : word root count ≠ 0)
    (isNode : node ∈ below word width depth (word root count)) :
    node ∉ firsts word width depth root count := by
  rintro ⟨entry, isFirst, isEntry, isOther⟩
  exact (proper count isWithin isSome).2.2 entry (by omega) isEntry (by omega)
    node isNode isOther

/-! ## Paths -/

section Paths

variable [DecidableEq α]

/-- Where a path leads.  From 0 one comes nowhere. -/
def reach (word : α → Nat → α) : α → List Nat → α
  | root, [] => root
  | root, entry :: path =>
      if root = 0 then 0 else reach word (word root entry) path

/-- A path within a tree. -/
structure IsPath (width depth : Nat) (path : List Nat) : Prop where
  short : path.length ≤ depth
  within : ∀ entry ∈ path, entry < width

theorem IsPath.nil (width depth : Nat) : IsPath width depth [] :=
  ⟨Nat.zero_le depth, fun _ => nofun⟩

theorem isPath_cons {path : List Nat} {entry : Nat} :
    IsPath width (depth + 1) (entry :: path) ↔
      entry < width ∧ IsPath width depth path := by
  constructor
  · rintro ⟨short, within⟩
    exact ⟨within entry List.mem_cons_self, Nat.le_of_succ_le_succ short,
      fun other isOther => within other (List.mem_cons_of_mem entry isOther)⟩
  · rintro ⟨isFirst, short, within⟩
    exact ⟨Nat.succ_le_succ short, List.forall_mem_cons.mpr ⟨isFirst, within⟩⟩

theorem reach_zero (path : List Nat) : reach word 0 path = 0 := by
  cases path with
  | nil => rfl
  | cons entry path => exact if_pos rfl

theorem reach_cons (isSome : root ≠ 0) (entry : Nat) (path : List Nat) :
    reach word root (entry :: path) = reach word (word root entry) path :=
  if_neg isSome

/-- The nodes of a tree are where its paths lead. -/
theorem mem_below (isSome : root ≠ 0) : node ∈ below word width depth root ↔
    node ≠ 0 ∧ ∃ path, IsPath width depth path ∧ reach word root path = node := by
  induction depth generalizing root with
  | zero =>
      constructor
      · rintro rfl
        exact ⟨isSome, [], .nil width 0, rfl⟩
      · rintro ⟨_, path, isPath, rfl⟩
        rw [List.length_eq_zero_iff.mp (Nat.le_zero.mp isPath.short)]
        exact rfl
  | succ depth induction =>
      constructor
      · rintro (⟨entry, isFirst, isEntry, isNode⟩ | rfl)
        · obtain ⟨notZero, path, isPath, leads⟩ := (induction isEntry).mp isNode
          exact ⟨notZero, entry :: path, isPath_cons.mpr ⟨isFirst, isPath⟩,
            (reach_cons isSome entry path).trans leads⟩
        · exact ⟨isSome, [], .nil width _, rfl⟩
      · rintro ⟨notZero, _ | ⟨entry, path⟩, isPath, leads⟩
        · exact .inr leads.symm
        · obtain ⟨isFirst, isPath⟩ := isPath_cons.mp isPath
          rw [reach_cons isSome] at leads
          have isEntry : word root entry ≠ 0 := by
            intro isNone
            rw [isNone, reach_zero] at leads
            exact notZero leads.symm
          exact .inl ⟨entry, isFirst, isEntry,
            (induction isEntry).mpr ⟨notZero, path, isPath, leads⟩⟩

/-- A tree in which no two paths lead to one node. -/
theorem proper_of_once (isSome : root ≠ 0)
    (once : ∀ left right, IsPath width depth left → IsPath width depth right →
      reach word root left = reach word root right →
        reach word root left ≠ 0 → left = right) :
    Proper word width depth root := by
  induction depth generalizing root with
  | zero => trivial
  | succ depth induction =>
      intro entry isFirst isEntry
      refine ⟨induction isEntry ?_, ?_, ?_⟩
      · intro left right isLeft isRight same notZero
        rw [← reach_cons isSome] at same notZero
        rw [← reach_cons isSome] at same
        exact (List.cons.inj (once _ _ (isPath_cons.mpr ⟨isFirst, isLeft⟩)
          (isPath_cons.mpr ⟨isFirst, isRight⟩) same notZero)).2
      · intro isRoot
        obtain ⟨_, path, isPath, leads⟩ := (mem_below isEntry).mp isRoot
        rw [← reach_cons isSome] at leads
        cases once [] (entry :: path) (.nil width _)
          (isPath_cons.mpr ⟨isFirst, isPath⟩) leads.symm isSome
      · intro other isOther isAlso different node isNode isNodeToo
        obtain ⟨notZero, left, isLeft, leads⟩ := (mem_below isEntry).mp isNode
        obtain ⟨_, right, isRight, same⟩ := (mem_below isAlso).mp isNodeToo
        rw [← reach_cons isSome] at leads same
        exact different (List.cons.inj (once _ _
          (isPath_cons.mpr ⟨isFirst, isLeft⟩) (isPath_cons.mpr ⟨isOther, isRight⟩)
          (leads.trans same.symm) (leads ▸ notZero))).1

end Paths

end Forests
