import Mathlib.Data.Finset.Card
import Mathlib.Data.Finset.Prod
import Mathlib.Algebra.BigOperators.Group.Finset.Basic
import Mathlib.Algebra.BigOperators.Group.Finset.Piecewise

/-!
# Counting the references of a finite table

A table over a finite index set names, at each index, at most one target.
`refs` counts the indices that name a given target.  The lemmas say how the
count moves when one index is redirected, which is all a reference-counting
scheme has to know about the table it counts.
-/

namespace RefCount

variable {ι κ : Type*} [DecidableEq κ]

/-- How many indices of `support` name `target`. -/
def refs (support : Finset ι) (table : ι → Option κ) (target : κ) : Nat :=
  (support.filter fun index => table index = some target).card

/-- The contribution of a single entry to the count of `target`. -/
def weight (entry : Option κ) (target : κ) : Nat :=
  if entry = some target then 1 else 0

@[simp] theorem weight_none (target : κ) : weight none target = 0 := rfl

@[simp] theorem weight_self (target : κ) : weight (some target) target = 1 := by
  simp [weight]

theorem weight_of_ne {source target : κ} (different : source ≠ target) :
    weight (some source) target = 0 := by
  simp [weight, different]

theorem refs_congr {support : Finset ι} {left right : ι → Option κ}
    (agree : ∀ index ∈ support, left index = right index) (target : κ) :
    refs support left target = refs support right target := by
  unfold refs
  congr 1
  apply Finset.filter_congr
  intro index member
  rw [agree index member]

/-- Redirecting one entry moves one unit of count from its old target to its
new one. -/
theorem refs_redirect [DecidableEq ι] {support : Finset ι}
    (before after : ι → Option κ) {slot : ι} (member : slot ∈ support)
    (others : ∀ index ∈ support, index ≠ slot → after index = before index)
    (target : κ) :
    refs support after target + weight (before slot) target =
      refs support before target + weight (after slot) target := by
  have split (table : ι → Option κ) :
      refs support table target =
        refs (support.erase slot) table target + weight (table slot) target := by
    unfold refs weight
    conv_lhs => rw [← Finset.insert_erase member, Finset.filter_insert]
    by_cases named : table slot = some target
    · simp [named]
    · simp [named]
  have rest : refs (support.erase slot) after target =
      refs (support.erase slot) before target := by
    apply refs_congr
    intro index inRest
    exact others index (Finset.mem_of_mem_erase inRest)
      (Finset.ne_of_mem_erase inRest)
  rw [split after, split before, rest]
  omega

theorem refs_pos_iff {support : Finset ι} {table : ι → Option κ}
    {target : κ} :
    0 < refs support table target ↔
      ∃ index ∈ support, table index = some target := by
  simp [refs, Finset.card_pos, Finset.Nonempty]

theorem refs_eq_zero_iff {support : Finset ι} {table : ι → Option κ}
    {target : κ} :
    refs support table target = 0 ↔
      ∀ index ∈ support, table index ≠ some target := by
  simp [refs, Finset.filter_eq_empty_iff]

theorem refs_le_one_iff {support : Finset ι} {table : ι → Option κ}
    {target : κ} :
    refs support table target ≤ 1 ↔
      ∀ first ∈ support, ∀ second ∈ support,
        table first = some target → table second = some target →
          first = second := by
  unfold refs
  rw [Finset.card_le_one]
  constructor
  · intro unique first inFirst second inSecond namesFirst namesSecond
    exact unique first (by simp [inFirst, namesFirst])
      second (by simp [inSecond, namesSecond])
  · intro unique first inFirst second inSecond
    simp only [Finset.mem_filter] at inFirst inSecond
    exact unique first inFirst.1 second inSecond.1 inFirst.2 inSecond.2

/-- Two different indices naming the same target make a count of two. -/
theorem two_le_refs {support : Finset ι} {table : ι → Option κ} {target : κ}
    {first second : ι} (inFirst : first ∈ support)
    (inSecond : second ∈ support) (different : first ≠ second)
    (namesFirst : table first = some target)
    (namesSecond : table second = some target) :
    2 ≤ refs support table target := by
  by_contra small
  have unique := refs_le_one_iff.mp (by omega : refs support table target ≤ 1)
  exact different
    (unique first inFirst second inSecond namesFirst namesSecond)

/-- A bound on the number of references from a colouring that separates the
indices naming one target. -/
theorem refs_le_of_separated {γ : Type*}
    {support : Finset ι} {table : ι → Option κ} {target : κ}
    (colours : Finset γ) (colour : ι → γ)
    (range : ∀ index ∈ support, colour index ∈ colours)
    (separated : ∀ first ∈ support, ∀ second ∈ support,
      table first = some target → table second = some target →
        colour first = colour second → first = second) :
    refs support table target ≤ colours.card := by
  unfold refs
  apply Finset.card_le_card_of_injOn colour
  · intro index member
    simp only [Finset.coe_filter, Set.mem_ofPred_eq] at member
    exact range index member.1
  · intro first inFirst second inSecond sameColour
    simp only [Finset.coe_filter, Set.mem_ofPred_eq] at inFirst inSecond
    exact separated first inFirst.1 second inSecond.1 inFirst.2 inSecond.2
      sameColour

end RefCount
