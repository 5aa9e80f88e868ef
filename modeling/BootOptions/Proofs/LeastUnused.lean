/-
  Boot options — the least unused number.

  * `leastUnused_isLeast`: `leastUnused` is the least number that no option has,
    and `leastUnused_unique` says how to tell that a number is it.
  * `numbersOf`: the numbers of some options.  The least unused number depends
    on these alone (`leastUnused_congr`), and is at most as large as there are
    of them (`leastUnused_le_card`).
  * `leastUnused_minimum` says all of it at once.
-/
import Mathlib.Data.Finset.Card
import Mathlib.Data.Finset.Range
import Mathlib.Order.Bounds.Basic
import BootOptions.Numbering

namespace BootOptions

/-- **The least number that none of the options has.** -/
theorem leastUnused_isLeast (options : List BootOption) :
    IsLeast {n | n ∉ options.map (·.number.toNat)} (leastUnused options) := by
  have hmem : ∀ {n}, n ∈ (options.map (·.number.toNat)).mergeSort ↔
      n ∈ options.map (·.number.toNat) := List.mem_mergeSort
  have hsorted : (options.map (·.number.toNat)).mergeSort.Pairwise (· ≤ ·) := by
    refine (List.pairwise_mergeSort ?_ ?_ _).imp fun h => of_decide_eq_true h
    · intro a b c hab hbc
      exact decide_eq_true (Nat.le_trans (of_decide_eq_true hab) (of_decide_eq_true hbc))
    · intro a b
      simpa using Nat.le_total a b
  constructor
  · exact fun h => firstGap_not_mem hsorted (hmem.2 h)
  · intro n hn
    by_contra hlt
    exact hn (hmem.1 (firstGap_passed (Nat.zero_le n) (Nat.lt_of_not_le hlt)))

/-! ## The numbers of options -/

/-- The numbers that some options have. -/
def numbersOf (os : List BootOption) : Finset Nat := (os.map (·.number.toNat)).toFinset

section
variable {os os' : List BootOption} {n : Nat}

theorem mem_numbersOf : n ∈ numbersOf os ↔ ∃ o ∈ os, o.number.toNat = n := by
  rw [numbersOf, List.mem_toFinset, List.mem_map]

theorem le_of_mem_numbersOf (h : n ∈ numbersOf os) : n ≤ maxNumber := by
  obtain ⟨o, -, rfl⟩ := mem_numbersOf.1 h
  exact Nat.le_of_lt_succ o.number.toNat_lt

theorem leastUnused_not_mem (os : List BootOption) : leastUnused os ∉ numbersOf os := by
  intro h
  exact (leastUnused_isLeast os).1 (List.mem_toFinset.1 h)

theorem mem_numbersOf_of_lt (h : n < leastUnused os) : n ∈ numbersOf os := by
  by_contra hn
  exact Nat.not_le.2 h ((leastUnused_isLeast os).2 fun hm => hn (List.mem_toFinset.2 hm))

/-- A number that is not in use, while all below it are, is the least unused one. -/
theorem leastUnused_unique (h : n ∉ numbersOf os) (hlt : ∀ m < n, m ∈ numbersOf os) :
    leastUnused os = n := by
  rcases Nat.lt_trichotomy (leastUnused os) n with hl | heq | hg
  · exact absurd (hlt _ hl) (leastUnused_not_mem os)
  · exact heq
  · exact absurd (mem_numbersOf_of_lt hg) h

/-- Order and repetitions of the options do not matter. -/
theorem leastUnused_congr (h : numbersOf os' = numbersOf os) : leastUnused os' = leastUnused os := by
  apply leastUnused_unique
  · rw [h]
    exact leastUnused_not_mem os
  · intro m hm
    rw [h]
    exact mem_numbersOf_of_lt hm

/-- A number for every number below it. -/
theorem leastUnused_le_card (os : List BootOption) : leastUnused os ≤ (numbersOf os).card := by
  have hsub : Finset.range (leastUnused os) ⊆ numbersOf os := by
    intro n hn
    exact mem_numbersOf_of_lt (Finset.mem_range.1 hn)
  simpa using Finset.card_le_card hsub

/-- No option has a number behind the last one. -/
theorem leastUnused_le (os : List BootOption) : leastUnused os ≤ maxNumber + 1 := by
  by_contra h
  have := le_of_mem_numbersOf (mem_numbersOf_of_lt (Nat.lt_of_not_le h))
  omega

theorem leastUnused_eq_iff :
    leastUnused os = maxNumber + 1 ↔ ∀ n ≤ maxNumber, n ∈ numbersOf os := by
  constructor
  · intro h n hn
    exact mem_numbersOf_of_lt (by omega)
  · intro h
    apply leastUnused_unique
    · intro hm
      exact Nat.not_succ_le_self _ (le_of_mem_numbersOf hm)
    · intro m hm
      exact h m (Nat.le_of_lt_succ hm)

end

/-- **The least number that is not in use.**  It is determined by the numbers of
    the options, whatever their order and however often they occur; it is at most
    the count of these, and it is behind the last number only if all numbers are
    in use. -/
theorem leastUnused_minimum (os : List BootOption) :
    (∀ o ∈ os, o.number.toNat ≠ leastUnused os) ∧
    (∀ n < leastUnused os, ∃ o ∈ os, o.number.toNat = n) ∧
    (∀ os', numbersOf os' = numbersOf os → leastUnused os' = leastUnused os) ∧
    leastUnused os ≤ (numbersOf os).card ∧ leastUnused os ≤ maxNumber + 1 ∧
    (leastUnused os = maxNumber + 1 ↔ ∀ n ≤ maxNumber, ∃ o ∈ os, o.number.toNat = n) := by
  refine ⟨?_, ?_, fun _ h => leastUnused_congr h, leastUnused_le_card os, leastUnused_le os, ?_⟩
  · intro o ho he
    exact leastUnused_not_mem os (mem_numbersOf.2 ⟨o, ho, he⟩)
  · intro n hn
    exact mem_numbersOf.1 (mem_numbersOf_of_lt hn)
  · simp only [leastUnused_eq_iff, mem_numbersOf]

/-- Options out of order, two of them of one number. -/
def shuffled : List BootOption :=
  [⟨"Boot0007", 7⟩, ⟨"Boot0002", 2⟩, ⟨"Boot0000", 0⟩, ⟨"boot0002", 2⟩, ⟨"Boot0001", 1⟩]

theorem leastUnused_minimum_shuffled :
    numbersOf shuffled = numbersOf (shuffled.drop 1 ++ shuffled) ∧
    leastUnused (shuffled.drop 1 ++ shuffled) = leastUnused shuffled ∧
    leastUnused shuffled = 3 := by
  have hn : numbersOf (shuffled.drop 1 ++ shuffled) = numbersOf shuffled := by decide
  exact ⟨hn.symm, (leastUnused_minimum shuffled).2.2.1 _ hn, leastUnused_unique (by decide) (by decide)⟩

end BootOptions
