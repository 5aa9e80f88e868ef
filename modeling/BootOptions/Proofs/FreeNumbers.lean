/-
  Boot options — the numbers that are in use in a store.

  * `Uses vs n`: among the variables `vs` there is a boot option of number `n`.
  * `free vs`: the numbers up to `maxNumber` that are not in use, in ascending
    order; `free_append` takes the least one away.
-/
import BootOptions.Proofs.LeastUnused
import BootOptions.Proofs.MemoryStore

namespace BootOptions

/-! ## Numbers in use -/

/-- Some variable of the global namespace is named for the number `n`. -/
def Uses (vs : List Variable) (n : Nat) : Prop :=
  ∃ v ∈ vs, v.guid = .global ∧ BootOption.Names v.name n

theorem Uses.le {vs : List Variable} {n : Nat} (h : Uses vs n) : n ≤ maxNumber := by
  obtain ⟨v, -, -, hn⟩ := h
  exact Nat.le_of_lt_succ hn.lt

theorem uses_append {us vs : List Variable} {n : Nat} :
    Uses (us ++ vs) n ↔ Uses us n ∨ Uses vs n := by
  simp only [Uses, List.mem_append, or_and_right, exists_or]

theorem uses_iff {vs : List Variable} {n : Nat} :
    Uses vs n ↔ n ∈ (vs.filterMap Variable.option?).map (·.number.toNat) := by
  simp only [List.mem_map, List.mem_filterMap]
  constructor
  · rintro ⟨v, hv, hg, hn⟩
    exact ⟨_, ⟨v, hv, Variable.option?_of_names hg hn⟩, UInt16.toNat_ofNat_of_lt' hn.lt⟩
  · rintro ⟨o, ⟨v, hv, ho⟩, rfl⟩
    have hr := Variable.option?_eq_some_iff.1 ho
    exact ⟨v, hv, hr.vendor, hr.names⟩

instance (vs : List Variable) (n : Nat) : Decidable (Uses vs n) :=
  decidable_of_iff _ uses_iff.symm

theorem leastUnused_uses (vs : List Variable) :
    IsLeast {n | ¬ Uses vs n} (leastUnused (vs.filterMap Variable.option?)) := by
  simpa only [uses_iff] using leastUnused_isLeast (vs.filterMap Variable.option?)

/-- The number behind the last one is never in use. -/
theorem le_of_isLeast {vs : List Variable} {s : Nat} (h : IsLeast {n | ¬ Uses vs n} s) :
    s ≤ maxNumber + 1 :=
  h.2 fun hu => Nat.not_succ_le_self _ hu.le

/-! ## Free numbers -/

/-- The numbers that are left for new boot options. -/
def free (vs : List Variable) : List Nat :=
  (List.range (maxNumber + 1)).filter fun n => ¬ Uses vs n

theorem filter_range_of_least {N s : Nat} {p q : Nat → Bool} (hs : s < N)
    (hlt : ∀ n < s, p n = false) (hp : p s = true) (hq : ∀ n, q n = (p n && n != s)) :
    (List.range N).filter p = s :: (List.range N).filter q := by
  obtain ⟨k, rfl⟩ := Nat.exists_eq_add_of_lt hs
  -- below `s` both filters keep nothing, above it they agree
  have hr : List.range (s + k + 1) = List.range s ++ s :: List.range' (s + 1) k := by
    rw [List.range_eq_range', List.range_eq_range', Nat.add_assoc, ← List.range'_append_1,
      Nat.zero_add, List.range'_succ]
  have hlow : ∀ f : Nat → Bool, (∀ n < s, f n = false) → (List.range s).filter f = [] := by
    intro f hf
    exact List.filter_eq_nil_iff.2 fun n hn => by simp [hf n (List.mem_range.1 hn)]
  rw [hr, List.filter_append, List.filter_append, hlow p hlt,
    hlow q fun n hn => by rw [hq, hlt n hn, Bool.false_and], List.filter_cons_of_pos hp,
    List.filter_cons_of_neg (by simp [hq]), List.nil_append, List.nil_append]
  congr 1
  apply List.filter_congr
  intro n hn
  have : s < n := (List.mem_range'_1.1 hn).1
  rw [hq, bne_iff_ne.2 (by omega : n ≠ s), Bool.and_true]

section
variable {vs : List Variable} {v : Variable} {s : Nat} (h : IsLeast {n | ¬ Uses vs n} s)
include h

/-- A boot option of the least free number takes it away. -/
theorem free_append (hs : s ≤ maxNumber) (hg : v.guid = .global) (hv : BootOption.Names v.name s) :
    free vs = s :: free (vs ++ [v]) := by
  refine filter_range_of_least (Nat.lt_succ_of_le hs) ?_ (decide_eq_true h.1) ?_
  · intro n hn
    exact decide_eq_false fun hu => Nat.not_le.2 hn (h.2 hu)
  · intro n
    have hone : Uses [v] n ↔ n = s := by
      constructor
      · rintro ⟨u, hu, -, hn⟩
        obtain rfl := List.mem_singleton.1 hu
        exact hn.unique hv
      · rintro rfl
        exact ⟨v, List.mem_singleton.2 rfl, hg, hv⟩
    rw [Bool.eq_iff_iff]
    simp [uses_append, hone, not_or]

theorem free_eq_nil (hs : maxNumber < s) : free vs = [] := by
  apply List.filter_eq_nil_iff.2
  intro n hn
  have hlt : n < s := Nat.lt_of_lt_of_le (List.mem_range.1 hn) hs
  simpa using fun hu => Nat.not_le.2 hlt (h.2 hu)

end

end BootOptions
