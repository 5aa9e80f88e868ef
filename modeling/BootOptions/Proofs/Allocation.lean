/-
  Boot options — making boot options, one after the other.

  An allocator scans its store, takes the least number that is not in use, adds
  the boot option of that number to the store, and starts over.

  * `Allocator.next` is a round, `Allocator.after` the state after some rounds.
  * `Round`: what a round finds in its store; `Advance`: what it changes.
  * `Fits`: the store is sound and all its names are within the limit of a scan.
    A round keeps this (`fits_next`) and takes the least free number away
    (`free_next`).
  * `allocation`: the rounds give out the free numbers of the store, each once
    and in ascending order, and never the name of a variable that exists.
-/
import BootOptions.Proofs.FreeNumbers
import BootOptions.Proofs.MemoryScan
import BootOptions.Proofs.Refresh

namespace BootOptions

/-- A store and an inventory of it. -/
structure Allocator where
  store : MemoryStore
  inventory : Inventory := {}

namespace Allocator

/-- Scan the store. -/
def refresh (cfg : ScanConfig) (a : Allocator) : Refresh MemoryStore :=
  a.inventory.refresh cfg a.store.callBound a.store

/-- Scan the store, take the next free number and add its boot option. -/
def next (cfg : ScanConfig) (a : Allocator) : Allocator :=
  let r := a.refresh cfg
  match r.inventory.nextFree.1 with
  | .error _ => ⟨r.store, r.inventory⟩
  | .ok s =>
    match OptionName.ofNumber s with
    | .error _ => ⟨r.store, r.inventory⟩
    | .ok name => ⟨r.store.add (.ofText .global name.text), r.inventory⟩

/-- The state after `n` rounds. -/
def after (cfg : ScanConfig) (a : Allocator) : Nat → Allocator
  | 0 => a
  | n + 1 => (after cfg a n).next cfg

/-- A round that finds the options `os` and gives out the number `s`. -/
structure Round (cfg : ScanConfig) (a : Allocator) (os : List BootOption) (s : Nat) : Prop where
  refreshed : (a.refresh cfg).result = some (.ok os.length)
  known : (a.refresh cfg).inventory.options = some os
  listed : Listed a.store.contents os
  numbered : (a.refresh cfg).inventory.nextFree.1 = .ok s
  least : IsLeast {n | ¬ Uses a.store.contents n} s

/-- From a round that gives out `s`, with the variables `vs` and the options
    `os` in the store, to the next one. -/
inductive Advance (vs : List Variable) (os : List BootOption) :
    Nat → List Variable → List BootOption → Prop
  | given {s : Nat} {name : OptionName} : s ≤ maxNumber → OptionName.ofNumber s = .ok name →
      (∀ v ∈ vs, ¬ (v.guid = .global ∧ v.name.stem = Units.stem (Utf16.encode name.text.toList))) →
      Advance vs os s (vs ++ [.ofText .global name.text]) (os ++ [⟨name.text, .ofNat s⟩])
  | full : OptionName.ofNumber (maxNumber + 1) = .error (.outOfRange (maxNumber + 1)) →
      Advance vs os (maxNumber + 1) vs os

end Allocator

/-! ## The variable of a number -/

namespace Variable

/-- The boot option of number `n`. -/
def numbered (n : Nat) : Variable := .ofText .global (OptionName.textOf n)

theorem name_numbered (n : Nat) : (numbered n).name = Utf16.encode (OptionName.textOf n).toList := by
  rw [numbered, ofText]

theorem stem_numbered (n : Nat) : (numbered n).name.stem = (numbered n).name := by
  rw [name_numbered, OptionName.stem_textOf]

theorem names_numbered {n : Nat} (h : n ≤ maxNumber) : BootOption.Names (numbered n).name n := by
  rw [name_numbered]; exact OptionName.names_textOf h

theorem length_stored_numbered (n : Nat) : (numbered n).stored.length = BootOption.nameLength + 1 := by
  rw [stored, name_numbered, OptionName.encode_textOf, List.length_append, List.length_append,
    List.length_map, Hex.length_fixed]
  rfl

theorem option?_numbered {n : Nat} (h : n ≤ maxNumber) :
    (numbered n).option? = some ⟨OptionName.textOf n, .ofNat n⟩ := by
  have hn : (UInt16.ofNat n).toNat = n := UInt16.toNat_ofNat_of_lt' (Nat.lt_succ_of_le h)
  refine option?_eq_some_iff.2 ⟨rfl, ?_, ?_⟩
  · rw [hn]; exact names_numbered h
  · rw [stem_numbered, name_numbered]

/-- A variable with the name of a boot option uses its number. -/
theorem uses_of_stem {vs : List Variable} {n : Nat} (hn : n ≤ maxNumber) {v : Variable}
    (hv : v ∈ vs) (h : v.guid = .global ∧ v.name.stem = (numbered n).name.stem) : Uses vs n :=
  ⟨v, hv, h.1, (BootOption.Names.stem h.2).2 (names_numbered hn)⟩

/-- The boot option of the least free number takes it away. -/
theorem free_numbered {vs : List Variable} {s : Nat} (h : IsLeast {n | ¬ Uses vs n} s)
    (hs : s ≤ maxNumber) : free vs = s :: free (vs ++ [numbered s]) :=
  free_append h hs rfl (names_numbered hs)

end Variable

/-! ## Stores within the limit -/

namespace MemoryStore

/-- The store is sound and has no name beyond the limit. -/
structure Fits (m : MemoryStore) (cfg : ScanConfig) : Prop extends m.Sound where
  short : ∀ v ∈ m.contents, v.stored.length ≤ cfg.limit

variable {m : MemoryStore} {cfg : ScanConfig} {s : Nat}

theorem Fits.asked (h : m.Fits cfg) (n k : Nat) : (m.asked n k).Fits cfg :=
  ⟨h.toSound.asked n k, h.short⟩

theorem Fits.add (h : m.Fits cfg) (hu : ¬ Uses m.contents s) (hs : s ≤ maxNumber) :
    (m.add (.numbered s)).Fits cfg := by
  refine ⟨⟨h.available, h.faultless, ?_, ?_⟩, ?_⟩
  · intro v hv
    rcases List.mem_append.1 hv with hv | hv
    · exact h.wellNamed.named v hv
    · obtain rfl := List.mem_singleton.1 hv
      rw [Variable.stem_numbered, Variable.name_numbered, OptionName.encode_textOf]
      exact List.append_ne_nil_of_left_ne_nil (by decide) _
  · refine List.pairwise_append.2 ⟨h.wellNamed.distinct, List.pairwise_singleton _ _, ?_⟩
    intro u hu' v hv hsame
    obtain rfl := List.mem_singleton.1 hv
    exact hu (Variable.uses_of_stem hs hu' hsame)
  · intro v hv
    rcases List.mem_append.1 hv with hv | hv
    · exact h.short v hv
    · obtain rfl := List.mem_singleton.1 hv
      rw [Variable.length_stored_numbered]
      exact Nat.le_max_right _ _

end MemoryStore

/-! ## Rounds -/

namespace Allocator

variable {cfg : ScanConfig} {a : Allocator}

/-- The boot options of the store. -/
def options (a : Allocator) : List BootOption := a.store.contents.filterMap Variable.option?

section
variable (h : a.store.Fits cfg)
include h

theorem refresh_eq : ∃ es ns n k, a.refresh cfg =
    ⟨some (.ok a.options.length), ⟨some a.options⟩, es, ns, a.store.asked n k⟩ := by
  have hg : cfg.growths a.store.contents ≤ a.store.contents.length := growths_le _ _
  have hb : a.store.callBound = 2 * a.store.contents.length + 2 := by
    rw [MemoryStore.callBound, h.faultless]; rfl
  have hf : a.store.contents.length + cfg.growths a.store.contents < a.store.callBound := by omega
  obtain ⟨es, e, ns, hscan, -, -⟩ := MemoryStore.scan_fits h.toSound h.short hf
  have hr : a.refresh cfg = _ := Inventory.refresh_of_ok h.available (congrArg Scan.result hscan)
  refine ⟨es ++ [e], ns, es.length + 1, cfg.growths a.store.contents, hr.trans ?_⟩
  rw [hscan]; rfl

theorem round : Round cfg a a.options (leastUnused a.options) := by
  obtain ⟨es, ns, n, k, hr⟩ := refresh_eq h
  exact ⟨by rw [hr], by rw [hr], listed_iff.2 rfl, by rw [hr]; rfl, leastUnused_uses _⟩

theorem next_store_of_le (hs : leastUnused a.options ≤ maxNumber) :
    ∃ n k, (a.next cfg).store = (a.store.asked n k).add (.numbered (leastUnused a.options)) := by
  obtain ⟨es, ns, n, k, hr⟩ := refresh_eq h
  obtain ⟨name, hn, ht⟩ := OptionName.ofNumber_eq_ok hs
  refine ⟨n, k, ?_⟩
  rw [Variable.numbered, ← ht, next, hr]
  simp only [Inventory.nextFree, hn]

theorem next_store_of_lt (hs : maxNumber < leastUnused a.options) :
    ∃ n k, (a.next cfg).store = a.store.asked n k := by
  obtain ⟨es, ns, n, k, hr⟩ := refresh_eq h
  refine ⟨n, k, ?_⟩
  rw [next, hr]
  simp only [Inventory.nextFree, OptionName.ofNumber_eq_error hs]

theorem fits_next : (a.next cfg).store.Fits cfg := by
  rcases Nat.lt_or_ge maxNumber (leastUnused a.options) with hs | hs
  · obtain ⟨n, k, hn⟩ := next_store_of_lt h hs
    rw [hn]; exact h.asked n k
  · obtain ⟨n, k, hn⟩ := next_store_of_le h hs
    rw [hn]; exact (h.asked n k).add (leastUnused_uses _).1 hs

/-- A round takes away the number it gives out. -/
theorem free_next : free (a.next cfg).store.contents = (free a.store.contents).tail := by
  rcases Nat.lt_or_ge maxNumber (leastUnused a.options) with hs | hs
  · obtain ⟨n, k, hn⟩ := next_store_of_lt h hs
    rw [hn, free_eq_nil (leastUnused_uses _) hs]
    exact free_eq_nil (leastUnused_uses _) hs
  · obtain ⟨n, k, hn⟩ := next_store_of_le h hs
    rw [hn, Variable.free_numbered (leastUnused_uses _) hs, List.tail_cons]
    rfl

omit h in
/-- What a round gives out is the first free number, or the one behind the last. -/
theorem leastUnused_eq : leastUnused a.options = (free a.store.contents).head?.getD (maxNumber + 1) := by
  have hl := leastUnused_uses a.store.contents
  rcases Nat.lt_or_ge maxNumber (leastUnused a.options) with hs | hs
  · rw [free_eq_nil hl hs]
    exact Nat.le_antisymm (le_of_isLeast hl) hs
  · rw [Variable.free_numbered hl hs]
    rfl

theorem advance : Advance a.store.contents a.options (leastUnused a.options)
    (a.next cfg).store.contents (a.next cfg).options := by
  have hl := leastUnused_uses a.store.contents
  rcases Nat.lt_or_ge maxNumber (leastUnused a.options) with hs | hs
  · obtain ⟨n, k, hn⟩ := next_store_of_lt h hs
    have he : leastUnused a.options = maxNumber + 1 := Nat.le_antisymm (le_of_isLeast hl) hs
    rw [he, options, options, hn]
    exact .full (OptionName.ofNumber_eq_error (Nat.lt_succ_self _))
  · obtain ⟨n, k, hn⟩ := next_store_of_le h hs
    obtain ⟨name, hname, ht⟩ := OptionName.ofNumber_eq_ok hs
    have hone : [Variable.numbered (leastUnused a.options)].filterMap Variable.option? =
        [⟨name.text, .ofNat (leastUnused a.options)⟩] := by
      rw [List.filterMap_cons_some (Variable.option?_numbered hs), ht]; rfl
    have ho : (a.next cfg).options = a.options ++ [⟨name.text, .ofNat (leastUnused a.options)⟩] := by
      rw [options, hn, MemoryStore.add, List.filterMap_append, hone]; rfl
    rw [ho, hn]
    have hv : Variable.ofText .global name.text = .numbered (leastUnused a.options) := by
      rw [ht]; rfl
    have hfresh : ∀ v ∈ a.store.contents,
        ¬ (v.guid = .global ∧ v.name.stem = Units.stem (Utf16.encode name.text.toList)) := by
      intro v hmem hsame
      rw [ht, ← Variable.name_numbered] at hsame
      exact hl.1 (Variable.uses_of_stem hs hmem hsame)
    exact hv ▸ .given hs hname hfresh

end

/-! ## Many rounds -/

theorem after_free (h : a.store.Fits cfg) (n : Nat) : (a.after cfg n).store.Fits cfg ∧
    free (a.after cfg n).store.contents = (free a.store.contents).drop n := by
  induction n with
  | zero => exact ⟨h, rfl⟩
  | succ n ih =>
    obtain ⟨hf, hfree⟩ := ih
    exact ⟨fits_next hf, by rw [after, free_next hf, hfree, List.tail_drop]⟩

/-- **The rounds give out the free numbers**, in ascending order and each once,
    and from then on the number behind the last one, which has no name. -/
theorem allocation (h : a.store.Fits cfg) : ∃ os : Nat → List BootOption, ∀ n,
    Round cfg (a.after cfg n) (os n) ((free a.store.contents)[n]?.getD (maxNumber + 1)) ∧
    Advance (a.after cfg n).store.contents (os n) ((free a.store.contents)[n]?.getD (maxNumber + 1))
      (a.after cfg (n + 1)).store.contents (os (n + 1)) := by
  refine ⟨fun n => (a.after cfg n).options, ?_⟩
  intro n
  obtain ⟨hf, hfree⟩ := after_free h n
  -- the head of what is left after `n` rounds is number `n` of the initial list
  have hs : leastUnused (a.after cfg n).options =
      (free a.store.contents)[n]?.getD (maxNumber + 1) := by
    rw [leastUnused_eq, hfree, List.head?_drop]
  rw [← hs]
  exact ⟨round hf, advance hf⟩

theorem allocation_mixed :
    (MemoryStore.mixed.add (.ofText .global "Boot0000")).Fits ⟨4, 12, true⟩ ∧
    (refresh ⟨4, 12, true⟩ ⟨MemoryStore.mixed.add (.ofText .global "Boot0000"), {}⟩).inventory.nextFree.1 =
      .ok 2 := by
  have hf : (MemoryStore.mixed.add (.ofText .global "Boot0000")).Fits ⟨4, 12, true⟩ :=
    ⟨⟨rfl, rfl, by decide, by decide⟩, by decide⟩
  obtain ⟨os, h⟩ := allocation (a := ⟨_, {}⟩) hf
  have hr := (h 0).1
  have hl : IsLeast {n | ¬ Uses (MemoryStore.mixed.add (.ofText .global "Boot0000")).contents n} 2 := by
    have hu : ∀ k < 2, Uses (MemoryStore.mixed.add (.ofText .global "Boot0000")).contents k := by decide
    refine ⟨by decide, ?_⟩
    intro n hn
    by_contra hlt
    exact hn (hu n (Nat.lt_of_not_le hlt))
  refine ⟨hf, ?_⟩
  rw [← hr.least.unique hl]
  exact hr.numbered

end Allocator

end BootOptions
