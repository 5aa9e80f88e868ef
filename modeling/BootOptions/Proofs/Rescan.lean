/-
  Boot options — scanning a memory store again.

  A memory store counts its answers, and a fault comes at a count; so a scan does
  change the store that it walks.  A rewind takes the one count back, and nothing
  reads the other: from a rewind on, each scan is the same.

  * `next_asked`: a store that is asked changes in its counts alone.
  * `translates_asked`: stores that differ in the requests they have counted
    answer alike, and so their scans are the same (`scan_asked`).
  * `scanned cfg fuel m n`: the store behind `n` scans, each from a rewind;
    `refreshed cfg fuel inv m n`: the same for an inventory that is kept with it.
  * `rewind_scanned`: behind any number of scans, a rewind leads back to the store
    as it was, with more requests counted.
  * `scans_repeat`: the scans and the refreshes of a rewound store are all the same.
-/
import BootOptions.Proofs.Faults
import BootOptions.Proofs.Refresh
import BootOptions.Proofs.Translation

namespace BootOptions.MemoryStore

variable {m m' : MemoryStore} {cfg : ScanConfig} {fuel : Nat}

/-! ## Counts -/

/-- The stores differ in their counts alone. -/
structure Unaltered (m m' : MemoryStore) : Prop where
  contents : m'.contents = m.contents
  available : m'.available = m.available
  fault : m'.fault = m.fault

theorem next_asked (m : MemoryStore) (r : Request) :
    ∃ n k, (NameIterator.next m r).2 = m.asked n k := by
  show ∃ n k, (m.answer r).2 = m.asked n k
  unfold answer
  split
  · split
    · exact ⟨1, 0, rfl⟩
    · obtain ⟨n, k, hs, -⟩ := m.genuine_asked r
      exact ⟨n, k, hs⟩
  · exact ⟨0, 0, rfl⟩

theorem asked_of_answered {es : List Exchange} (h : Answered m es m') :
    ∃ n k, m' = m.asked n k := by
  induction h with
  | nil => exact ⟨0, 0, rfl⟩
  | @cons m m' q _ _ ih =>
    obtain ⟨n, k, hm⟩ := m.next_asked q
    obtain ⟨n', k', rfl⟩ := ih
    exact ⟨n + n', k + k', by rw [hm, asked_asked]⟩

/-- The count of the requests for a larger buffer is not read. -/
theorem genuine_uncounted (m : MemoryStore) (k : Nat) (r : Request) :
    (m.asked 0 k).genuine r = ((m.genuine r).1, (m.genuine r).2.asked 0 k) := by
  have ha : (m.asked 0 k).after? r.toCursor = m.after? r.toCursor := rfl
  have hc : (m.asked 0 k).contents = m.contents := rfl
  unfold genuine
  rw [ha, hc]
  split
  · rfl
  · split
    · rfl
    · split
      · simp [asked, counted, Nat.add_right_comm]
      · rfl

theorem translates_asked (k : Nat) : Translates fun m : MemoryStore => m.asked 0 k := by
  intro m c _
  show (m.asked 0 k).answer c.request =
    ((m.answer c.request).1, (m.answer c.request).2.asked 0 k)
  have ha : (m.asked 0 k).available = m.available := rfl
  have hd : (m.asked 0 k).due = m.due := rfl
  unfold answer
  rw [ha, hd]
  split
  · split
    · rfl
    · exact genuine_uncounted m k c.request
  · rfl

theorem scan_asked (cfg : ScanConfig) (fuel : Nat) (m : MemoryStore) (k : Nat) :
    scan cfg fuel (m.asked 0 k) = (scan cfg fuel m).map (·.asked 0 k) :=
  scan_map (translates_asked k) (s := m) rfl fuel

/-! ## Many scans -/

/-- The store behind `n` scans, each from a rewind. -/
def scanned (cfg : ScanConfig) (fuel : Nat) (m : MemoryStore) : Nat → MemoryStore
  | 0 => m
  | n + 1 => (scan cfg fuel (scanned cfg fuel m n).rewind).store

/-- An inventory and a store behind `n` refreshes, each from a rewind. -/
def refreshed (cfg : ScanConfig) (fuel : Nat) (inv : Inventory) (m : MemoryStore) :
    Nat → Inventory × MemoryStore
  | 0 => (inv, m)
  | n + 1 =>
    let x := refreshed cfg fuel inv m n
    let r := x.1.refresh cfg fuel x.2.rewind
    (r.inventory, r.store)

/-- **A rewind takes back what a scan has done**, but for the requests counted,
    which are as many for each scan. -/
theorem rewind_scanned {n₀ k : Nat} (h : (scan cfg fuel m.rewind).store = m.rewind.asked n₀ k)
    (n : Nat) : (scanned cfg fuel m n).rewind = m.rewind.asked 0 (n * k) := by
  induction n with
  | zero => rw [Nat.zero_mul]; rfl
  | succ n ih =>
    rw [scanned, ih, scan_asked, Scan.map, h, asked_asked, Nat.succ_mul, Nat.add_comm k]
    rfl

/-- The same number of requests is counted by each scan. -/
theorem exists_rewind_scanned (cfg : ScanConfig) (fuel : Nat) (m : MemoryStore) :
    ∃ k, ∀ n, (scanned cfg fuel m n).rewind = m.rewind.asked 0 (n * k) := by
  obtain ⟨n₀, k, h⟩ := asked_of_answered (scan_answered cfg fuel m.rewind)
  exact ⟨k, rewind_scanned h⟩

theorem scan_scanned (cfg : ScanConfig) (fuel : Nat) (m : MemoryStore) (n : Nat) :
    (scan cfg fuel (scanned cfg fuel m n).rewind).result = (scan cfg fuel m.rewind).result ∧
    (scan cfg fuel (scanned cfg fuel m n).rewind).exchanges = (scan cfg fuel m.rewind).exchanges := by
  obtain ⟨k, h⟩ := exists_rewind_scanned cfg fuel m
  rw [h, scan_asked]
  exact ⟨rfl, rfl⟩

theorem unaltered_scanned (cfg : ScanConfig) (fuel : Nat) (m : MemoryStore) (n : Nat) :
    m.Unaltered (scanned cfg fuel m n) := by
  obtain ⟨k, h⟩ := exists_rewind_scanned cfg fuel m
  have hn := h n
  simp only [rewind, asked, MemoryStore.mk.injEq] at hn
  exact ⟨hn.1, hn.2.1, hn.2.2.1⟩

theorem refreshed_snd (inv : Inventory) (n : Nat) :
    (refreshed cfg fuel inv m n).2 = scanned cfg fuel m n := by
  induction n with
  | zero => rfl
  | succ n ih =>
    show ((refreshed cfg fuel inv m n).1.refresh cfg fuel _).store = _
    rw [Inventory.refresh_store, ih, scanned]

theorem refresh_refreshed (cfg : ScanConfig) (fuel : Nat) (inv : Inventory) (m : MemoryStore)
    (n : Nat) :
    ((refreshed cfg fuel inv m n).1.refresh cfg fuel (scanned cfg fuel m n).rewind).result =
      (inv.refresh cfg fuel m.rewind).result ∧
    ((refreshed cfg fuel inv m n).1.refresh cfg fuel (scanned cfg fuel m n).rewind).inventory =
      (inv.refresh cfg fuel m.rewind).inventory := by
  induction n with
  | zero => exact ⟨rfl, rfl⟩
  | succ n ih =>
    have ha : VariableStore.isAvailable (scanned cfg fuel m (n + 1)).rewind =
        VariableStore.isAvailable m.rewind := (unaltered_scanned cfg fuel m (n + 1)).available
    rw [← refreshed_snd inv n] at ih
    have hi : (refreshed cfg fuel inv m (n + 1)).1 = (inv.refresh cfg fuel m.rewind).inventory := ih.2
    rw [hi]
    exact inv.refresh_again ha (scan_scanned cfg fuel m (n + 1)).1

/-- **Scans of a store repeat.**  Whatever has been done to a store, each scan of it
    that a rewind precedes asks the same and has the same result; all that changes is
    the count of requests for a larger buffer, by as many each time.  If a scan ends,
    this is so with any number of calls to spare.  An inventory that is refreshed again
    stays as it is, and so does its next free number. -/
theorem scans_repeat (cfg : ScanConfig) (fuel : Nat) (m : MemoryStore) :
    (∃ k, ∀ n,
      (scan cfg fuel (scanned cfg fuel m n).rewind).result = (scan cfg fuel m.rewind).result ∧
      (scan cfg fuel (scanned cfg fuel m n).rewind).exchanges = (scan cfg fuel m.rewind).exchanges ∧
      m.Unaltered (scanned cfg fuel m n) ∧
      (scanned cfg fuel m (n + 1)).resizeRequests = (scanned cfg fuel m n).resizeRequests + k) ∧
    (∀ calls r, (scan cfg calls m.rewind).result = some r → calls ≤ fuel →
      (scan cfg fuel m.rewind).result = some r ∧
      (scan cfg fuel m.rewind).exchanges = (scan cfg calls m.rewind).exchanges) ∧
    ∀ inv n,
      ((refreshed cfg fuel inv m n).1.refresh cfg fuel (refreshed cfg fuel inv m n).2.rewind).result =
        (inv.refresh cfg fuel m.rewind).result ∧
      (refreshed cfg fuel inv m (n + 1)).1 = (inv.refresh cfg fuel m.rewind).inventory ∧
      (refreshed cfg fuel inv m (n + 1)).1.nextFree =
        (inv.refresh cfg fuel m.rewind).inventory.nextFree := by
  refine ⟨?_, ?_, ?_⟩
  · obtain ⟨k, h⟩ := exists_rewind_scanned cfg fuel m
    have hk : ∀ n, (scanned cfg fuel m n).resizeRequests = m.resizeRequests + n * k := fun n =>
      congrArg resizeRequests (h n)
    refine ⟨k, ?_⟩
    intro n
    obtain ⟨hr, he⟩ := scan_scanned cfg fuel m n
    exact ⟨hr, he, unaltered_scanned cfg fuel m n, by rw [hk, hk, Nat.succ_mul, Nat.add_assoc]⟩
  · intro calls r hr hle
    rw [scan_eq_of_le hr hle]
    exact ⟨hr, rfl⟩
  · intro inv n
    obtain ⟨hr, hi⟩ := refresh_refreshed cfg fuel inv m n
    rw [← refreshed_snd inv] at hr hi
    exact ⟨hr, hi, congrArg Inventory.nextFree hi⟩

/-- A store with a name that needs a larger buffer, a fault at its fourth answer, and
    counts left from before. -/
def used : MemoryStore := { longer.failing ⟨3, ⟨2⟩⟩ with steps := 9, resizeRequests := 5 }

theorem scans_repeat_used :
    (∃ k, ∀ n, (scan ⟨4, 12, true⟩ 9 (scanned ⟨4, 12, true⟩ 9 used n).rewind).result =
        some (.error (.iterationFailed ⟨2⟩ 1)) ∧
      (scanned ⟨4, 12, true⟩ 9 used (n + 1)).resizeRequests =
        (scanned ⟨4, 12, true⟩ 9 used n).resizeRequests + k) ∧
    (scan ⟨4, 12, true⟩ 9 used.rewind).exchanges = (scan ⟨4, 12, true⟩ 4 used.rewind).exchanges ∧
    ∀ n, (refreshed ⟨4, 12, true⟩ 9 ⟨some []⟩ used (n + 1)).1 = ⟨some []⟩ := by
  have hr : (scan ⟨4, 12, true⟩ 4 used.rewind).result = some (.error (.iterationFailed ⟨2⟩ 1)) := by
    decide
  obtain ⟨⟨k, h⟩, hends, hi⟩ := scans_repeat ⟨4, 12, true⟩ 9 used
  obtain ⟨hr', he⟩ := hends 4 _ hr (by decide)
  refine ⟨⟨k, fun n => ⟨(h n).1.trans hr', (h n).2.2.2⟩⟩, he, ?_⟩
  intro n
  exact (hi ⟨some []⟩ n).2.1.trans (by decide)

end BootOptions.MemoryStore
