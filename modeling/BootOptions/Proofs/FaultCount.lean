/-
  Boot options — the call that a fault falls on.

  A store counts the calls up to its fault.  It leaves out those with a cursor that
  it does not know, so each of them puts the fault off by one call.

  * `Known vs c`: the cursor stands on one of the variables, or in front of them.
  * `Use`: what may be done with a store between two rewinds; `exchanges`: the calls
    among the uses, with their answers; `known`: which of the calls have a known cursor.
  * `Falls counts k i`: call `i` is the first one behind `k` counted calls.
  * `exchanges_failing`: the answer to the call that the fault falls on is replaced,
    and no other.
  * `fault_falls`: hence the fault comes at its step if no unknown cursor is used in
    front of it; `fault_put_off`: otherwise it need not.
-/
import BootOptions.Proofs.Faults

namespace BootOptions

/-- The exchange with an answer that changes nothing but the status. -/
def Exchange.failed (e : Exchange) (s : Status) : Exchange := ⟨e.request, e.request.refused s⟩

namespace MemoryStore

/-! ## Known cursors -/

/-- The cursor stands on one of the variables, or in front of all of them. -/
def Known (vs : List Variable) (c : Cursor) : Prop := c.name = [] ∨ ∃ v ∈ vs, v.isAt c = true

instance (vs : List Variable) (c : Cursor) : Decidable (Known vs c) :=
  inferInstanceAs (Decidable (_ ∨ _))

variable {m m' : MemoryStore} {f : Fault} {r : Request}

theorem after?_eq_none_iff {c : Cursor} : m.after? c = none ↔ ¬ Known m.contents c := by
  rw [after?, Known]
  by_cases h : c.name = []
  · simp [h]
  · simp [h, List.findIdx?_eq_none_iff]

/-- **A call is counted exactly if its cursor is known.** -/
theorem genuine_counted (m : MemoryStore) (r : Request) :
    ∃ k, (m.genuine r).2 = m.asked (if Known m.contents r.toCursor then 1 else 0) k := by
  by_cases h : Known m.contents r.toCursor
  · obtain ⟨i, hi⟩ := Option.ne_none_iff_exists'.1 (mt after?_eq_none_iff.1 (not_not.2 h))
    rw [if_pos h, genuine, hi]
    dsimp only
    split
    · exact ⟨0, rfl⟩
    · split
      · exact ⟨1, rfl⟩
      · exact ⟨0, rfl⟩
  · rw [if_neg h, genuine, after?_eq_none_iff.2 h]
    exact ⟨0, rfl⟩

/-- The answer depends on the variables alone. -/
theorem genuine_congr (h : m'.contents = m.contents) (r : Request) :
    (m'.genuine r).1 = (m.genuine r).1 := by
  have ha : m'.after? r.toCursor = m.after? r.toCursor := by rw [after?, after?, h]
  unfold genuine
  rw [ha, h]
  split
  · rfl
  · split
    · rfl
    · split <;> rfl

/-! ## Uses -/

/-- What may be done with a store between two rewinds. -/
inductive Use where
  | ask (request : Request)
  | add (v : Variable)

/-- The calls among the uses of a store, with their answers. -/
def exchanges (m : MemoryStore) : List Use → List Exchange
  | [] => []
  | .ask r :: us => ⟨r, (NameIterator.next m r).1⟩ :: exchanges (NameIterator.next m r).2 us
  | .add v :: us => exchanges (m.add v) us

/-- For each call among the uses of a store that holds the variables `vs`, whether
    its cursor is known at that moment. -/
def known (vs : List Variable) : List Use → List Bool
  | [] => []
  | .ask r :: us => decide (Known vs r.toCursor) :: known vs us
  | .add v :: us => known (vs ++ [v]) us

theorem Reliable.add (h : m.Reliable) (v : Variable) : (m.add v).Reliable :=
  ⟨h.available, h.faultless⟩

theorem Reliable.next_counted (h : m.Reliable) (r : Request) : ∃ k, (NameIterator.next m r).2 =
    m.asked (if Known m.contents r.toCursor then 1 else 0) k := by
  rw [h.next_eq]
  exact m.genuine_counted r

theorem length_known (hm : m.Reliable) (us : List Use) :
    (known m.contents us).length = (m.exchanges us).length := by
  induction us generalizing m with
  | nil => rfl
  | cons u us ih =>
    cases u with
    | add v => exact ih (hm.add v)
    | ask r =>
      obtain ⟨k, hk⟩ := hm.next_counted r
      rw [known, exchanges, hk, List.length_cons, List.length_cons, ← ih (hm.asked _ k)]
      rfl

/-! ## The call that a fault falls on -/

/-- Call `i` is the first one behind `k` counted calls. -/
def Falls (counts : List Bool) (k i : Nat) : Prop :=
  (counts.take i).count true = k ∧ ∀ j < i, (counts.take j).count true < k

instance (counts : List Bool) (k i : Nat) : Decidable (Falls counts k i) :=
  inferInstanceAs (Decidable (_ ∧ _))

variable {b : Bool} {bs : List Bool} {i k : Nat}

theorem falls_zero : Falls bs 0 i ↔ i = 0 := by
  constructor
  · intro h
    exact Nat.eq_zero_of_not_pos fun hi => Nat.not_lt_zero _ (h.2 0 hi)
  · rintro rfl
    simp [Falls]

theorem not_falls_first (hk : 0 < k) : ¬ Falls bs k 0 := by
  intro h
  exact hk.ne h.1

theorem falls_succ : Falls (b :: bs) (k + 1) (i + 1) ↔ Falls bs (if b then k else k + 1) i := by
  have hcount : ∀ j, ((b :: bs).take (j + 1)).count true =
      (bs.take j).count true + if b then 1 else 0 := by
    intro j
    rw [List.take_succ_cons, List.count_cons]
    cases b <;> rfl
  rw [Falls, Falls, hcount, Nat.forall_lt_succ_left]
  simp only [hcount, List.take_zero, List.count_nil, Nat.zero_lt_succ, true_and]
  cases b with
  | false => exact Iff.rfl
  | true => exact and_congr Nat.succ_inj (forall₂_congr fun _ _ => Nat.succ_lt_succ_iff)

/-- If the first `k` calls are counted, call `k` is the one behind them. -/
theorem falls_iff (h : ∀ b ∈ bs.take k, b = true) (hi : i < bs.length) : Falls bs k i ↔ i = k := by
  have hcount : ∀ j ≤ k, j ≤ bs.length → (bs.take j).count true = j := by
    intro j hj hl
    have hall : ∀ b ∈ bs.take j, true = b := fun b hb =>
      (h b (List.take_subset_take_left _ hj hb)).symm
    rw [List.count_eq_length.2 hall, List.length_take_of_le hl]
  constructor
  · intro hf
    rcases Nat.lt_trichotomy i k with hik | hik | hik
    · have := hf.1
      rw [hcount i hik.le hi.le] at this
      omega
    · exact hik
    · have := hf.2 k hik
      rw [hcount k le_rfl (by omega)] at this
      omega
  · rintro rfl
    refine ⟨hcount i le_rfl hi.le, fun j hj => ?_⟩
    rw [hcount j hj.le (by omega)]
    exact hj

/-- Behind its step, the fault makes no difference. -/
theorem exchanges_spent (hm : m.Reliable) (hm' : m'.Reliable) (hc : m'.contents = m.contents)
    (hs : f.step < m'.steps) (us : List Use) : (m'.failing f).exchanges us = m.exchanges us := by
  induction us generalizing m m' with
  | nil => rfl
  | cons u us ih =>
    cases u with
    | add v => exact ih (hm.add v) (hm'.add v) (congrArg (· ++ [v]) hc) hs
    | ask r =>
      obtain ⟨k, hk⟩ := hm.next_counted r
      obtain ⟨k', hk'⟩ := hm'.next_counted r
      have ha : (NameIterator.next m' r).1 = (NameIterator.next m r).1 := by
        rw [hm'.next_eq, hm.next_eq, genuine_congr hc]
      rw [exchanges, exchanges, next_failing hm' hs.ne', hk, hk', ha]
      exact congrArg _ (ih (hm.asked _ k) (hm'.asked _ k') hc (Nat.lt_add_right _ hs))

/-- **A fault replaces the answer to the call that it falls on**, and no other. -/
theorem exchanges_failing (hm : m.Reliable) (hk : m.steps + k = f.step) (us : List Use) (i : Nat) :
    ((m.failing f).exchanges us)[i]? = (m.exchanges us)[i]?.map fun e =>
      if Falls (known m.contents us) k i then e.failed f.status else e := by
  induction us generalizing m k i with
  | nil => rfl
  | cons u us ih =>
    cases u with
    | add v => exact ih (hm.add v) hk i
    | ask r =>
      obtain ⟨l, hl⟩ := hm.next_counted r
      rw [exchanges, exchanges, known]
      cases k with
      | zero =>
        -- the fault falls on this very call, and is spent behind it
        have hm' : (NameIterator.next m r).2.Reliable := hl ▸ hm.asked _ l
        have hc : m.counted.contents = (NameIterator.next m r).2.contents := by rw [hl]; rfl
        have hs : f.step < m.counted.steps := by show f.step < m.steps + 1; omega
        have hrest : (m.failing f).counted.exchanges us = (NameIterator.next m r).2.exchanges us :=
          exchanges_spent hm' (hm.asked 1 0) hc hs us
        rw [next_fault hm hk, hrest]
        cases i with
        | zero => simp [falls_zero, Exchange.failed]
        | succ i => simp [falls_zero]
      | succ k =>
        rw [next_failing hm (by omega), hl]
        cases i with
        | zero => simp [not_falls_first]
        | succ i =>
          -- behind a counted call, the fault waits for one call less
          have hk' : (m.asked (if Known m.contents r.toCursor then 1 else 0) l).steps +
              (if Known m.contents r.toCursor then k else k + 1) = f.step := by
            rw [steps_asked]
            split <;> omega
          simp only [List.getElem?_cons_succ, falls_succ, decide_eq_true_eq]
          exact ih (hm.asked _ l) hk' i

/-- **A fault falls on the call at its step, counted in calls with a known cursor.**
    Whatever is asked of a store since it was rewound, and added to it, the first call
    behind as many known cursors as the fault has steps gets the status of the fault
    and nothing else; every other call is answered as without it.  If the cursors of the
    first calls are all known, then it is the call at the step of the fault. -/
theorem fault_falls (hm : m.Reliable) (h0 : m.steps = 0) (f : Fault) (us : List Use) :
    (∀ i, ((m.failing f).exchanges us)[i]? = (m.exchanges us)[i]?.map fun e =>
      if Falls (known m.contents us) f.step i then e.failed f.status else e) ∧
    ((∀ b ∈ (known m.contents us).take f.step, b = true) →
      ∀ i, ((m.failing f).exchanges us)[i]? = (m.exchanges us)[i]?.map fun e =>
        if i = f.step then e.failed f.status else e) := by
  have hf := exchanges_failing (f := f) hm (by rw [h0, Nat.zero_add]) us
  refine ⟨hf, ?_⟩
  intro hall i
  rw [hf i]
  cases he : (m.exchanges us)[i]? with
  | none => rfl
  | some e =>
    have hi : i < (known m.contents us).length := by
      rw [length_known hm]
      exact (List.getElem?_eq_some_iff.1 he).1
    simp only [Option.map_some, falls_iff hall hi]

/-- A store with one variable. -/
def lone : MemoryStore := { contents := [.ofText .global "Boot0000"] }

/-- A question in front of all variables, with a buffer of ten units. -/
def opening : Request := (Cursor.start 10).request

/-- A question behind a variable that the store `lone` does not hold. -/
def stray : Request := (Cursor.mk (Units.terminated "Boot0001") .global).request

theorem fault_falls_behindStray :
    ((lone.failing ⟨1, ⟨2⟩⟩).exchanges [.ask stray, .ask opening, .ask stray])[2]? =
      some ⟨stray, stray.refused ⟨2⟩⟩ ∧
    ((lone.failing ⟨1, ⟨2⟩⟩).exchanges
      [.ask opening, .add (.ofText .zero "Boot0001"), .ask stray, .ask opening])[1]? =
      some ⟨stray, stray.refused ⟨2⟩⟩ := by
  have hm : lone.Reliable := ⟨rfl, rfl⟩
  constructor
  · exact ((fault_falls hm rfl ⟨1, ⟨2⟩⟩ _).1 2).trans (by decide)
  · exact ((fault_falls hm rfl ⟨1, ⟨2⟩⟩ _).2 (by decide) 1).trans (by decide)

/-- A call with an unknown cursor puts the fault off: not every fault falls on the call
    at its step. -/
theorem fault_put_off : ¬ ∀ (m : MemoryStore) (f : Fault) (us : List Use), m.Reliable →
    m.steps = 0 → ∀ i, ((m.failing f).exchanges us)[i]? = (m.exchanges us)[i]?.map fun e =>
      if i = f.step then e.failed f.status else e := by
  intro h
  exact absurd (h lone ⟨1, ⟨2⟩⟩ [.ask stray, .ask stray] ⟨rfl, rfl⟩ rfl 1) (by decide)

end MemoryStore

end BootOptions
