/-
  Boot options — scanning a memory store.

  * `growths c vs`: how often a buffer of `c` units has to be extended for the
    names of the variables `vs`, one after the other.
  * `Collects`: a walk takes in some variables, with a question for each and one
    more for each growth; `collects_all`: it takes in all that fit.
  * `scan_contents`: a scan lists the boot options of the store, or fails at the
    first name beyond its limit.
-/
import Mathlib.Data.Fintype.Fin
import BootOptions.Proofs.MemoryStore
import BootOptions.Proofs.Outcome

namespace BootOptions

/-! ## Growth -/

/-- The number of variables whose name is longer than `c` units and than all
    names in front of it. -/
def growths (c : Nat) (vs : List Variable) : Nat :=
  (Finset.univ.filter fun i : Fin vs.length => c < (vs.get i).stored.length ∧
    ∀ j < i, (vs.get j).stored.length < (vs.get i).stored.length).card

/-- The growths of the first buffer of a scan. -/
def ScanConfig.growths (cfg : ScanConfig) (vs : List Variable) : Nat :=
  BootOptions.growths cfg.start.buffer.length vs

theorem growths_cons_eq_ite (c : Nat) (v : Variable) (vs : List Variable) :
    growths c (v :: vs) =
      (if c < v.stored.length then 1 else 0) + growths (max c v.stored.length) vs := by
  refine (Fin.card_filter_univ_succ' (n := vs.length) _).trans ?_
  congr 1
  · simp
  · unfold growths
    congr 1
    ext i
    simp [Fin.forall_fin_succ, and_assoc]

theorem growths_singleton (c : Nat) (v : Variable) :
    growths c [v] = if c < v.stored.length then 1 else 0 := growths_cons_eq_ite c v []

theorem growths_cons (c : Nat) (v : Variable) (vs : List Variable) :
    growths c (v :: vs) = growths c [v] + growths (max c v.stored.length) vs := by
  rw [growths_cons_eq_ite, growths_singleton]

theorem growths_le (c : Nat) (vs : List Variable) : growths c vs ≤ vs.length := by
  simpa [growths] using Finset.card_filter_le (Finset.univ : Finset (Fin vs.length)) _

/-! ## Sound stores -/

namespace MemoryStore

/-- The store can be walked and has no fault. -/
structure Reliable (m : MemoryStore) : Prop where
  available : m.available = true
  faultless : m.fault = none

/-- The store can be walked, has no fault, and its variables can be told apart. -/
structure Sound (m : MemoryStore) : Prop where
  available : m.available = true
  faultless : m.fault = none
  wellNamed : WellNamed m.contents

/-- The store after `n` more answers, `k` of them requests for a larger buffer. -/
def asked (m : MemoryStore) (n k : Nat) : MemoryStore :=
  { m with steps := m.steps + n, resizeRequests := m.resizeRequests + k }

theorem asked_asked (m : MemoryStore) (n k n' k' : Nat) :
    (m.asked n k).asked n' k' = m.asked (n + n') (k + k') := by
  simp [asked, Nat.add_assoc]

variable {m : MemoryStore}

theorem Sound.asked (h : m.Sound) (n k : Nat) : (m.asked n k).Sound :=
  ⟨h.available, h.faultless, h.wellNamed⟩

theorem Sound.reliable (h : m.Sound) : m.Reliable := ⟨h.available, h.faultless⟩

theorem Reliable.asked (h : m.Reliable) (n k : Nat) : (m.asked n k).Reliable :=
  ⟨h.available, h.faultless⟩

theorem Reliable.next_eq (h : m.Reliable) (r : Request) : NameIterator.next m r = m.genuine r := by
  refine answer_eq_genuine h.available ?_ r
  rw [due, h.faultless]; rfl

theorem Sound.next_eq (h : m.Sound) (r : Request) : NameIterator.next m r = m.genuine r :=
  h.reliable.next_eq r

end MemoryStore

/-! ## The walk -/

namespace Walk

/-- By the exchanges `es`, the walk `w` takes in the variables `vs` of `m` and
    becomes `w'`. -/
structure Collects (cfg : ScanConfig) (w : Walk) (m : MemoryStore) (vs : List Variable)
    (es : List Exchange) (w' : Walk) : Prop where
  steps : ∃ ns, Steps cfg w m es ns w' (m.asked es.length (growths w.cursor.buffer.length vs))
  calls : es.length = vs.length + growths w.cursor.buffer.length vs
  resizes : resizesOf es = growths w.cursor.buffer.length vs
  options : w'.options = w.options ++ vs.filterMap Variable.option?

variable {cfg : ScanConfig} {m : MemoryStore} {w w₁ w' : Walk} {before after vs : List Variable}
  {v : Variable} {es es' : List Exchange}

theorem Collects.nil : Collects cfg w m [] [] w :=
  ⟨⟨[], .refl⟩, rfl, rfl, by simp⟩

theorem Collects.cons {k : Nat} (h : Collects cfg w m [v] es w₁) (hk : resizesOf es = k)
    (hl : w₁.cursor.buffer.length = max w.cursor.buffer.length v.stored.length)
    (h' : Collects cfg w₁ (m.asked es.length k) vs es' w') :
    Collects cfg w m (v :: vs) (es ++ es') w' := by
  obtain rfl := hk.symm.trans h.resizes
  have hg : growths w.cursor.buffer.length [v] + growths w₁.cursor.buffer.length vs =
      growths w.cursor.buffer.length (v :: vs) := by rw [hl, ← growths_cons]
  obtain ⟨ns, hs⟩ := h.steps
  obtain ⟨ns', hs'⟩ := h'.steps
  refine ⟨⟨ns ++ ns', ?_⟩, ?_, ?_, ?_⟩
  · rw [← hg, List.length_append, ← MemoryStore.asked_asked]
    exact hs.trans hs'
  · have := h.calls
    have := h'.calls
    simp only [List.length_append, List.length_cons, List.length_nil] at *
    omega
  · rw [← hg, ← h.resizes, ← h'.resizes, resizesOf, List.countP_append]; rfl
  · rw [h'.options, h.options, List.append_assoc, ← List.filterMap_append]; rfl

/-- The walk behind a variable that fits. -/
def on (w : Walk) (v : Variable) : Walk :=
  ⟨⟨w.cursor.buffer.overwrite v.stored, v.guid⟩, w.visited + 1, w.options ++ v.option?.toList⟩

theorem isAt_on (h : v.stored.length ≤ w.cursor.buffer.length) : v.isAt (w.on v).cursor = true :=
  Variable.isAt_iff.2 ⟨rfl, (v.stem_overwrite h).symm⟩

section
variable (hm : m.Reliable) (hv : m.contents = before ++ v :: after)
  (hc : m.after? w.cursor = some before.length)
include hm hv hc

theorem next_fits (hl : v.stored.length ≤ w.cursor.buffer.length) :
    ∃ a, NameIterator.next m w.cursor.request = (a, m.asked 1 0) ∧ a.status = .success ∧
      w.behind a = w.on v := by
  have hs : v.byteSize ≤ w.cursor.request.size := Nat.mul_le_mul_left 2 hl
  have hn := (hm.next_eq w.cursor.request).trans (MemoryStore.genuine_fits hc (by simp [hv]) hs hl)
  refine ⟨_, hn, rfl, ?_⟩
  have ho : BootOption.ofVariable? v.guid (w.cursor.buffer.overwrite v.stored) = v.option? :=
    BootOption.ofVariable?_congr (v.stem_overwrite hl)
  rw [on, ← ho]; rfl

theorem steps_fits (cfg : ScanConfig) (hl : v.stored.length ≤ w.cursor.buffer.length) :
    ∃ e ns, Steps cfg w m [e] ns (w.on v) (m.asked 1 0) ∧ e.answer.status = .success := by
  obtain ⟨a, hn, hst, hb⟩ := next_fits hm hv hc hl
  have hstep : w.step cfg a = .more (w.on v) (a.notices cfg) := hb ▸ step_eq_iff.2 (.told hst)
  exact ⟨_, _, .single hn hstep, hst⟩

/-- The store asks for exactly the length of the stored name. -/
theorem next_short (hl : w.cursor.buffer.length < v.stored.length) :
    ∃ a, NameIterator.next m w.cursor.request = (a, m.asked 1 1) ∧ a.status = .bufferTooSmall ∧
      a.toCursor = w.cursor ∧ a.size = 2 * v.stored.length ∧ a.needed = v.stored.length := by
  have hn := (hm.next_eq w.cursor.request).trans
    (MemoryStore.genuine_short hc (by simp [hv]) (Or.inr hl))
  refine ⟨_, hn, rfl, rfl, rfl, ?_⟩
  simp only [Answer.needed, Variable.byteSize]; omega

theorem steps_short (hl : w.cursor.buffer.length < v.stored.length)
    (hlim : v.stored.length ≤ cfg.limit) :
    ∃ e ns, Steps cfg w m [e] ns { w with cursor := w.cursor.resize v.stored.length } (m.asked 1 1) ∧
      e.answer.status = .bufferTooSmall := by
  obtain ⟨a, hn, hst, hcur, -, hneed⟩ := next_short hm hv hc hl
  have hstep : w.step cfg a = .more { w with cursor := w.cursor.resize v.stored.length } [] := by
    have := step_eq_iff.2 (.larger (w := w) hst (by rw [hneed, hcur]; exact hl) (by rwa [hneed]))
    rwa [hneed, hcur] at this
  exact ⟨_, _, .single hn hstep, hst⟩

/-- A variable within the limit is taken in, if need be behind a growth. -/
theorem collects_one (hw : WellNamed (before ++ [v])) (cfg : ScanConfig)
    (hlim : v.stored.length ≤ cfg.limit) :
    ∃ es w', Collects cfg w m [v] es w' ∧ m.after? w'.cursor = some (before.length + 1) ∧
      w'.cursor.buffer.length = max w.cursor.buffer.length v.stored.length := by
  have ho : v.option?.toList = [v].filterMap Variable.option? := by
    rw [List.filterMap_cons]; cases v.option? <;> rfl
  by_cases hl : w.cursor.buffer.length < v.stored.length
  -- the extended buffer holds the old name: the store finds the same successor again
  · obtain ⟨e, ns, hs, he⟩ := steps_short hm hv hc hl hlim
    let w₁ : Walk := { w with cursor := w.cursor.resize v.stored.length }
    have hl₁ : v.stored.length ≤ w₁.cursor.buffer.length := (Cursor.length_resize ..).ge
    have hc₁ : (m.asked 1 1).after? w₁.cursor = some before.length :=
      (MemoryStore.after?_resize ((Units.length_stem_le _).trans hl.le)).trans hc
    obtain ⟨e', ns', hs', he'⟩ := steps_fits (hm.asked 1 1) hv hc₁ cfg hl₁
    have hg : growths w.cursor.buffer.length [v] = 1 := by rw [growths_singleton, if_pos hl]
    refine ⟨[e] ++ [e'], w₁.on v, ⟨⟨ns ++ ns', ?_⟩, ?_, ?_, congrArg (w.options ++ ·) ho⟩,
      MemoryStore.after?_of_first hw hv (isAt_on hl₁), ?_⟩
    · rw [hg]; exact hs.trans hs'
    · rw [hg]; rfl
    · rw [hg, List.singleton_append, resizesOf_cons_small _ he, resizesOf_cons_told _ he']; rfl
    · simp [on, w₁, hl.le]
  · have hl' := Nat.le_of_not_lt hl
    obtain ⟨e, ns, hs, he⟩ := steps_fits hm hv hc cfg hl'
    have hg : growths w.cursor.buffer.length [v] = 0 := by rw [growths_singleton, if_neg hl]
    refine ⟨[e], w.on v, ⟨⟨ns, ?_⟩, ?_, ?_, congrArg (w.options ++ ·) ho⟩,
      MemoryStore.after?_of_first hw hv (isAt_on hl'), ?_⟩
    · rw [hg]; exact hs
    · rw [hg]; rfl
    · rw [hg, resizesOf_cons_told _ he]; rfl
    · simp [on, hl']

end

/-- **A walk takes in all variables in front of it**, up to one beyond the limit. -/
theorem collects_all (hm : m.Reliable) (hw : WellNamed (before ++ vs))
    (hv : m.contents = before ++ (vs ++ after))
    (hc : m.after? w.cursor = some before.length) (hlim : ∀ v ∈ vs, v.stored.length ≤ cfg.limit) :
    ∃ es w', Collects cfg w m vs es w' ∧ m.after? w'.cursor = some (before.length + vs.length) := by
  induction vs generalizing before m w with
  | nil => exact ⟨[], w, .nil, hc⟩
  | cons v vs ih =>
    rw [List.append_cons] at hw
    obtain ⟨es, w₁, h, hc₁, hl⟩ := collects_one hm hv hc hw.append_left cfg (hlim v (by simp))
    have hv₁ : m.contents = (before ++ [v]) ++ (vs ++ after) := by simpa using hv
    obtain ⟨es', w', h', hc'⟩ := ih (hm.asked es.length (resizesOf es)) hw hv₁
      (by rw [List.length_append]; exact hc₁) fun u hu => hlim u (by simp [hu])
    refine ⟨es ++ es', w', h.cons rfl hl h', ?_⟩
    rw [List.length_append] at hc'
    rw [List.length_cons, Nat.add_comm vs.length, ← Nat.add_assoc]
    exact hc'

end Walk

/-! ## The scan -/

namespace MemoryStore

variable {m : MemoryStore} {cfg : ScanConfig} {fuel : Nat}

/-- The first cursor stands in front of all variables. -/
theorem after?_start : m.after? cfg.start = some 0 := after?_of_empty (Cursor.name_start _)

theorem scan_fits (hm : m.Sound) (hlim : ∀ v ∈ m.contents, v.stored.length ≤ cfg.limit)
    (hf : m.contents.length + cfg.growths m.contents < fuel) :
    ∃ es e ns, scan cfg fuel m = ⟨some (.ok (m.contents.filterMap Variable.option?)), es ++ [e], ns,
        m.asked (es.length + 1) (cfg.growths m.contents)⟩ ∧
      es.length = m.contents.length + cfg.growths m.contents ∧
      resizesOf (es ++ [e]) = cfg.growths m.contents := by
  have hv : m.contents = [] ++ (m.contents ++ []) := by simp
  have hw : WellNamed ([] ++ m.contents) := hm.wellNamed
  obtain ⟨es, w', h, hc⟩ :=
    Walk.collects_all (w := ⟨cfg.start, 0, []⟩) hm.reliable hw hv after?_start hlim
  obtain ⟨ns, hs⟩ := h.steps
  -- behind all variables, the store has no further one
  rw [List.length_nil, Nat.zero_add] at hc
  have hn := ((hm.asked es.length (cfg.growths m.contents)).next_eq w'.cursor.request).trans
    (genuine_end hc (by simp [asked]))
  have hd : w'.step cfg (w'.cursor.request.refused .notFound) = .done (.ok w'.options) _ :=
    Walk.step_eq_iff.2 (.exhausted rfl)
  rw [h.options] at hd
  have hrun := (scan_of_available hm.available cfg fuel).trans (hs.run_done hn hd (h.calls ▸ hf))
  refine ⟨es, _, _, hrun, h.calls, ?_⟩
  rw [resizesOf, List.countP_append, ← resizesOf, h.resizes]
  rfl

/-- A name that is too long ends a scan, whatever stands behind it. -/
theorem Reliable.scan_tooLong (hm : m.Reliable) {before after : List Variable} {v : Variable}
    (hw : WellNamed before) (hv : m.contents = before ++ v :: after)
    (hlim : ∀ u ∈ before, u.stored.length ≤ cfg.limit) (hl : cfg.limit < v.stored.length)
    (hf : before.length + cfg.growths before < fuel) :
    (scan cfg fuel m).result = some (.error (.nameTooLong (2 * v.stored.length))) := by
  have hv' : m.contents = [] ++ (before ++ v :: after) := hv
  have hw' : WellNamed ([] ++ before) := hw
  obtain ⟨es, w', h, hc⟩ := Walk.collects_all (w := ⟨cfg.start, 0, []⟩) hm hw' hv' after?_start hlim
  obtain ⟨ns, hs⟩ := h.steps
  have hlen : w'.cursor.buffer.length ≤ cfg.limit := hs.length_le cfg.length_start_le
  rw [List.length_nil, Nat.zero_add] at hc
  obtain ⟨a, hn, hst, -, hsize, hneed⟩ :=
    Walk.next_short (hm.asked es.length (cfg.growths before)) hv hc (Nat.lt_of_le_of_lt hlen hl)
  have hd := Walk.step_eq_iff.2 (.tooLong (w := w') hst (hneed ▸ hl))
  rw [scan_of_available hm.available, hs.run_done hn hd (h.calls ▸ hf), hsize]

theorem scan_tooLong (hm : m.Sound) {before after : List Variable} {v : Variable}
    (hv : m.contents = before ++ v :: after) (hlim : ∀ u ∈ before, u.stored.length ≤ cfg.limit)
    (hl : cfg.limit < v.stored.length)
    (hf : before.length + cfg.growths before < fuel) :
    (scan cfg fuel m).result = some (.error (.nameTooLong (2 * v.stored.length))) := by
  have hw := hm.wellNamed
  rw [hv] at hw
  exact hm.reliable.scan_tooLong hw.append_left hv hlim hl hf

/-- **A scan of a store lists its boot options**, in order and each once, or
    fails at the first name that is too long.  It asks once for each variable,
    once more for each growth, and once for the end. -/
theorem scan_contents (hm : m.Sound) (cfg : ScanConfig) :
    ((∀ v ∈ m.contents, v.stored.length ≤ cfg.limit) →
      ∃ options, Listed m.contents options ∧
        ∀ fuel, m.contents.length + 1 + cfg.growths m.contents ≤ fuel →
          (scan cfg fuel m).result = some (.ok options) ∧
          (scan cfg fuel m).exchanges.length = m.contents.length + 1 + cfg.growths m.contents ∧
          resizesOf (scan cfg fuel m).exchanges = cfg.growths m.contents ∧
          (scan cfg fuel m).store =
            m.asked (m.contents.length + 1 + cfg.growths m.contents) (cfg.growths m.contents)) ∧
    ∀ before v after, m.contents = before ++ v :: after →
      (∀ u ∈ before, u.stored.length ≤ cfg.limit) → cfg.limit < v.stored.length →
      ∃ n, ∀ fuel, n ≤ fuel →
        (scan cfg fuel m).result = some (.error (.nameTooLong (2 * v.stored.length))) := by
  constructor
  · intro hlim
    refine ⟨_, listed_iff.2 rfl, ?_⟩
    intro fuel hf
    obtain ⟨es, e, ns, hscan, hlen, hr⟩ := scan_fits hm hlim (show _ < fuel by omega)
    have hcalls : es.length + 1 = m.contents.length + 1 + cfg.growths m.contents := by omega
    rw [hscan, ← hcalls]
    exact ⟨rfl, by simp, hr, rfl⟩
  · intro before v after hv hlim hl
    refine ⟨before.length + cfg.growths before + 1, ?_⟩
    intro fuel hf
    exact scan_tooLong hm hv hlim hl hf

/-- A store with a foreign option, a zero inside a name and a name of another kind. -/
def mixed : MemoryStore where
  contents := [.ofText .zero "Boot0001", ⟨.global, Utf16.encode "Boot00aF".toList ++ [0, 0x41]⟩,
    .ofText .global "BootOrder", .ofText .global "Boot0001"]

theorem scan_contents_mixed :
    mixed.Sound ∧
    (scan ⟨4, 12, true⟩ 7 mixed).result = some (.ok [⟨"Boot00aF", 0xAF⟩, ⟨"Boot0001", 1⟩]) ∧
    (scan ⟨4, 12, true⟩ 7 mixed).exchanges.length = 7 ∧
    (scan ⟨4, 12, true⟩ 7 mixed).store.resizeRequests = 2 ∧
    ∃ n, ∀ fuel, n ≤ fuel →
      (scan ⟨4, 10, true⟩ fuel mixed).result = some (.error (.nameTooLong 22)) := by
  have hm : mixed.Sound := ⟨rfl, rfl, by decide, by decide⟩
  have hg : (ScanConfig.mk 4 12 true).growths mixed.contents = 2 := by decide
  have ho : mixed.contents.filterMap Variable.option? = [⟨"Boot00aF", 0xAF⟩, ⟨"Boot0001", 1⟩] := by
    decide
  obtain ⟨os, hl, h⟩ := (scan_contents hm ⟨4, 12, true⟩).1 (by decide)
  obtain ⟨hr, hlen, -, hs⟩ := h 7 (by rw [hg]; decide)
  rw [← listed_iff.1 hl, ho] at hr
  refine ⟨hm, hr, by rw [hlen, hg]; decide, by rw [hs, hg]; decide, ?_⟩
  exact (scan_contents hm ⟨4, 10, true⟩).2 [_] _ [_, _] rfl (by decide) (by decide)

end MemoryStore

end BootOptions
