/-
  Boot options — scanning a memory store with a fault.

  A fault replaces one answer of a store, counted from the last rewind.  Up to
  that answer the store is as good as one without a fault; the answer itself
  leaves the cursor alone, so whatever its status is, no scan goes on behind it.

  * `failing f`: the store with the fault `f`; `next_failing`: it differs in its
    answer at the step of `f` alone.
  * `Steps.counted`: a walk that goes on has all its questions counted, and
    `Steps.failing`: in front of the fault it goes on in the same way.
  * `fault_cases`: a walk ends in front of the fault as without it, or reaches it.
  * `fault_surfaces`: the fault is the result of a scan that reaches it.
-/
import BootOptions.Proofs.CursorProtocol
import BootOptions.Proofs.MemoryScan

namespace BootOptions

/-! ## Stores with a fault -/

namespace MemoryStore

/-- The store with a fault. -/
def failing (m : MemoryStore) (f : Fault) : MemoryStore := { m with fault := some f }

variable {m : MemoryStore} {f : Fault}

theorem steps_asked (n k : Nat) : (m.asked n k).steps = m.steps + n := rfl

/-- Every answer is counted, but for the one to an unknown cursor. -/
theorem genuine_asked (m : MemoryStore) (r : Request) : ∃ n k, (m.genuine r).2 = m.asked n k ∧
    ((m.genuine r).1.status ≠ .invalidParameter → n = 1) := by
  unfold genuine
  split
  · exact ⟨0, 0, rfl, fun h => absurd rfl h⟩
  · split
    · exact ⟨1, 0, rfl, fun _ => rfl⟩
    · split
      · exact ⟨1, 1, rfl, fun _ => rfl⟩
      · exact ⟨1, 0, rfl, fun _ => rfl⟩

/-- The genuine answer does not depend on the fault. -/
theorem genuine_failing (m : MemoryStore) (f : Fault) (r : Request) :
    (m.failing f).genuine r = ((m.genuine r).1, (m.genuine r).2.failing f) := by
  have ha : (m.failing f).after? r.toCursor = m.after? r.toCursor := rfl
  have hc : (m.failing f).contents = m.contents := rfl
  unfold genuine
  rw [ha, hc]
  split
  · rfl
  · split
    · rfl
    · split <;> rfl

/-- At any other step than that of the fault, the answer is that without it. -/
theorem next_failing (hm : m.Reliable) (hf : m.steps ≠ f.step) (r : Request) :
    NameIterator.next (m.failing f) r =
      ((NameIterator.next m r).1, (NameIterator.next m r).2.failing f) := by
  have hd : (m.failing f).due = none := if_neg (Ne.symm hf)
  have ha : (m.failing f).available = true := hm.available
  rw [hm.next_eq, ← genuine_failing]
  exact answer_eq_genuine ha hd r

theorem next_fault (hm : m.Reliable) (hf : m.steps = f.step) (r : Request) :
    NameIterator.next (m.failing f) r = (r.refused f.status, (m.failing f).counted) := by
  have hd : (m.failing f).due = some f.status := if_pos hf.symm
  have ha : (m.failing f).available = true := hm.available
  show (m.failing f).answer r = _
  rw [answer, if_pos ha, hd]

end MemoryStore

/-! ## Walks -/

namespace Walk

variable {cfg : ScanConfig} {w w' : Walk} {m m' : MemoryStore} {f : Fault} {es : List Exchange}
  {ns : List Notice}

/-- A walk goes on behind counted answers alone. -/
theorem next_counted (hm : m.Reliable)
    (h : w.step cfg (NameIterator.next m w.cursor.request).1 = .more w' ns) :
    ∃ k, (NameIterator.next m w.cursor.request).2 = m.asked 1 k := by
  rw [hm.next_eq] at h ⊢
  obtain ⟨n, k, hs, hn⟩ := m.genuine_asked w.cursor.request
  obtain rfl : n = 1 := by
    apply hn
    rcases step_more h with ⟨hs, -⟩ | ⟨hs, -⟩
    · rw [hs]; decide
    · rw [hs]; decide
  exact ⟨k, hs⟩

theorem Steps.counted (h : Steps cfg w m es ns w' m') (hm : m.Reliable) :
    m'.Reliable ∧ m'.steps = m.steps + es.length := by
  induction h with
  | refl => exact ⟨hm, rfl⟩
  | cons hs _ ih =>
    obtain ⟨k, hk⟩ := next_counted hm hs
    rw [hk] at ih
    obtain ⟨hr, hsteps⟩ := ih (hm.asked 1 k)
    refine ⟨hr, ?_⟩
    rw [hsteps, List.length_cons, MemoryStore.steps_asked]
    omega

/-- In front of the fault, a walk goes on as without it. -/
theorem Steps.failing (h : Steps cfg w m es ns w' m') (hm : m.Reliable)
    (hf : m.steps + es.length ≤ f.step) : Steps cfg w (m.failing f) es ns w' (m'.failing f) := by
  induction h with
  | refl => exact .refl
  | @cons w w₁ _ m _ es ns₁ _ hs _ ih =>
    rw [List.length_cons] at hf
    have hn := MemoryStore.next_failing hm (f := f) (by omega) w.cursor.request
    obtain ⟨k, hk⟩ := next_counted hm hs
    have hrest := ih (hk ▸ hm.asked 1 k) (by rw [hk, MemoryStore.steps_asked]; omega)
    have hstep : w.step cfg (NameIterator.next (m.failing f) w.cursor.request).1 = .more w₁ ns₁ := by
      rw [hn]; exact hs
    have hcons := Steps.cons hstep (by rw [hn]; exact hrest)
    rwa [hn] at hcons

/-- A walk through a store with a fault either ends in front of the fault, as it
    does without it, or reaches it. -/
theorem fault_cases (cfg : ScanConfig) (w : Walk) (hm : m.Reliable) (hf : m.steps ≤ f.step) :
    (∃ r es ns m', es.length ≤ f.step - m.steps ∧ ∀ fuel, es.length ≤ fuel →
      run cfg fuel w m = ⟨some r, es, ns, m'⟩ ∧
      run cfg fuel w (m.failing f) = ⟨some r, es, ns, m'.failing f⟩) ∨
    ∃ es ns w' m', es.length = f.step - m.steps ∧ Steps cfg w m es ns w' m' ∧
      Steps cfg w (m.failing f) es ns w' (m'.failing f) ∧
      NameIterator.next (m'.failing f) w'.cursor.request =
        (w'.cursor.request.refused f.status, (m'.failing f).counted) := by
  rcases run_cases cfg (f.step - m.steps) w m with
    ⟨es, ns, w', m', hs, hl, -⟩ | ⟨es, ns, w', m', r, n, hs, hd, hr⟩
  · have hs' := hs.failing hm (show m.steps + es.length ≤ f.step by omega)
    obtain ⟨hm', hsteps⟩ := hs.counted hm
    exact Or.inr ⟨es, ns, w', m', hl, hs, hs', MemoryStore.next_fault hm' (by omega) _⟩
  · have hlen : es.length + 1 ≤ f.step - m.steps := by
      have hle : (run cfg (f.step - m.steps) w m).exchanges.length ≤ f.step - m.steps :=
        length_exchanges_le
      rwa [hr, List.length_append] at hle
    have hs' := hs.failing hm (show m.steps + es.length ≤ f.step by omega)
    obtain ⟨hm', hsteps⟩ := hs.counted hm
    have hn := MemoryStore.next_failing hm' (f := f) (by omega) w'.cursor.request
    refine Or.inl ⟨r, es ++ [⟨w'.cursor.request, (NameIterator.next m' w'.cursor.request).1⟩],
      ns ++ [n], (NameIterator.next m' w'.cursor.request).2,
      by rw [List.length_append]; exact hlen, ?_⟩
    intro fuel hfuel
    rw [List.length_append] at hfuel
    exact ⟨hs.run_done rfl hd hfuel, hs'.run_done hn hd hfuel⟩

/-- A status that is neither a variable nor the end of them fails a walk, with
    the cursor left alone. -/
theorem step_refused {s : Status} (hs : s ≠ .success) (hn : s ≠ .notFound)
    (hl : w.cursor.buffer.length ≤ cfg.limit) :
    w.step cfg (w.cursor.request.refused s) = w.fail s := by
  have hneed : (w.cursor.request.refused s).needed = w.cursor.buffer.length := by
    show (2 * w.cursor.buffer.length + 1) / 2 = w.cursor.buffer.length
    omega
  exact step_eq_iff.2 (.failed hs hn fun _ => ⟨hneed.le, hneed.trans_le hl⟩)

/-- The end of the variables ends a walk as well. -/
theorem step_refused_done {s : Status} (hs : s ≠ .success) (hl : w.cursor.buffer.length ≤ cfg.limit) :
    ∃ r n, w.step cfg (w.cursor.request.refused s) = .done r n := by
  by_cases hn : s = .notFound
  · exact ⟨_, _, step_eq_iff.2 (.exhausted hn)⟩
  · exact ⟨_, _, step_refused hs hn hl⟩

/-- With calls left, a walk that went on asks from the cursor it came to. -/
theorem Steps.exchanges_run {σ : Type} [VariableStore σ] {s s' : σ}
    (h : Steps cfg w s es ns w' s') {fuel : Nat} (hf : es.length < fuel) :
    ∃ e rest, (Walk.run cfg fuel w s).exchanges = es ++ e :: rest ∧
      e.request = w'.cursor.request := by
  obtain ⟨k, rfl⟩ := Nat.exists_eq_add_of_le hf.le
  have hk : k ≠ 0 := by omega
  rcases hr : (Walk.run cfg k w' s').exchanges with _ | ⟨e, rest⟩
  · exact absurd (run_eq_nil_iff.1 hr) hk
  · exact ⟨e, rest, by rw [h.run, ← hr], head_run (by rw [hr]; rfl)⟩

end Walk

/-! ## Scans -/

/-- The error of a scan that a status ends behind the exchanges `before`. -/
def ScanError.behind (before : List Exchange) (status : Status) : ScanError :=
  if visitsOf before = 0 then .storeUnavailable status
  else .iterationFailed status (visitsOf before)

namespace MemoryStore

variable {m : MemoryStore} {f : Fault}

/-- **A fault surfaces.**  If a scan of the store without the fault asks as far
    as the step of the fault, the scan with it asks the same up to there and
    fails with the status of the fault, whatever was asked for before; if not,
    the fault makes no difference. -/
theorem fault_surfaces (hm : m.Reliable) (h0 : m.steps = 0) (hs : f.status ≠ .success)
    (hn : f.status ≠ .notFound) (cfg : ScanConfig) :
    (∀ N e, (scan cfg N m).exchanges[f.step]? = some e → ∀ fuel, f.step < fuel →
      (scan cfg fuel (m.failing f)).exchanges =
        (scan cfg N m).exchanges.take f.step ++ [⟨e.request, e.request.refused f.status⟩] ∧
      (scan cfg fuel (m.failing f)).exchanges.length = f.step + 1 ∧
      (scan cfg fuel (m.failing f)).result =
        some (.error (.behind ((scan cfg N m).exchanges.take f.step) f.status))) ∧
    ((∀ N, (scan cfg N m).exchanges.length ≤ f.step) → ∃ r es, ∀ fuel, f.step ≤ fuel →
      (scan cfg fuel m).result = some r ∧ (scan cfg fuel m).exchanges = es ∧
      (scan cfg fuel (m.failing f)).result = some r ∧
      (scan cfg fuel (m.failing f)).exchanges = es) := by
  have ha : VariableStore.isAvailable m = true := hm.available
  have ha' : VariableStore.isAvailable (m.failing f) = true := hm.available
  simp only [scan_of_available ha, scan_of_available ha']
  rcases Walk.fault_cases cfg ⟨cfg.start, 0, []⟩ hm (f := f) (by omega) with
    ⟨r, es, ns, m', hl, hr⟩ | ⟨es, ns, w', m', hl, hsteps, hsteps', hnext⟩
  · rw [h0, Nat.sub_zero] at hl
    constructor
    · intro N e he
      -- the scan is over before it has asked that often
      have hlt := (List.getElem?_eq_some_iff.1 he).1
      have hN := Nat.lt_of_lt_of_le hlt Walk.length_exchanges_le
      rw [(hr N (by omega)).1] at hlt
      exact absurd hl (Nat.not_le.2 hlt)
    · intro _
      refine ⟨r, es, ?_⟩
      intro fuel hf
      obtain ⟨h, h'⟩ := hr fuel (by omega)
      rw [h, h']
      exact ⟨rfl, rfl, rfl, rfl⟩
  · rw [h0, Nat.sub_zero] at hl
    constructor
    · intro N e he fuel hf
      have hN := Nat.lt_of_lt_of_le (List.getElem?_eq_some_iff.1 he).1 Walk.length_exchanges_le
      obtain ⟨e', rest, hex, hreq⟩ := hsteps.exchanges_run (hl.trans_lt hN)
      have hd := Walk.step_refused hs hn (hsteps.length_le cfg.length_start_le)
      rw [hex, ← hl, List.getElem?_append_right (Nat.le_refl _), Nat.sub_self] at he
      cases he
      rw [hsteps'.run_done hnext hd (hl.trans_lt hf), hex, ← hl, List.take_left, hreq]
      refine ⟨rfl, by simp, ?_⟩
      rw [ScanError.behind, hsteps.visited_eq, Nat.zero_add]
    · intro hle
      obtain ⟨e', rest, hex, -⟩ := hsteps.exchanges_run (show es.length < f.step + 1 by omega)
      have hlen := hle (f.step + 1)
      rw [hex, List.length_append, List.length_cons] at hlen
      omega

/-- A store whose second name is longer than the first. -/
def longer : MemoryStore where
  contents := [.ofText .global "Boot0001", .ofText .global "BootOrder"]

/-- The fault comes for a buffer that has just grown, behind a variable; in front
    of all of them; and too late. -/
theorem fault_surfaces_afterGrowth :
    (scan ⟨4, 12, true⟩ 9 (longer.failing ⟨3, .bufferTooSmall⟩)).result =
      some (.error (.iterationFailed .bufferTooSmall 1)) ∧
    (scan ⟨4, 12, true⟩ 9 (longer.failing ⟨1, ⟨2⟩⟩)).result =
      some (.error (.storeUnavailable ⟨2⟩)) ∧
    ∃ r es, ∀ fuel, 7 ≤ fuel →
      (scan ⟨4, 12, true⟩ fuel longer).result = some r ∧
      (scan ⟨4, 12, true⟩ fuel longer).exchanges = es ∧
      (scan ⟨4, 12, true⟩ fuel (longer.failing ⟨7, ⟨2⟩⟩)).result = some r ∧
      (scan ⟨4, 12, true⟩ fuel (longer.failing ⟨7, ⟨2⟩⟩)).exchanges = es := by
  have hm : longer.Sound := ⟨rfl, rfl, by decide, by decide⟩
  have hg : (ScanConfig.mk 4 12 true).growths longer.contents = 2 := by decide
  have h5 : (scan ⟨4, 12, true⟩ 5 longer).exchanges.length = 5 := by decide
  refine ⟨?_, ?_, ?_⟩
  · have h := (fault_surfaces (f := ⟨3, .bufferTooSmall⟩) hm.reliable rfl (by decide) (by decide)
      ⟨4, 12, true⟩).1 5 _ (List.getElem?_eq_getElem (by rw [h5]; decide)) 9 (by decide)
    exact h.2.2.trans (by decide)
  · have h := (fault_surfaces (f := ⟨1, ⟨2⟩⟩) hm.reliable rfl (by decide) (by decide)
      ⟨4, 12, true⟩).1 5 _ (List.getElem?_eq_getElem (by rw [h5]; decide)) 9 (by decide)
    exact h.2.2.trans (by decide)
  · refine (fault_surfaces (f := ⟨7, ⟨2⟩⟩) hm.reliable rfl (by decide) (by decide)
      ⟨4, 12, true⟩).2 fun N => ?_
    show (scan ⟨4, 12, true⟩ N longer).exchanges.length ≤ 7
    rcases Nat.lt_or_ge N 5 with hN | hN
    · rw [scan_of_available rfl]
      exact Walk.length_exchanges_le.trans (by omega)
    · have hlim : ∀ v ∈ longer.contents, v.stored.length ≤ (ScanConfig.mk 4 12 true).limit := by
        decide
      obtain ⟨es, e, ns, hscan, hl, -⟩ := scan_fits hm hlim (by rw [hg]; exact hN)
      rw [hscan, List.length_append, hl, hg, List.length_singleton]
      decide

end MemoryStore

end BootOptions
