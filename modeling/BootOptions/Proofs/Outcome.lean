/-
  Boot options — the result of a scan, over any store.

  * `Outcome`: the result that the last exchange of a scan decides, given the
    exchanges before it.
  * `scan_outcome`: a scan has a result iff all its exchanges but the last let it
    go on, and the last decides that result; a scan without a result has used
    up its calls.
-/
import BootOptions.Proofs.Walk
import BootOptions.Store.Replay

namespace BootOptions

/-- The exchange cannot be gone on from: its status is none that the protocol
    has, or it asks for a buffer that is there already. -/
structure Exchange.Fails (e : Exchange) : Prop where
  notSuccess : e.answer.status ≠ .success
  notEnd : e.answer.status ≠ .notFound
  noLarger : e.answer.status = .bufferTooSmall → e.answer.needed ≤ e.request.buffer.length

/-- The result of a scan whose last exchange is `last`, behind `before`. -/
inductive Outcome (cfg : ScanConfig) (before : List Exchange) (last : Exchange) :
    Except ScanError (List BootOption) → Prop
  | exhausted : last.answer.status = .notFound → Outcome cfg before last (.ok (optionsOf before))
  | tooLong : last.answer.status = .bufferTooSmall → cfg.limit < last.answer.needed →
      Outcome cfg before last (.error (.nameTooLong last.answer.size))
  | unavailable : last.Fails → visitsOf before = 0 →
      Outcome cfg before last (.error (.storeUnavailable last.answer.status))
  | failed : last.Fails → 0 < visitsOf before →
      Outcome cfg before last (.error (.iterationFailed last.answer.status (visitsOf before)))

section
variable {cfg : ScanConfig} {before : List Exchange} {last : Exchange}
  {r r' : Except ScanError (List BootOption)}

theorem Exchange.Fails.needed_le (hf : last.Fails) (hl : last.request.buffer.length ≤ cfg.limit)
    (hb : last.answer.status = .bufferTooSmall) : last.answer.needed ≤ cfg.limit :=
  Nat.le_trans (hf.noLarger hb) hl

/-- With a buffer within the limit, the last exchange decides one result. -/
theorem Outcome.unique (hl : last.request.buffer.length ≤ cfg.limit)
    (h : Outcome cfg before last r) (h' : Outcome cfg before last r') : r = r' := by
  cases h with
  | exhausted hs =>
    cases h' with
    | exhausted => rfl
    | tooLong hb => rw [hs] at hb; cases hb
    | unavailable hf | failed hf => exact absurd hs hf.notEnd
  | tooLong hb hn =>
    cases h' with
    | exhausted hs => rw [hs] at hb; cases hb
    | tooLong => rfl
    | unavailable hf | failed hf => exact absurd (hf.needed_le hl hb) (Nat.not_le.2 hn)
  | unavailable hf hv =>
    cases h' with
    | exhausted hs => exact absurd hs hf.notEnd
    | tooLong hb hn => exact absurd (hf.needed_le hl hb) (Nat.not_le.2 hn)
    | unavailable => rfl
    | failed _ hv' => omega
  | failed hf hv =>
    cases h' with
    | exhausted hs => exact absurd hs hf.notEnd
    | tooLong hb hn => exact absurd (hf.needed_le hl hb) (Nat.not_le.2 hn)
    | unavailable _ hv' => omega
    | failed => rfl

/-- The exchange that decides a result does not let the scan go on. -/
theorem Outcome.not_continues (h : Outcome cfg before last r) : ¬ last.Continues cfg := by
  rintro (hs | ⟨hb, hn, hl⟩)
  · cases h with
    | exhausted hs' | tooLong hs' => rw [hs] at hs'; cases hs'
    | unavailable hf | failed hf => exact hf.notSuccess hs
  · cases h with
    | exhausted hs => rw [hb] at hs; cases hs
    | tooLong _ hn' => omega
    | unavailable hf | failed hf => exact absurd (hf.noLarger hb) (Nat.not_le.2 hn)

end

namespace Walk

/-- What ends a walk that has counted and kept what `before` told. -/
theorem outcome_of_done {cfg : ScanConfig} {w : Walk} {q : Request} {a : Answer}
    {before : List Exchange} {r : Except ScanError (List BootOption)} {n : Notice}
    (ha : a.buffer.length = q.buffer.length) (hv : w.visited = visitsOf before)
    (ho : w.options = optionsOf before) (h : w.step cfg a = .done r n) :
    Outcome cfg before ⟨q, a⟩ r := by
  obtain ⟨hs, rfl, -⟩ | ⟨hb, hn, rfl, -⟩ | ⟨hs, hn, hb, rfl, -⟩ := step_done h
  · rw [ho]
    exact .exhausted hs
  · exact .tooLong hb hn
  · have hf : Exchange.Fails ⟨q, a⟩ := ⟨hs, hn, fun h => ha ▸ (hb h).1⟩
    rw [hv]
    split_ifs with h0
    · exact .unavailable hf h0
    · exact .failed hf (Nat.pos_of_ne_zero h0)

end Walk

/-! ## Scans -/

theorem ScanConfig.one_le_limit (cfg : ScanConfig) : 1 ≤ cfg.limit :=
  Nat.le_trans (by decide) (Nat.le_max_right _ _)

theorem ScanConfig.length_start_le (cfg : ScanConfig) : cfg.start.buffer.length ≤ cfg.limit := by
  rw [start, Cursor.length_start]
  exact Nat.max_le.2 ⟨cfg.one_le_limit, Nat.min_le_right _ _⟩

variable {σ : Type} [VariableStore σ]

theorem scan_of_available {store : σ} (h : VariableStore.isAvailable store = true)
    (cfg : ScanConfig) (fuel : Nat) :
    scan cfg fuel store = Walk.run cfg fuel ⟨cfg.start, 0, []⟩ store := if_pos h

theorem scan_of_unavailable {store : σ} (h : VariableStore.isAvailable store = false)
    (cfg : ScanConfig) (fuel : Nat) :
    scan cfg fuel store = { result := some (.error (.storeUnavailable .unsupported)), store } :=
  if_neg (by simp [h])

/-- The exchanges of a scan with a result, and that result. -/
theorem scan_ended {store : σ} (ha : VariableStore.isAvailable store = true) {cfg : ScanConfig}
    {fuel : Nat} {r : Except ScanError (List BootOption)} (h : (scan cfg fuel store).result = some r) :
    ∃ before last, (scan cfg fuel store).exchanges = before ++ [last] ∧
      (∀ e ∈ before, e.Continues cfg) ∧ last.request.buffer.length ≤ cfg.limit ∧
      Outcome cfg before last r := by
  rw [scan_of_available ha] at h ⊢
  rcases Walk.run_cases cfg fuel ⟨cfg.start, 0, []⟩ store with
    ⟨es, ns, w', s', -, -, hr⟩ | ⟨es, ns, w', s', r', n, hs, hd, hr⟩
  · rw [hr] at h; cases h
  · rw [hr] at h; cases h
    refine ⟨es, _, by rw [hr], hs.continues, hs.length_le cfg.length_start_le, ?_⟩
    refine Walk.outcome_of_done (NameIterator.length_next s' w'.cursor.request) ?_ ?_ hd
    · rw [hs.visited_eq, Nat.zero_add]
    · rw [hs.options_eq, List.nil_append]

/-- A scan without a result has used up its calls, and could go on. -/
theorem scan_cut {store : σ} (ha : VariableStore.isAvailable store = true) {cfg : ScanConfig}
    {fuel : Nat} (h : (scan cfg fuel store).result = none) :
    (scan cfg fuel store).exchanges.length = fuel ∧
      ∀ e ∈ (scan cfg fuel store).exchanges, e.Continues cfg := by
  rw [scan_of_available ha] at h ⊢
  rcases Walk.run_cases cfg fuel ⟨cfg.start, 0, []⟩ store with
    ⟨es, ns, w', s', hs, hl, hr⟩ | ⟨es, ns, w', s', r', n, hs, hd, hr⟩
  · rw [hr]; exact ⟨hl, hs.continues⟩
  · rw [hr] at h; cases h

/-- Once a scan has a result, more calls make no difference. -/
theorem scan_eq_of_le {store : σ} {cfg : ScanConfig} {n fuel : Nat}
    {r : Except ScanError (List BootOption)} (h : (scan cfg n store).result = some r)
    (hf : n ≤ fuel) : scan cfg fuel store = scan cfg n store := by
  rcases ha : VariableStore.isAvailable store with _ | _
  · rw [scan_of_unavailable ha, scan_of_unavailable ha]
  rw [scan_of_available ha] at h ⊢
  rw [scan_of_available ha]
  have hlen : (Walk.run cfg n ⟨cfg.start, 0, []⟩ store).exchanges.length ≤ n :=
    Walk.length_exchanges_le
  rcases Walk.run_cases cfg n ⟨cfg.start, 0, []⟩ store with
    ⟨es, ns, w', s', -, -, hr⟩ | ⟨es, ns, w', s', r', k, hs, hd, hr⟩
  · rw [hr] at h; cases h
  · rw [hr, List.length_append] at hlen
    rw [hr]
    exact hs.run_done rfl hd (Nat.lt_of_lt_of_le hlen hf)

/-- **The last exchange decides the result of a scan.**  A store that cannot be
    walked is not asked. -/
theorem scan_outcome (cfg : ScanConfig) (fuel : Nat) (store : σ) :
    (VariableStore.isAvailable store = false →
      scan cfg fuel store = { result := some (.error (.storeUnavailable .unsupported)), store }) ∧
    (VariableStore.isAvailable store = true →
      Answered store (scan cfg fuel store).exchanges (scan cfg fuel store).store ∧
      (∀ r, (scan cfg fuel store).result = some r ↔
        ∃ before last, (scan cfg fuel store).exchanges = before ++ [last] ∧
          (∀ e ∈ before, e.Continues cfg) ∧ Outcome cfg before last r) ∧
      ((scan cfg fuel store).result = none →
        (scan cfg fuel store).exchanges.length = fuel ∧
          ∀ e ∈ (scan cfg fuel store).exchanges, e.Continues cfg)) := by
  constructor
  · intro h
    exact scan_of_unavailable h cfg fuel
  intro ha
  refine ⟨?_, ?_, scan_cut ha⟩
  · rw [scan_of_available ha]
    exact Walk.run_answered ..
  intro r
  constructor
  · intro h
    obtain ⟨before, last, he, hb, -, ho⟩ := scan_ended ha h
    exact ⟨before, last, he, hb, ho⟩
  · rintro ⟨before, last, he, -, ho⟩
    rcases hr : (scan cfg fuel store).result with _ | r'
    · exact absurd ((scan_cut ha hr).2 last (by rw [he]; simp)) ho.not_continues
    · obtain ⟨before', last', he', -, hl, ho'⟩ := scan_ended ha hr
      obtain ⟨rfl, hlast⟩ := List.append_inj' (he.symm.trans he') rfl
      cases hlast
      rw [ho.unique hl ho']

/-- A store that asks for half a unit too much, tells one option and then warns. -/
def warning : Replay where
  steps := [⟨.bufferTooSmall, none, some 21, none⟩,
    ⟨.success, some (.terminated "Boot00aF"), none, some .global⟩, ⟨⟨2⟩, none, none, none⟩]

theorem scan_outcome_warning :
    (scan ⟨4, 20, true⟩ 5 warning).result = some (.error (.iterationFailed ⟨2⟩ 1)) := by
  have hl := List.dropLast_concat_getLast (l := (scan ⟨4, 20, true⟩ 5 warning).exchanges) (by decide)
  refine (((scan_outcome ⟨4, 20, true⟩ 5 warning).2 rfl).2.1 _).2 ⟨_, _, hl.symm, ?_, ?_⟩
  · unfold Exchange.Continues; decide
  · exact .failed ⟨by decide, by decide, by decide⟩ (by decide)

end BootOptions
