/-
  Boot options — how long a scan can last.

  A store cannot keep a scan busy by asking for more room: every request that is
  granted makes the buffer longer, and there is a limit to its length.  Only
  variables let a scan go on.

  * `ScanConfig.room`: by how much the first buffer of a scan can grow.
  * `Steps.resizes_add_le`: every request that a walk grants makes its buffer
    longer; `Steps.length_le_visits`: beyond the variables told to it, a walk
    asks no more often than its buffer can grow.
  * `scan_bounded`: so a scan ends, for any store that runs out of variables.
-/
import BootOptions.Proofs.CursorProtocol

namespace BootOptions

/-- The number of units by which the first buffer of a scan can grow. -/
def ScanConfig.room (cfg : ScanConfig) : Nat := cfg.limit - cfg.start.buffer.length

/-! ## Walks -/

namespace Walk

variable {σ : Type} [VariableStore σ] {cfg : ScanConfig} {w w' : Walk} {s s' : σ}
  {es : List Exchange} {ns : List Notice}

/-- Each request that a walk grants makes its buffer longer. -/
theorem Steps.resizes_add_le (h : Steps cfg w s es ns w' s') :
    w.cursor.buffer.length + resizesOf es ≤ w'.cursor.buffer.length := by
  induction h with
  | refl => exact Nat.le_refl _
  | @cons w w₁ _ s _ es _ _ hs _ ih =>
    have hl : (NameIterator.next s w.cursor.request).1.buffer.length = w.cursor.buffer.length :=
      NameIterator.length_next s w.cursor.request
    rcases step_more hs with ⟨h, rfl, -⟩ | ⟨h, hlt, -, rfl, -⟩
    · rw [resizesOf_cons_told es h, ← hl]
      exact ih
    · rw [resizesOf_cons_small es h]
      rw [Cursor.length_resize] at ih
      omega

theorem Steps.resizes_le (h : Steps cfg w s es ns w' s')
    (hw : w.cursor.buffer.length ≤ cfg.limit) :
    resizesOf es ≤ cfg.limit - w.cursor.buffer.length := by
  have := h.resizes_add_le
  have := h.length_le hw
  omega

/-- Besides the variables it is told, a walk goes on no more often than its
    buffer can grow. -/
theorem Steps.length_le_visits (h : Steps cfg w s es ns w' s')
    (hw : w.cursor.buffer.length ≤ cfg.limit) :
    es.length ≤ visitsOf es + (cfg.limit - w.cursor.buffer.length) := by
  rw [h.length_eq]
  exact Nat.add_le_add_left (h.resizes_le hw) _

end Walk

/-! ## Scans -/

variable {σ : Type} [VariableStore σ]

/-- The requests that a scan asked again after are those that it granted. -/
theorem resizes_dropLast_le (cfg : ScanConfig) (fuel : Nat) (store : σ) :
    resizesOf (scan cfg fuel store).exchanges.dropLast ≤ cfg.room := by
  rcases ha : VariableStore.isAvailable store with _ | _
  · rw [scan_of_unavailable ha]
    exact Nat.zero_le _
  rw [scan_of_available ha]
  rcases Walk.run_cases cfg fuel ⟨cfg.start, 0, []⟩ store with
    ⟨es, ns, w', s', hs, -, hr⟩ | ⟨es, ns, w', s', r, n, hs, -, hr⟩
  · rw [hr]
    exact Nat.le_trans (List.Sublist.countP_le (List.dropLast_sublist es))
      (hs.resizes_le cfg.length_start_le)
  · rw [hr, List.dropLast_concat]
    exact hs.resizes_le cfg.length_start_le

/-- A scan that is told no more than `V` variables ends, and has ended for all
    larger numbers of calls. -/
theorem scan_ends {cfg : ScanConfig} {store : σ} {V : Nat}
    (hV : visitsOf (scan cfg (V + cfg.room + 1) store).exchanges ≤ V) :
    ∃ r es ns s', es.length ≤ V + cfg.room + 1 ∧
      ∀ fuel, V + cfg.room + 1 ≤ fuel → scan cfg fuel store = ⟨some r, es, ns, s'⟩ := by
  rcases ha : VariableStore.isAvailable store with _ | _
  · exact ⟨_, [], [], store, Nat.zero_le _, fun fuel _ => scan_of_unavailable ha cfg fuel⟩
  rw [scan_of_available ha] at hV
  rcases Walk.run_cases cfg (V + cfg.room + 1) ⟨cfg.start, 0, []⟩ store with
    ⟨es, ns, w', s', hs, hl, hr⟩ | ⟨es, ns, w', s', r, n, hs, hd, hr⟩
  -- a walk that has used up its calls was told more variables
  · have hle : es.length ≤ visitsOf es + cfg.room := hs.length_le_visits cfg.length_start_le
    have hvis : visitsOf es ≤ V := by rwa [hr] at hV
    omega
  · have hle : es.length ≤ visitsOf es + cfg.room := hs.length_le_visits cfg.length_start_le
    have hvis : visitsOf es ≤ V := by
      rw [hr] at hV
      exact Nat.le_trans (List.Sublist.countP_le (List.sublist_append_left es _)) hV
    have hlt : es.length < V + cfg.room + 1 := by omega
    have hscan := fun fuel (hf : V + cfg.room + 1 ≤ fuel) =>
      (scan_of_available ha cfg fuel).trans (hs.run_done rfl hd (Nat.lt_of_lt_of_le hlt hf))
    exact ⟨r, _, _, _, by rw [List.length_append]; exact hlt, hscan⟩

/-- A scan that is only ever asked for more room does not succeed. -/
theorem not_ok_of_small {cfg : ScanConfig} {store : σ} {fuel : Nat} {os : List BootOption}
    (hs : ∀ e ∈ (scan cfg fuel store).exchanges, e.answer.status = .bufferTooSmall) :
    (scan cfg fuel store).result ≠ some (.ok os) := by
  intro hr
  rcases ha : VariableStore.isAvailable store with _ | _
  · rw [scan_of_unavailable ha] at hr
    exact nomatch hr
  obtain ⟨before, last, he, -, -, ho⟩ := scan_ended ha hr
  have hlast : last.answer.status = .bufferTooSmall := hs last (by rw [he]; simp)
  cases ho with
  | exhausted hn => rw [hlast] at hn; cases hn

/-- **A scan is bounded**, over any store.  It asks again after no more requests
    for a larger buffer than its buffer has room to grow, and thus ends behind
    the last variable it is told; requests alone make it fail. -/
theorem scan_bounded (cfg : ScanConfig) (store : σ) :
    (∀ fuel, resizesOf (scan cfg fuel store).exchanges.dropLast ≤ cfg.room) ∧
    (∀ V, (∀ fuel, visitsOf (scan cfg fuel store).exchanges ≤ V) →
      ∃ r, ∀ fuel, V + cfg.room + 1 ≤ fuel → (scan cfg fuel store).result = some r ∧
        (scan cfg fuel store).exchanges.length ≤ V + cfg.room + 1) ∧
    ((∀ fuel, ∀ e ∈ (scan cfg fuel store).exchanges, e.answer.status = .bufferTooSmall) →
      ∃ err, ∀ fuel, cfg.room + 1 ≤ fuel → (scan cfg fuel store).result = some (.error err) ∧
        (scan cfg fuel store).exchanges.length ≤ cfg.room + 1) := by
  refine ⟨fun fuel => resizes_dropLast_le cfg fuel store, ?_, ?_⟩
  · intro V hV
    obtain ⟨r, es, ns, s', hlen, h⟩ := scan_ends (hV (V + cfg.room + 1))
    refine ⟨r, ?_⟩
    intro fuel hf
    rw [h fuel hf]
    exact ⟨rfl, hlen⟩
  · intro hs
    have hV : visitsOf (scan cfg (0 + cfg.room + 1) store).exchanges ≤ 0 := by
      rw [visitsOf, Nat.le_zero, List.countP_eq_zero]
      intro e he
      rw [decide_eq_true_iff]
      exact e.ne_success (hs _ e he)
    obtain ⟨r, es, ns, s', hlen, h⟩ := scan_ends hV
    rw [Nat.zero_add] at hlen h
    rcases r with err | os
    · refine ⟨err, ?_⟩
      intro fuel hf
      rw [h fuel hf]
      exact ⟨rfl, hlen⟩
    · exact absurd (congrArg Scan.result (h _ (Nat.le_refl _))) (not_ok_of_small (hs _))

/-! ## A store that never has enough -/

/-- A store that tells `left` more variables and from then on asks for half a
    unit more than there is, for ever. -/
structure Insatiable where
  left : Nat

namespace Insatiable

/-- The answer to any question; it leaves the cursor as it was. -/
def answer (s : Insatiable) (r : Request) : Answer × Insatiable :=
  match s.left with
  | 0 => ({ r.refused .bufferTooSmall with size := r.size + 1 }, s)
  | n + 1 => (r.refused .success, ⟨n⟩)

instance : VariableStore Insatiable where
  next := answer
  length_next s r := by unfold answer; split <;> rfl
  isAvailable _ := true

/-- It tells no more variables than it has, whatever it is asked. -/
theorem visits_le {s s' : Insatiable} {es : List Exchange} (h : Answered s es s') :
    visitsOf es ≤ s.left := by
  induction h with
  | nil => exact Nat.zero_le _
  | @cons s s' q es _ ih =>
    rcases s with ⟨_ | n⟩
    · rw [visitsOf_cons_small es rfl]
      exact ih
    · rw [visitsOf_cons_told es rfl]
      exact Nat.succ_le_succ ih

theorem status_eq {s s' : Insatiable} {es : List Exchange} (h : Answered s es s')
    (hs : s.left = 0) : ∀ e ∈ es, e.answer.status = .bufferTooSmall := by
  induction h with
  | nil => simp
  | @cons s s' q es _ ih =>
    obtain ⟨_⟩ := s
    cases hs
    exact List.forall_mem_cons.2 ⟨rfl, ih rfl⟩

end Insatiable

theorem scan_bounded_insatiable :
    (∃ r, ∀ fuel, 11 ≤ fuel → (scan ⟨4, 12, true⟩ fuel (Insatiable.mk 2)).result = some r ∧
      (scan ⟨4, 12, true⟩ fuel (Insatiable.mk 2)).exchanges.length ≤ 11) ∧
    (∃ err, ∀ fuel, 9 ≤ fuel → (scan ⟨4, 12, true⟩ fuel (Insatiable.mk 0)).result = some (.error err) ∧
      (scan ⟨4, 12, true⟩ fuel (Insatiable.mk 0)).exchanges.length ≤ 9) ∧
    (scan ⟨4, 12, true⟩ 12 (Insatiable.mk 2)).exchanges.length = 11 ∧
    (scan ⟨4, 12, true⟩ 12 (Insatiable.mk 0)).exchanges.length = 9 := by
  refine ⟨?_, ?_, by decide, by decide⟩
  · exact (scan_bounded ⟨4, 12, true⟩ (Insatiable.mk 2)).2.1 2 fun fuel =>
      Insatiable.visits_le (scan_answered _ fuel _)
  · exact (scan_bounded ⟨4, 12, true⟩ (Insatiable.mk 0)).2.2 fun fuel =>
      Insatiable.status_eq (scan_answered _ fuel _) rfl

end BootOptions
