/-
  Boot options — stores that answer alike.

  A scan sees a store through its answers alone.  When the states of one store
  can be translated to those of another that gives the same answers, a scan
  of the one is the translation of a scan of the other.

  * `Translates f`: `f` is such a translation, for all that a scan can ask: its
    buffer is never empty, and it states the true size.
  * `run_map`, `scan_map`: walks and scans follow the translation.
  * `Recorded.requests_eq`: a store under observation remembers what was asked.
-/
import BootOptions.Proofs.CursorProtocol
import BootOptions.Store.Recorded

namespace BootOptions

/-- The scan with its store translated by `f`. -/
def Scan.map {σ τ : Type} (f : σ → τ) (s : Scan σ) : Scan τ :=
  ⟨s.result, s.exchanges, s.notices, f s.store⟩

/-- To the questions of a scan, a translated store gives the answer of the store
    itself, and translates what that is left as. -/
def Translates {σ τ : Type} [NameIterator σ] [NameIterator τ] (f : σ → τ) : Prop :=
  ∀ (s : σ) (c : Cursor), 0 < c.buffer.length →
    NameIterator.next (f s) c.request =
      ((NameIterator.next s c.request).1, f (NameIterator.next s c.request).2)

variable {σ τ : Type} [VariableStore σ] [VariableStore τ] {f : σ → τ} {cfg : ScanConfig}

/-- A walk never shortens its buffer. -/
theorem Walk.length_le_of_step {w w' : Walk} {s : σ} {ns : List Notice}
    (h : w.step cfg (NameIterator.next s w.cursor.request).1 = .more w' ns) :
    w.cursor.buffer.length ≤ w'.cursor.buffer.length :=
  (step_follows (e := ⟨w'.cursor.request, (NameIterator.next s w.cursor.request).1⟩) h rfl).length_le

/-- **A walk through a translated store** is the walk through the store. -/
theorem Walk.run_map (hf : Translates f) {w : Walk} (hw : 0 < w.cursor.buffer.length)
    (fuel : Nat) (s : σ) : run cfg fuel w (f s) = (run cfg fuel w s).map f := by
  induction fuel generalizing w s with
  | zero => rfl
  | succ fuel ih =>
    have hn := hf s w.cursor hw
    rcases h : w.step cfg (NameIterator.next s w.cursor.request).1 with ⟨w', ns⟩ | ⟨r, n⟩
    · have hw' : 0 < w'.cursor.buffer.length := Nat.lt_of_lt_of_le hw (length_le_of_step h)
      have h' : w.step cfg (NameIterator.next (f s) w.cursor.request).1 = .more w' ns := by rw [hn, h]
      rw [run_more h', run_more h, hn, ih hw']
      rfl
    · have h' : w.step cfg (NameIterator.next (f s) w.cursor.request).1 = .done r n := by rw [hn, h]
      rw [run_done h', run_done h, hn]
      rfl

theorem scan_map (hf : Translates f) {s : σ}
    (ha : VariableStore.isAvailable (f s) = VariableStore.isAvailable s) (fuel : Nat) :
    scan cfg fuel (f s) = (scan cfg fuel s).map f := by
  rcases hs : VariableStore.isAvailable s with _ | _
  · rw [scan_of_unavailable hs, scan_of_unavailable (ha.trans hs)]
    rfl
  · rw [scan_of_available hs, scan_of_available (ha.trans hs)]
    exact Walk.run_map hf (w := ⟨cfg.start, 0, []⟩) cfg.one_le_length_start fuel s

/-! ## Stores under observation -/

namespace Recorded

theorem translates_store : Translates (Recorded.store : Recorded σ → σ) := fun _ _ _ => rfl

theorem requests_eq {ρ : Type} [NameIterator ρ] {s s' : Recorded ρ} {es : List Exchange}
    (h : Answered s es s') : s'.requests = s.requests ++ es.map Exchange.request := by
  induction h with
  | nil => simp
  | cons _ ih => rw [ih, next_requests]; simp

/-- A scan under observation is the scan itself, with its questions remembered. -/
theorem scan_eq (cfg : ScanConfig) (fuel : Nat) (s : Recorded σ) :
    scan cfg fuel s = (scan cfg fuel s.store).map
      (Recorded.mk · (s.requests ++ (scan cfg fuel s.store).exchanges.map Exchange.request)) := by
  rw [scan_map translates_store (s := s) rfl]
  simp only [Scan.map]
  rw [← requests_eq (scan_answered cfg fuel s)]

end Recorded

end BootOptions
