/-
  Boot options — how a scan uses its cursor.

  The store finds its place by the cursor alone, so a scan must hand back what
  it was given: nothing but zeros may be added to the buffer, and only when the
  store has asked for more room.

  * `Follows e e'`: the exchange `e'` takes up the cursor that `e` left;
    `step_follows`: so it is for what is asked after any answer.
  * `Protocol es`: the exchanges `es` start from an empty cursor, each follows
    the one before, and all state the true size of a buffer within the limit.
  * `scan_protocol`: the exchanges of a scan keep the protocol, over any store.
-/
import Mathlib.Data.List.Chain
import Mathlib.Order.Basic
import BootOptions.Proofs.MemoryStore
import BootOptions.Proofs.Outcome

namespace BootOptions

/-! ## Two exchanges -/

/-- How an exchange takes up the cursor that the one before it left: as it is
    behind a variable, and with zeros behind the buffer if that was too small. -/
inductive Follows (cfg : ScanConfig) (e e' : Exchange) : Prop
  | told : e.answer.status = .success → e'.request.toCursor = e.answer.toCursor →
      e'.request.buffer.length = e.request.buffer.length → Follows cfg e e'
  | larger : e.answer.status = .bufferTooSmall → e'.request.guid = e.answer.guid →
      e'.request.buffer = e.answer.buffer ++ .zeros (e.answer.needed - e.answer.buffer.length) →
      e'.request.buffer.length = e.answer.needed → e.request.buffer.length < e.answer.needed →
      e.answer.needed ≤ cfg.limit → Follows cfg e e'

namespace Follows

variable {cfg : ScanConfig} {e e' : Exchange}

theorem status (h : Follows cfg e e') :
    e.answer.status = .success ∨ e.answer.status = .bufferTooSmall := by
  cases h with
  | told hs => exact Or.inl hs
  | larger hs => exact Or.inr hs

/-- A growth leaves the name of the cursor as it was. -/
theorem name_eq (h : Follows cfg e e') : e'.request.name = e.answer.name := by
  cases h with
  | told _ hc => rw [hc]
  | larger _ _ hb => rw [Cursor.name, hb, Units.stem_append_zeros, Cursor.name]

theorem length_le (h : Follows cfg e e') :
    e.request.buffer.length ≤ e'.request.buffer.length := by
  cases h with
  | told _ _ hl => exact hl.ge
  | larger _ _ _ hl hlt => exact hl ▸ hlt.le

theorem within (h : Follows cfg e e')
    (he : 1 ≤ e.request.buffer.length ∧ e.request.buffer.length ≤ cfg.limit) :
    1 ≤ e'.request.buffer.length ∧ e'.request.buffer.length ≤ cfg.limit := by
  refine ⟨he.1.trans h.length_le, ?_⟩
  cases h with
  | told _ _ hl => exact hl ▸ he.2
  | larger _ _ _ hl _ hlim => exact hl ▸ hlim

end Follows

namespace Walk

variable {σ : Type} [VariableStore σ] {cfg : ScanConfig} {w w' : Walk} {s : σ} {ns : List Notice}

/-- What is asked after an answer follows it. -/
theorem step_follows {e : Exchange}
    (h : w.step cfg (NameIterator.next s w.cursor.request).1 = .more w' ns)
    (he : e.request = w'.cursor.request) :
    Follows cfg ⟨w.cursor.request, (NameIterator.next s w.cursor.request).1⟩ e := by
  have hl : (NameIterator.next s w.cursor.request).1.buffer.length = w.cursor.buffer.length :=
    NameIterator.length_next s w.cursor.request
  rcases step_more h with ⟨hs, rfl, -⟩ | ⟨hs, hlt, hlim, rfl, -⟩
  · exact .told hs (by rw [he]; rfl) (by rw [he]; exact hl)
  · refine .larger hs (by rw [he]; rfl) ?_ ?_ (hl ▸ hlt) hlim
    · rw [he]; exact Units.resize_of_le hlt.le
    · rw [he]; exact Cursor.length_resize _ _

/-! ## Many exchanges -/

/-- A walk asks from its cursor first. -/
theorem head_run {fuel : Nat} {e : Exchange} (h : e ∈ (run cfg fuel w s).exchanges.head?) :
    e.request = w.cursor.request := by
  cases fuel with
  | zero => exact nomatch h
  | succ fuel =>
    rcases hst : w.step cfg (NameIterator.next s w.cursor.request).1 with ⟨w', ns⟩ | ⟨r, n⟩
    · rw [run_more hst] at h; cases h; rfl
    · rw [run_done hst] at h; cases h; rfl

theorem run_eq_nil_iff {fuel : Nat} : (run cfg fuel w s).exchanges = [] ↔ fuel = 0 := by
  cases fuel with
  | zero => simp
  | succ fuel =>
    rcases hst : w.step cfg (NameIterator.next s w.cursor.request).1 with ⟨w', ns⟩ | ⟨r, n⟩
    · rw [run_more hst]; simp
    · rw [run_done hst]; simp

theorem run_follows (cfg : ScanConfig) (fuel : Nat) (w : Walk) (s : σ) :
    (run cfg fuel w s).exchanges.IsChain (Follows cfg) := by
  induction fuel generalizing w s with
  | zero => exact .nil
  | succ fuel ih =>
    rcases h : w.step cfg (NameIterator.next s w.cursor.request).1 with ⟨w', ns⟩ | ⟨r, n⟩
    · rw [run_more h]
      refine List.isChain_cons.2 ⟨?_, ih w' _⟩
      intro e he
      exact step_follows h (head_run he)
    · rw [run_done h]; exact .singleton _

/-- Each question states the true size of its buffer. -/
theorem size_run (cfg : ScanConfig) (fuel : Nat) (w : Walk) (s : σ) :
    ∀ e ∈ (run cfg fuel w s).exchanges, e.request.size = 2 * e.request.buffer.length := by
  induction fuel generalizing w s with
  | zero => simp
  | succ fuel ih =>
    intro e he
    rcases h : w.step cfg (NameIterator.next s w.cursor.request).1 with ⟨w', ns⟩ | ⟨r, n⟩
    · rw [run_more h] at he
      rcases List.mem_cons.1 he with rfl | he
      · rfl
      · exact ih w' _ e he
    · rw [run_done h] at he
      obtain rfl := List.mem_singleton.1 he
      rfl

end Walk

/-! ## Scans -/

theorem ScanConfig.one_le_length_start (cfg : ScanConfig) : 1 ≤ cfg.start.buffer.length := by
  rw [start, Cursor.length_start]
  exact Nat.le_max_left _ _

/-- The protocol of a scan: where it starts, how it goes on, and what follows
    for the buffers and the names on its way. -/
structure Protocol (cfg : ScanConfig) (es : List Exchange) : Prop where
  start : ∀ e ∈ es.head?, e.request.guid = .zero ∧
    e.request.buffer = .zeros (max 1 (min cfg.initialCapacity cfg.limit))
  size : ∀ e ∈ es, e.request.size = 2 * e.request.buffer.length
  within : ∀ e ∈ es, 1 ≤ e.request.buffer.length ∧ e.request.buffer.length ≤ cfg.limit
  follows : es.IsChain (Follows cfg)
  status : es.IsChain fun e _ => e.answer.status = .success ∨ e.answer.status = .bufferTooSmall
  name : es.IsChain fun e e' => e'.request.name = e.answer.name
  ascending : (es.map (·.request.buffer.length)).Pairwise (· ≤ ·)

namespace Protocol

variable {cfg : ScanConfig} {es : List Exchange}

theorem nil : Protocol cfg [] := ⟨by simp, by simp, by simp, .nil, .nil, .nil, .nil⟩

/-- The first question and the way from each to the next determine the rest. -/
theorem of_follows (hstart : ∀ e ∈ es.head?, e.request = cfg.start.request)
    (hsize : ∀ e ∈ es, e.request.size = 2 * e.request.buffer.length)
    (hfollows : es.IsChain (Follows cfg)) : Protocol cfg es where
  start e he := by rw [hstart e he]; exact ⟨rfl, rfl⟩
  size := hsize
  within := by
    refine hfollows.induction _ _ (fun _ _ h he => h.within he) ?_
    intro hne
    rw [hstart _ (List.head?_eq_some_head hne)]
    exact ⟨cfg.one_le_length_start, cfg.length_start_le⟩
  follows := hfollows
  status := hfollows.imp fun _ _ h => h.status
  name := hfollows.imp fun _ _ h => h.name_eq
  ascending := (List.isChain_map _).2 (hfollows.imp fun _ _ h => h.length_le) |>.pairwise

end Protocol

theorem scan_answered {σ : Type} [VariableStore σ] (cfg : ScanConfig) (fuel : Nat) (store : σ) :
    Answered store (scan cfg fuel store).exchanges (scan cfg fuel store).store := by
  rcases ha : VariableStore.isAvailable store with _ | _
  · rw [scan_of_unavailable ha]; exact .nil
  · rw [scan_of_available ha]; exact Walk.run_answered ..

/-- **The cursor of a scan.**  The exchanges of a scan keep the protocol, with
    any store; the first of them takes place unless the store cannot be walked. -/
theorem scan_protocol {σ : Type} [VariableStore σ] (cfg : ScanConfig) (fuel : Nat) (store : σ) :
    Answered store (scan cfg fuel store).exchanges (scan cfg fuel store).store ∧
    Protocol cfg (scan cfg fuel store).exchanges ∧
    ((scan cfg fuel store).exchanges = [] ↔ VariableStore.isAvailable store = false ∨ fuel = 0) := by
  refine ⟨scan_answered cfg fuel store, ?_⟩
  rcases ha : VariableStore.isAvailable store with _ | _
  · rw [scan_of_unavailable ha]
    exact ⟨.nil, by simp⟩
  · rw [scan_of_available ha]
    constructor
    · exact .of_follows (fun _ he => Walk.head_run he) (Walk.size_run cfg fuel _ store)
        (Walk.run_follows cfg fuel _ store)
    · simpa using Walk.run_eq_nil_iff

end BootOptions
