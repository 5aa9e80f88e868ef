/-
  Boot options — what a walk does to any store.

  * `Walk.Reaction`: the ways in which a walk reacts to an answer;
    `step_eq_iff`: they are what `Walk.step` does; `step_more` and `step_done`
    tell those that a walk goes on from, and those that end it.
  * `Walk.Steps`: a walk that went on after each of some questions; `run_cases`:
    every run is such a walk, either cut off by the fuel or with one more
    question that ended it; `run_answered`: what it notes is what was asked.
  * `visitsOf` and `optionsOf` are what some exchanges told; a walk has counted
    and kept exactly that (`Steps.visited_eq`, `Steps.options_eq`).  All other
    exchanges of a walk that went on asked for more room (`Steps.length_eq`).
-/
import Mathlib.Data.List.Basic
import BootOptions.Scan

namespace BootOptions

/-! ## One answer -/

/-- The length of the buffer that an answer asks for, in units. -/
def Answer.needed (a : Answer) : Nat := (a.size + 1) / 2

/-- The boot option that an answer tells of. -/
def Answer.option? (a : Answer) : Option BootOption :=
  if a.status = .success then BootOption.ofVariable? a.guid a.buffer else none

/-- What the log is told of an answer that a walk goes on after. -/
def Answer.notices (cfg : ScanConfig) (a : Answer) : List Notice :=
  if cfg.trace then (a.option?.map (.accepted · a.guid)).toList else []

namespace Walk

/-- The walk behind a variable. -/
def behind (w : Walk) (a : Answer) : Walk :=
  ⟨a.toCursor, w.visited + 1, w.options ++ a.option?.toList⟩

/-- The ways in which a walk reacts to an answer. -/
inductive Reaction (cfg : ScanConfig) (w : Walk) (a : Answer) : Step → Prop
  | told : a.status = .success → Reaction cfg w a (.more (w.behind a) (a.notices cfg))
  | larger : a.status = .bufferTooSmall → a.buffer.length < a.needed → a.needed ≤ cfg.limit →
      Reaction cfg w a (.more { w with cursor := a.toCursor.resize a.needed } [])
  | exhausted : a.status = .notFound →
      Reaction cfg w a (.done (.ok w.options) (.completed w.options.length w.visited))
  | tooLong : a.status = .bufferTooSmall → cfg.limit < a.needed →
      Reaction cfg w a (.done (.error (.nameTooLong a.size)) (.nameTooLong a.size))
  | failed : a.status ≠ .success → a.status ≠ .notFound →
      (a.status = .bufferTooSmall → a.needed ≤ a.buffer.length ∧ a.needed ≤ cfg.limit) →
      Reaction cfg w a (w.fail a.status)

theorem visit_eq (cfg : ScanConfig) (w : Walk) {a : Answer} (h : a.status = .success) :
    w.visit cfg a.toCursor = .more (w.behind a) (a.notices cfg) := by
  have ho : a.option? = BootOption.ofVariable? a.guid a.buffer := if_pos h
  unfold visit behind Answer.notices
  rw [ho]
  cases BootOption.ofVariable? a.guid a.buffer <;> simp

theorem step_small {cfg : ScanConfig} {w : Walk} {a : Answer} (h : a.status = .bufferTooSmall) :
    w.step cfg a =
      if cfg.limit < a.needed then .done (.error (.nameTooLong a.size)) (.nameTooLong a.size)
      else if a.needed ≤ a.buffer.length then w.fail a.status
      else .more { w with cursor := a.toCursor.resize a.needed } [] := by
  rw [step, h, if_neg (by decide), if_neg (by decide), if_pos rfl, ← h]
  rfl

/-- **The reactions of a walk.** -/
theorem step_eq_iff {cfg : ScanConfig} {w : Walk} {a : Answer} {t : Step} :
    w.step cfg a = t ↔ Reaction cfg w a t := by
  constructor
  · rintro rfl
    unfold step
    split_ifs with hs hn hb
    · rw [visit_eq cfg w hs]; exact .told hs
    · exact .exhausted hn
    · simp only [enlarge]
      split_ifs with hl hf
      · exact .tooLong hb hl
      · exact .failed hs hn fun _ => ⟨hf, Nat.le_of_not_lt hl⟩
      · exact .larger hb (Nat.lt_of_not_le hf) (Nat.le_of_not_lt hl)
    · exact .failed hs hn fun h => absurd h hb
  · rintro (hs | ⟨hb, hn, hl⟩ | hn | ⟨hb, hl⟩ | ⟨hs, hn, hb⟩)
    · rw [step, if_pos hs, visit_eq cfg w hs]
    · rw [step_small hb, if_neg (Nat.not_lt.2 hl), if_neg (Nat.not_le.2 hn)]
    · rw [step, hn, if_neg (by decide), if_pos rfl]
    · rw [step_small hb, if_pos hl]
    · by_cases h : a.status = .bufferTooSmall
      · rw [step_small h, if_neg (Nat.not_lt.2 (hb h).2), if_pos (hb h).1]
      · rw [step, if_neg hs, if_neg hn, if_neg h]

theorem step_more {cfg : ScanConfig} {w w' : Walk} {a : Answer} {ns : List Notice}
    (h : w.step cfg a = .more w' ns) :
    (a.status = .success ∧ w' = w.behind a ∧ ns = a.notices cfg) ∨
    (a.status = .bufferTooSmall ∧ a.buffer.length < a.needed ∧ a.needed ≤ cfg.limit ∧
      w' = { w with cursor := a.toCursor.resize a.needed } ∧ ns = []) := by
  cases step_eq_iff.1 h with
  | told hs => exact Or.inl ⟨hs, rfl, rfl⟩
  | larger hb hn hl => exact Or.inr ⟨hb, hn, hl, rfl, rfl⟩

theorem step_done {cfg : ScanConfig} {w : Walk} {a : Answer}
    {r : Except ScanError (List BootOption)} {n : Notice} (h : w.step cfg a = .done r n) :
    (a.status = .notFound ∧ r = .ok w.options ∧ n = .completed w.options.length w.visited) ∨
    (a.status = .bufferTooSmall ∧ cfg.limit < a.needed ∧
      r = .error (.nameTooLong a.size) ∧ n = .nameTooLong a.size) ∨
    (a.status ≠ .success ∧ a.status ≠ .notFound ∧
      (a.status = .bufferTooSmall → a.needed ≤ a.buffer.length ∧ a.needed ≤ cfg.limit) ∧
      r = .error (if w.visited = 0 then .storeUnavailable a.status
        else .iterationFailed a.status w.visited) ∧
      n = .stepFailed w.visited a.status) := by
  cases step_eq_iff.1 h with
  | exhausted hs => exact Or.inl ⟨hs, rfl, rfl⟩
  | tooLong hb hl => exact Or.inr (Or.inl ⟨hb, hl, rfl, rfl⟩)
  | failed hs hn hb => exact Or.inr (Or.inr ⟨hs, hn, hb, rfl, rfl⟩)

/-! ## Many answers -/

variable {σ : Type} [VariableStore σ] {cfg : ScanConfig}

/-- From the walk `w` and the store `s`, the exchanges `es` lead to `w'` and
    `s'`, and the walk goes on after each of them. -/
inductive Steps (cfg : ScanConfig) :
    Walk → σ → List Exchange → List Notice → Walk → σ → Prop
  | refl {w : Walk} {s : σ} : Steps cfg w s [] [] w s
  | cons {w w₁ w' : Walk} {s s' : σ} {es : List Exchange} {ns₁ ns : List Notice} :
      w.step cfg (NameIterator.next s w.cursor.request).1 = .more w₁ ns₁ →
      Steps cfg w₁ (NameIterator.next s w.cursor.request).2 es ns w' s' →
      Steps cfg w s (⟨w.cursor.request, (NameIterator.next s w.cursor.request).1⟩ :: es)
        (ns₁ ++ ns) w' s'

theorem Steps.single {w w' : Walk} {s s' : σ} {a : Answer} {ns : List Notice}
    (hn : NameIterator.next s w.cursor.request = (a, s')) (h : w.step cfg a = .more w' ns) :
    Steps cfg w s [⟨w.cursor.request, a⟩] ns w' s' := by
  have hs : Steps cfg w s _ (ns ++ []) w' _ := .cons (by rw [hn]; exact h) .refl
  rwa [List.append_nil, hn] at hs

theorem Steps.run {w w' : Walk} {s s' : σ} {es : List Exchange} {ns : List Notice}
    (h : Steps cfg w s es ns w' s') (fuel : Nat) :
    run cfg (es.length + fuel) w s =
      (let rest := run cfg fuel w' s'
       ⟨rest.result, es ++ rest.exchanges, ns ++ rest.notices, rest.store⟩) := by
  induction h with
  | refl => simp
  | cons hs _ ih =>
    rw [List.length_cons, Nat.add_right_comm, run_more hs, ih]
    simp

/-- A walk that ends after some exchanges has ended for all larger fuels. -/
theorem Steps.run_done {w w' : Walk} {s s' : σ} {es : List Exchange} {ns : List Notice}
    (h : Steps cfg w s es ns w' s') {a : Answer} {s'' : σ}
    (hn : NameIterator.next s' w'.cursor.request = (a, s''))
    {r : Except ScanError (List BootOption)} {n : Notice} (hd : w'.step cfg a = .done r n)
    {fuel : Nat} (hf : es.length < fuel) :
    Walk.run cfg fuel w s = ⟨some r, es ++ [⟨w'.cursor.request, a⟩], ns ++ [n], s''⟩ := by
  obtain ⟨k, rfl⟩ := Nat.exists_eq_add_of_lt hf
  rw [Nat.add_assoc, h.run, Walk.run_done (by rw [hn]; exact hd), hn]

theorem Steps.trans {w₁ w₂ w₃ : Walk} {s₁ s₂ s₃ : σ} {es es' : List Exchange}
    {ns ns' : List Notice} (h : Steps cfg w₁ s₁ es ns w₂ s₂) (h' : Steps cfg w₂ s₂ es' ns' w₃ s₃) :
    Steps cfg w₁ s₁ (es ++ es') (ns ++ ns') w₃ s₃ := by
  induction h with
  | refl => exact h'
  | cons hs _ ih => rw [List.append_assoc]; exact .cons hs (ih h')

/-- **The shape of a run.**  Each answer let the walk go on, up to the fuel or
    to an answer that ended it. -/
theorem run_cases (cfg : ScanConfig) (fuel : Nat) (w : Walk) (s : σ) :
    (∃ es ns w' s', Steps cfg w s es ns w' s' ∧ es.length = fuel ∧
      run cfg fuel w s = ⟨none, es, ns, s'⟩) ∨
    ∃ es ns w' s' r n, Steps cfg w s es ns w' s' ∧
      w'.step cfg (NameIterator.next s' w'.cursor.request).1 = .done r n ∧
      run cfg fuel w s =
        ⟨some r, es ++ [⟨w'.cursor.request, (NameIterator.next s' w'.cursor.request).1⟩],
          ns ++ [n], (NameIterator.next s' w'.cursor.request).2⟩ := by
  induction fuel generalizing w s with
  | zero => exact Or.inl ⟨[], [], w, s, .refl, rfl, rfl⟩
  | succ fuel ih =>
    rcases h : w.step cfg (NameIterator.next s w.cursor.request).1 with ⟨w₁, ns₁⟩ | ⟨r, n⟩
    · rcases ih w₁ (NameIterator.next s w.cursor.request).2 with
        ⟨es, ns, w', s', hs, hl, hr⟩ | ⟨es, ns, w', s', r, n, hs, hd, hr⟩
      · exact Or.inl ⟨_, _, w', s', .cons h hs, by rw [List.length_cons, hl],
          by rw [run_more h, hr]⟩
      · exact Or.inr ⟨_, _, w', s', r, n, .cons h hs, hd, by rw [run_more h, hr]; simp⟩
    · exact Or.inr ⟨[], [], w, s, r, n, .refl, h, by rw [run_done h]; rfl⟩

end Walk

/-- Put to the store `s` one after the other, the questions of `es` get the
    answers of `es` and leave `s'`. -/
inductive Answered {σ : Type} [NameIterator σ] : σ → List Exchange → σ → Prop
  | nil {s : σ} : Answered s [] s
  | cons {s s' : σ} {q : Request} {es : List Exchange} :
      Answered (NameIterator.next s q).2 es s' →
      Answered s (⟨q, (NameIterator.next s q).1⟩ :: es) s'

theorem Walk.run_answered {σ : Type} [VariableStore σ] (cfg : ScanConfig) (fuel : Nat) (w : Walk)
    (s : σ) :
    Answered s (run cfg fuel w s).exchanges (run cfg fuel w s).store := by
  induction fuel generalizing w s with
  | zero => exact .nil
  | succ fuel ih =>
    rcases h : w.step cfg (NameIterator.next s w.cursor.request).1 with ⟨w₁, ns₁⟩ | ⟨r, n⟩
    · rw [run_more h]; exact .cons (ih w₁ _)
    · rw [run_done h]; exact .cons .nil

/-! ## What the exchanges told -/

/-- The exchange lets a scan go on: it told a variable, or it asked for a
    larger buffer within the limit. -/
def Exchange.Continues (cfg : ScanConfig) (e : Exchange) : Prop :=
  e.answer.status = .success ∨ e.answer.status = .bufferTooSmall ∧
    e.request.buffer.length < e.answer.needed ∧ e.answer.needed ≤ cfg.limit

/-- The number of variables told in some exchanges. -/
def visitsOf (es : List Exchange) : Nat := es.countP (·.answer.status = .success)

/-- The number of requests for a larger buffer among some exchanges. -/
def resizesOf (es : List Exchange) : Nat := es.countP (·.answer.status = .bufferTooSmall)

/-- The boot options told in some exchanges. -/
def optionsOf (es : List Exchange) : List BootOption := es.filterMap (·.answer.option?)

/-- A request for a larger buffer tells no variable. -/
theorem Exchange.ne_success {e : Exchange} (h : e.answer.status = .bufferTooSmall) :
    e.answer.status ≠ .success := by
  rw [h]
  decide

section
variable {e : Exchange} (es : List Exchange)

theorem visitsOf_cons_told (h : e.answer.status = .success) : visitsOf (e :: es) = visitsOf es + 1 :=
  List.countP_cons_of_pos (decide_eq_true h)

theorem visitsOf_cons_small (h : e.answer.status = .bufferTooSmall) :
    visitsOf (e :: es) = visitsOf es :=
  List.countP_cons_of_neg (by rw [decide_eq_true_iff]; exact e.ne_success h)

theorem resizesOf_cons_told (h : e.answer.status = .success) :
    resizesOf (e :: es) = resizesOf es :=
  List.countP_cons_of_neg (by rw [decide_eq_true_iff]; exact fun hb => e.ne_success hb h)

theorem resizesOf_cons_small (h : e.answer.status = .bufferTooSmall) :
    resizesOf (e :: es) = resizesOf es + 1 :=
  List.countP_cons_of_pos (decide_eq_true h)

end

theorem Answer.option?_eq_none {a : Answer} (h : a.status ≠ .success) : a.option? = none := if_neg h

namespace Walk

variable {σ : Type} [VariableStore σ] {cfg : ScanConfig} {w w' : Walk} {s s' : σ}
  {es : List Exchange} {ns : List Notice}

theorem Steps.continues (h : Steps cfg w s es ns w' s') : ∀ e ∈ es, e.Continues cfg := by
  induction h with
  | refl => simp
  | @cons w w₁ _ s _ _ _ _ hs _ ih =>
    intro e he
    rcases List.mem_cons.1 he with rfl | he
    · rcases step_more hs with ⟨h, -, -⟩ | ⟨h, hn, hl, -, -⟩
      · exact Or.inl h
      · exact Or.inr ⟨h, NameIterator.length_next s w.cursor.request ▸ hn, hl⟩
    · exact ih e he

theorem Steps.visited_eq (h : Steps cfg w s es ns w' s') :
    w'.visited = w.visited + visitsOf es := by
  induction h with
  | refl => rfl
  | cons hs _ ih =>
    rw [ih]
    rcases step_more hs with ⟨h, rfl, -⟩ | ⟨h, -, -, rfl, -⟩
    · rw [visitsOf_cons_told _ h, Nat.add_comm _ 1, ← Nat.add_assoc]
      rfl
    · rw [visitsOf_cons_small _ h]

theorem Steps.options_eq (h : Steps cfg w s es ns w' s') :
    w'.options = w.options ++ optionsOf es := by
  induction h with
  | refl => simp [optionsOf]
  | @cons w _ _ s _ es _ _ hs _ ih =>
    rw [ih]
    rcases step_more hs with ⟨-, rfl, -⟩ | ⟨h, -, -, rfl, -⟩
    · rw [behind, List.append_assoc, optionsOf, optionsOf, List.filterMap_cons]
      cases (NameIterator.next s w.cursor.request).1.option? <;> simp
    · rw [optionsOf, optionsOf, List.filterMap_cons, Answer.option?_eq_none (Exchange.ne_success h)]

/-- A walk goes on for variables and for larger buffers alone. -/
theorem Steps.length_eq (h : Steps cfg w s es ns w' s') :
    es.length = visitsOf es + resizesOf es := by
  have hc := h.continues
  clear h
  induction es with
  | nil => rfl
  | cons e es ih =>
    have hes := ih fun d hd => hc d (List.mem_cons_of_mem e hd)
    rw [List.length_cons, hes]
    rcases hc e List.mem_cons_self with hs | ⟨hb, -, -⟩
    · rw [visitsOf_cons_told es hs, resizesOf_cons_told es hs]
      omega
    · rw [visitsOf_cons_small es hb, resizesOf_cons_small es hb]
      omega

/-- The buffer never exceeds the limit. -/
theorem Steps.length_le (h : Steps cfg w s es ns w' s') (hw : w.cursor.buffer.length ≤ cfg.limit) :
    w'.cursor.buffer.length ≤ cfg.limit := by
  induction h with
  | refl => exact hw
  | @cons w _ _ s _ _ _ _ hs _ ih =>
    apply ih
    rcases step_more hs with ⟨-, rfl, -⟩ | ⟨-, -, hl, rfl, -⟩
    · exact NameIterator.length_next s w.cursor.request ▸ hw
    · rw [Cursor.length_resize]; exact hl

end Walk

end BootOptions
