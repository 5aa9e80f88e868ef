/-
  Boot options — what is left in the buffer does not count.

  One buffer serves for all names.  A short name leaves the end of a longer one
  behind its zero, and a store may scribble into the buffer even when it tells no
  variable.  Nothing of that is ever read: scans of two stores that tell the same
  variables are the same, whatever else the stores leave behind.

  * `ReplayStep.Alike n s s'`: to a caller with a buffer of `n` units, the steps
    tell the same; `Replay.Alike`: so do two scripts, step by step, with the
    buffer that a scan has then.
  * `Walk.Alike`: the walks differ at most in the units of their buffers;
    `Walk.Alike.step`: they stay so by steps that are alike.
  * `Exchange.outline`: an exchange without the units of its buffer; `Scan.Alike`:
    scans with the same outlines, result and notices; `run_alike`: the walks
    through scripts that are alike are.
  * `scan_ends_of_script`: a scan of a script ends behind its last step.
  * `stale_units_unseen`: scans of scripts that are alike have the same outlines,
    the same result and the same next number.
-/
import BootOptions.Proofs.Names
import BootOptions.Proofs.Outcome
import BootOptions.Proofs.Refresh

namespace BootOptions

/-! ## Scripts -/

/-- The size that a step leaves, if it was asked with `size` bytes of room. -/
def ReplayStep.sizeLeft (s : ReplayStep) (size : Nat) : Nat :=
  s.size.getD (s.write.elim size fun u => 2 * u.length)

/-- To a caller with a buffer of `n` units, the steps tell the same: a variable
    with the same name, closed by a zero that is inside the buffer, or the same
    request for a larger one. -/
structure ReplayStep.Alike (n : Nat) (s s' : ReplayStep) : Prop where
  status : s.status = s'.status
  guid : s.guid = s'.guid
  size : s.status = .bufferTooSmall → s.sizeLeft (2 * n) = s'.sizeLeft (2 * n)
  name : s.status = .success → ∃ name t t', s.write = some (name ++ 0 :: t) ∧
    s'.write = some (name ++ 0 :: t') ∧ 0 ∉ name ∧ name.length < n

/-- The length that a buffer of `n` units has behind a step, if a scan goes on
    behind it. -/
def ScanConfig.lengthAfter (cfg : ScanConfig) (n : Nat) (s : ReplayStep) : Option Nat :=
  let needed := (s.sizeLeft (2 * n) + 1) / 2
  if s.status = .success then some n
  else if s.status = .bufferTooSmall ∧ n < needed ∧ needed ≤ cfg.limit then some needed
  else none

/-- From a buffer of `n` units on, the scripts are alike step by step, as far as a
    scan follows them. -/
inductive Replay.Alike (cfg : ScanConfig) : Nat → List ReplayStep → List ReplayStep → Prop
  | nil {n : Nat} : Alike cfg n [] []
  | cons {n : Nat} {s s' : ReplayStep} {rest rest' : List ReplayStep} :
      s.Alike n s' → (∀ n', cfg.lengthAfter n s = some n' → Alike cfg n' rest rest') →
      Alike cfg n (s :: rest) (s' :: rest')

theorem Replay.Alike.told {cfg : ScanConfig} {n : Nat} {s s' : ReplayStep}
    {rest rest' : List ReplayStep} (hs : s.Alike n s') (h : s.status = .success)
    (hrest : Alike cfg n rest rest') : Alike cfg n (s :: rest) (s' :: rest') := by
  refine .cons hs fun n' hn => ?_
  rw [ScanConfig.lengthAfter, if_pos h] at hn
  cases hn
  exact hrest

/-! ## Answers -/

/-- The answers differ at most in the units of their buffers that are not read. -/
structure Answer.Alike (a a' : Answer) : Prop where
  status : a.status = a'.status
  guid : a.guid = a'.guid
  length : a.buffer.length = a'.buffer.length
  size : a.status = .bufferTooSmall → a.size = a'.size
  option : a.option? = a'.option?

/-- The walks differ at most in the units of their buffers. -/
structure Walk.Alike (w w' : Walk) : Prop where
  guid : w.cursor.guid = w'.cursor.guid
  length : w.cursor.buffer.length = w'.cursor.buffer.length
  visited : w.visited = w'.visited
  options : w.options = w'.options

theorem ReplayStep.Alike.option?_answer {s s' : ReplayStep} {c c' : Cursor}
    (h : s.Alike c.buffer.length s') (hl : c.buffer.length = c'.buffer.length)
    (hg : c.guid = c'.guid) : (s.answer c.request).option? = (s'.answer c'.request).option? := by
  have hguid : s.guid.getD c.guid = s'.guid.getD c'.guid := by rw [h.guid, hg]
  by_cases hs : s.status = .success
  · obtain ⟨name, t, t', hw, hw', -, hn⟩ := h.name hs
    have hstem : (s.answer c.request).buffer.stem = (s'.answer c'.request).buffer.stem := by
      show Units.stem (s.write.elim c.buffer c.buffer.overwrite) =
        Units.stem (s'.write.elim c'.buffer c'.buffer.overwrite)
      rw [hw, hw', Option.elim_some, Option.elim_some, Units.stem_overwrite hn,
        Units.stem_overwrite (hl ▸ hn)]
    have hs' : s'.status = .success := h.status.symm.trans hs
    calc (s.answer c.request).option?
        = BootOption.ofVariable? (s.guid.getD c.guid) (s.answer c.request).buffer := if_pos hs
      _ = BootOption.ofVariable? (s'.guid.getD c'.guid) (s'.answer c'.request).buffer := by
          rw [hguid, BootOption.ofVariable?_congr hstem]
      _ = (s'.answer c'.request).option? := (if_pos hs').symm
  · rw [Answer.option?_eq_none hs, Answer.option?_eq_none fun hs' => hs (h.status.trans hs')]

/-- Steps that are alike give answers that are alike. -/
theorem ReplayStep.Alike.answer {w w' : Walk} {s s' : ReplayStep}
    (h : s.Alike w.cursor.buffer.length s') (hw : w.Alike w') :
    (s.answer w.cursor.request).Alike (s'.answer w'.cursor.request) where
  status := h.status
  guid := by
    show s.guid.getD w.cursor.guid = s'.guid.getD w'.cursor.guid
    rw [h.guid, hw.guid]
  length := by
    rw [Replay.length_step, Replay.length_step]
    exact hw.length
  size hs := by
    show s.sizeLeft (2 * w.cursor.buffer.length) = s'.sizeLeft (2 * w'.cursor.buffer.length)
    rw [h.size hs, hw.length]
  option := h.option?_answer hw.length hw.guid

/-! ## Walks -/

/-- The reactions go on with walks that are alike, or end in the same way. -/
inductive Step.Alike : Step → Step → Prop
  | more {w w' : Walk} {ns : List Notice} : w.Alike w' → Alike (.more w ns) (.more w' ns)
  | done {r : Except ScanError (List BootOption)} {n : Notice} : Alike (.done r n) (.done r n)

theorem Walk.Alike.step {cfg : ScanConfig} {w w' : Walk} {a a' : Answer} (hw : w.Alike w')
    (ha : a.Alike a') : (w.step cfg a).Alike (w'.step cfg a') := by
  have hneed : a.status = .bufferTooSmall → a.needed = a'.needed := fun hs => by
    rw [Answer.needed, Answer.needed, ha.size hs]
  have hr : Reaction cfg w a (w.step cfg a) := step_eq_iff.1 rfl
  generalize w.step cfg a = t at hr
  cases hr with
  | told hs =>
    have hns : a.notices cfg = a'.notices cfg := by
      rw [Answer.notices, Answer.notices, ha.option, ha.guid]
    rw [step_eq_iff.2 (.told (ha.status ▸ hs)), ← hns]
    refine .more ⟨ha.guid, ha.length, congrArg (· + 1) hw.visited, ?_⟩
    rw [behind, behind, hw.options, ha.option]
  | larger hs hlt hlim =>
    rw [hneed hs] at hlt hlim
    rw [step_eq_iff.2 (.larger (ha.status ▸ hs) (ha.length ▸ hlt) hlim)]
    refine .more ⟨ha.guid, ?_, hw.visited, hw.options⟩
    rw [Cursor.length_resize, Cursor.length_resize, hneed hs]
  | exhausted hs =>
    rw [step_eq_iff.2 (.exhausted (ha.status ▸ hs)), hw.options, hw.visited]
    exact .done
  | tooLong hs hlim =>
    rw [hneed hs] at hlim
    rw [step_eq_iff.2 (.tooLong (ha.status ▸ hs) hlim), ha.size hs]
    exact .done
  | failed hs hn hb =>
    rw [step_eq_iff.2 (.failed (ha.status ▸ hs) (ha.status ▸ hn) ?_)]
    · rw [fail, fail, hw.visited, ha.status]
      exact .done
    · intro hs'
      have hs := ha.status.trans hs'
      rw [← hneed hs, ← ha.length]
      exact hb hs

/-- The buffer that a walk has behind a step is the one the step leaves it. -/
theorem Walk.lengthAfter_eq {cfg : ScanConfig} {w w₁ : Walk} {s : ReplayStep} {ns : List Notice}
    (h : w.step cfg (s.answer w.cursor.request) = .more w₁ ns) :
    cfg.lengthAfter w.cursor.buffer.length s = some w₁.cursor.buffer.length := by
  have hl : (s.answer w.cursor.request).buffer.length = w.cursor.buffer.length :=
    Replay.length_step s w.cursor.request
  rcases step_more h with ⟨hs, rfl, -⟩ | ⟨hs, hlt, hlim, rfl, -⟩
  · have hs : s.status = .success := hs
    rw [ScanConfig.lengthAfter, if_pos hs]
    exact congrArg some hl.symm
  · have hs : s.status = .bufferTooSmall := hs
    have hne : s.status ≠ .success := by rw [hs]; decide
    rw [Cursor.length_resize, ScanConfig.lengthAfter, if_neg hne]
    rw [hl] at hlt
    exact if_pos ⟨hs, hlt, hlim⟩

/-! ## Scans -/

/-- An exchange without the units of its buffer: the length of that, the size and
    the GUID in the question, and the status of the answer. -/
def Exchange.outline (e : Exchange) : Nat × Nat × Guid × Status :=
  (e.request.buffer.length, e.request.size, e.request.guid, e.answer.status)

/-- The scans differ at most in the units of their buffers. -/
structure Scan.Alike {σ τ : Type} (s : Scan σ) (t : Scan τ) : Prop where
  result : s.result = t.result
  calls : s.exchanges.map Exchange.outline = t.exchanges.map Exchange.outline
  notices : s.notices = t.notices

theorem Walk.Alike.outline_eq {w w' : Walk} {a a' : Answer} (hw : w.Alike w')
    (ha : a.status = a'.status) : Exchange.outline ⟨w.cursor.request, a⟩ =
      Exchange.outline ⟨w'.cursor.request, a'⟩ := by
  have hsize : w.cursor.byteSize = w'.cursor.byteSize := by
    rw [Cursor.byteSize, Cursor.byteSize, hw.length]
  show (w.cursor.buffer.length, w.cursor.byteSize, w.cursor.guid, a.status) =
    (w'.cursor.buffer.length, w'.cursor.byteSize, w'.cursor.guid, a'.status)
  rw [hw.length, hsize, hw.guid, ha]

/-- One question more to each of two stores: if the answers are alike and so is all
    that follows them, the walks are alike. -/
theorem Walk.Alike.run_succ {σ τ : Type} [VariableStore σ] [VariableStore τ] {cfg : ScanConfig}
    {w w' : Walk} {s : σ} {t : τ} {fuel : Nat} (hw : w.Alike w')
    (ha : (NameIterator.next s w.cursor.request).1.Alike (NameIterator.next t w'.cursor.request).1)
    (hrest : ∀ w₁ w₁' ns, w.step cfg (NameIterator.next s w.cursor.request).1 = .more w₁ ns →
      w₁.Alike w₁' → (run cfg fuel w₁ (NameIterator.next s w.cursor.request).2).Alike
        (run cfg fuel w₁' (NameIterator.next t w'.cursor.request).2)) :
    (run cfg (fuel + 1) w s).Alike (run cfg (fuel + 1) w' t) := by
  have hout := hw.outline_eq ha.status
  have hstep : (w.step cfg _).Alike (w'.step cfg _) := hw.step ha
  generalize hr : w.step cfg (NameIterator.next s w.cursor.request).1 = r at hstep
  generalize hr' : w'.step cfg (NameIterator.next t w'.cursor.request).1 = r' at hstep
  cases hstep with
  | done =>
    rw [run_done hr, run_done hr']
    exact ⟨rfl, congrArg ([·]) hout, rfl⟩
  | @more _ _ ns hw₁ =>
    rw [run_more hr, run_more hr']
    obtain ⟨hresult, hcalls, hnotices⟩ := hrest _ _ _ hr hw₁
    exact ⟨hresult, by rw [List.map_cons, List.map_cons, hout, hcalls], congrArg (ns ++ ·) hnotices⟩

namespace Replay

variable {cfg : ScanConfig} {w w' : Walk}

/-- Behind a script there is no variable, and a walk does not go on. -/
theorem step_behind (b : Bool) (ns : List Notice) :
    w.step cfg (NameIterator.next (Replay.mk [] b) w.cursor.request).1 ≠ .more w' ns := by
  intro h
  rcases Walk.step_more h with ⟨hs, -⟩ | ⟨hs, -⟩
  · exact nomatch hs
  · exact nomatch hs

/-- **Walks stay alike** along scripts that are alike. -/
theorem run_alike {n : Nat} {steps steps' : List ReplayStep} (h : Alike cfg n steps steps')
    (hw : w.Alike w') (hn : w.cursor.buffer.length = n) (b b' : Bool) (fuel : Nat) :
    (Walk.run cfg fuel w (Replay.mk steps b)).Alike
      (Walk.run cfg fuel w' (Replay.mk steps' b')) := by
  induction h generalizing w w' fuel with
  | nil =>
    rcases fuel with _ | fuel
    · exact ⟨rfl, rfl, rfl⟩
    · refine hw.run_succ ⟨rfl, hw.guid, hw.length, nofun, rfl⟩ ?_
      intro w₁ w₁' ns hstep
      exact absurd hstep (step_behind b ns)
  | cons hs _ ih =>
    rcases fuel with _ | fuel
    · exact ⟨rfl, rfl, rfl⟩
    · subst hn
      refine hw.run_succ (hs.answer hw) ?_
      intro w₁ w₁' ns hstep hw₁
      exact ih _ (Walk.lengthAfter_eq hstep) hw₁ rfl fuel

/-- A walk goes on behind steps of the script alone. -/
theorem length_steps {p p' : Replay} {es : List Exchange} {ns : List Notice}
    (h : Walk.Steps cfg w p es ns w' p') : es.length + p'.steps.length = p.steps.length := by
  induction h with
  | refl => simp
  | @cons _ _ _ p _ _ _ _ hs _ ih =>
    obtain ⟨_ | ⟨s, rest⟩, b⟩ := p
    · exact absurd hs (step_behind b _)
    · have hrest : _ = rest.length := ih
      rw [List.length_cons, List.length_cons, ← hrest]
      omega

theorem length_lt_callBound {p p' : Replay} {es : List Exchange} {ns : List Notice}
    (h : Walk.Steps cfg w p es ns w' p') : es.length < p.callBound := by
  rw [callBound, ← length_steps h]
  omega

theorem scan_ends_of_script (cfg : ScanConfig) (p : Replay) :
    ∃ r, ∀ fuel, p.callBound ≤ fuel → (scan cfg fuel p).result = some r := by
  rcases ha : VariableStore.isAvailable p with _ | _
  · exact ⟨_, fun fuel _ => congrArg Scan.result (scan_of_unavailable ha cfg fuel)⟩
  rcases Walk.run_cases cfg p.callBound ⟨cfg.start, 0, []⟩ p with
    ⟨es, ns, w', p', hs, hl, -⟩ | ⟨es, ns, w', p', r, n, hs, hd, -⟩
  · exact absurd hl (Nat.ne_of_lt (length_lt_callBound hs))
  · refine ⟨r, ?_⟩
    intro fuel hf
    rw [scan_of_available ha, hs.run_done rfl hd (Nat.lt_of_lt_of_le (length_lt_callBound hs) hf)]

/-- **What is left in the buffer does not count.**  Scans of scripts that are alike
    ask equally often, each time with the same size and length of the buffer, and
    have the same result, behind the last step at the latest.  So a refresh tells the
    same, and the next free number is the same. -/
theorem stale_units_unseen {cfg : ScanConfig} {p q : Replay} (hp : p.available = true)
    (hq : q.available = true) (h : Alike cfg cfg.start.buffer.length p.steps q.steps) :
    (∀ fuel, (scan cfg fuel p).Alike (scan cfg fuel q) ∧ ∀ inv : Inventory,
      (inv.refresh cfg fuel p).result = (inv.refresh cfg fuel q).result ∧
      (inv.refresh cfg fuel p).inventory.nextFree = (inv.refresh cfg fuel q).inventory.nextFree) ∧
    ∃ r, ∀ fuel, p.callBound ≤ fuel →
      (scan cfg fuel p).result = some r ∧ (scan cfg fuel q).result = some r := by
  have ha : VariableStore.isAvailable p = true := hp
  have ha' : VariableStore.isAvailable q = true := hq
  have hscan : ∀ fuel, (scan cfg fuel p).Alike (scan cfg fuel q) := fun fuel => by
    rw [scan_of_available ha, scan_of_available ha']
    exact run_alike h ⟨rfl, rfl, rfl, rfl⟩ rfl p.available q.available fuel
  constructor
  · intro fuel
    refine ⟨hscan fuel, ?_⟩
    intro inv
    obtain ⟨hr, hi⟩ := inv.refresh_congr ha ha' (hscan fuel).result
    exact ⟨hr, congrArg Inventory.nextFree hi⟩
  · obtain ⟨r, hr⟩ := scan_ends_of_script cfg p
    refine ⟨r, ?_⟩
    intro fuel hf
    exact ⟨hr fuel hf, (hscan fuel).result.symm.trans (hr fuel hf)⟩

/-- A script with names that are closed where they end. -/
def tidy : Replay where
  steps := [⟨.bufferTooSmall, none, some 22, none⟩,
    ⟨.success, some (Units.terminated "BootOrder"), none, some .global⟩,
    ⟨.success, some (Units.terminated "Boot0000"), none, none⟩,
    ⟨.success, some (Units.terminated "Key"), none, some .zero⟩]

/-- The same variables behind scribbles, with other sizes. -/
def untidy : Replay where
  steps := [⟨.bufferTooSmall, some [0x42, 0x6F], some 22, none⟩,
    ⟨.success, some (Units.terminated "BootOrder" ++ [0x42]), some 3, some .global⟩,
    ⟨.success, some (Units.terminated "Boot0000" ++ [0x31, 0xD800]), none, none⟩,
    ⟨.success, some (Units.terminated "Key" ++ Units.terminated "0001"), some 0, some .zero⟩]

theorem stale_units_unseen_untidy :
    (scan ⟨4, 12, true⟩ 5 tidy).Alike (scan ⟨4, 12, true⟩ 5 untidy) ∧
    (scan ⟨4, 12, true⟩ 5 untidy).result = some (.ok [⟨"Boot0000", 0⟩]) := by
  have h : Alike ⟨4, 12, true⟩ 4 tidy.steps untidy.steps := by
    refine .cons ⟨rfl, rfl, fun _ => rfl, nofun⟩ fun n hn => ?_
    obtain rfl : 11 = n := Option.some.inj hn
    refine .told ⟨rfl, rfl, nofun, fun _ => ⟨Utf16.encode "BootOrder".toList, [], [0x42],
      rfl, rfl, by decide, by decide⟩⟩ rfl ?_
    refine .told ⟨rfl, rfl, nofun, fun _ => ⟨Utf16.encode "Boot0000".toList, [], [0x31, 0xD800],
      rfl, rfl, by decide, by decide⟩⟩ rfl ?_
    exact .told ⟨rfl, rfl, nofun, fun _ => ⟨Utf16.encode "Key".toList, [], Units.terminated "0001",
      rfl, rfl, by decide, by decide⟩⟩ rfl .nil
  obtain ⟨hs, -⟩ := (stale_units_unseen (p := tidy) (q := untidy) rfl rfl h).1 5
  exact ⟨hs, hs.result.symm.trans (by decide)⟩

end Replay

end BootOptions
