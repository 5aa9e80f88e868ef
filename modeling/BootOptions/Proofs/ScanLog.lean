/-
  Boot options — what the log tells of a scan.

  A scan speaks to the log from several places: at each option it takes in, and
  wherever it ends.  What it says there agrees with what it was told and with
  the result it gives.

  * `foundIn cfg es`: the records about the boot options told in `es`;
    `Steps.records_eq`: a walk that goes on tells the log just these.
  * `Closing es r q`: the record `q` closes the log of a scan with the exchanges
    `es` and the result `r`; `closing_of_done`: so it is wherever a walk ends.
  * `Scan.Tells`, `Inventory.Tells`: the records due for a scan and for a command.
  * `log_truthful`: the lines of a scan, and of any command of a program, are those
    of the records due, as far as the filter in force lets them through.
-/
import BootOptions.Proofs.History
import BootOptions.Proofs.Names

namespace BootOptions

/-! ## Records -/

/-- The record about a boot option that a scan takes in. -/
def BootOption.record (o : BootOption) : Log.Record where
  level := .debug
  target := "bootslot::boot_records"
  message := "Boot option " ++ Hex.literal 4 o.number.toNat ++ ": " ++ o.name ++ " (" ++
    "EFI_GLOBAL_VARIABLE" ++ ")"

/-- The records about the boot options told in some exchanges, if they are wanted. -/
def foundIn (cfg : ScanConfig) (es : List Exchange) : List Log.Record :=
  if cfg.trace then (optionsOf es).map BootOption.record else []

/-- The record that closes the log of a scan, given its exchanges and its result. -/
inductive Closing (es : List Exchange) : Except ScanError (List BootOption) → Log.Record → Prop
  | completed : Closing es (.ok (optionsOf es)) ⟨.info, "bootslot::boot_records",
      "Found " ++ toString (optionsOf es).length ++ " boot options in " ++ toString (visitsOf es) ++
        " variables"⟩
  | unavailable {e : Exchange} : e ∈ es.getLast? → visitsOf es = 0 →
      Closing es (.error (.storeUnavailable e.answer.status)) ⟨.warn, "bootslot::boot_records",
        "GetNextVariableName failed after 0 variables: " ++ e.answer.status.text⟩
  | failed {e : Exchange} : e ∈ es.getLast? → 0 < visitsOf es →
      Closing es (.error (.iterationFailed e.answer.status (visitsOf es)))
        ⟨.warn, "bootslot::boot_records", "GetNextVariableName failed after " ++
          toString (visitsOf es) ++ " variables: " ++ e.answer.status.text⟩
  | tooLong {e : Exchange} : e ∈ es.getLast? →
      Closing es (.error (.nameTooLong e.answer.size)) ⟨.warn, "bootslot::boot_records",
        "Variable name needs " ++ toString e.answer.size ++ " bytes, giving up"⟩

/-- The records due for a scan: those about its options, and one to close them if
    it has come to an end. -/
inductive Scan.Tells {σ : Type} (cfg : ScanConfig) (s : Scan σ) : List Log.Record → Prop
  | ended {r : Except ScanError (List BootOption)} {q : Log.Record} :
      s.result = some r → Closing s.exchanges r q → Tells cfg s (foundIn cfg s.exchanges ++ [q])
  | cut : s.result = none → Tells cfg s (foundIn cfg s.exchanges)

/-- The records due for a command, if `inv` is what was known before it. -/
inductive Inventory.Tells (inv : Inventory) : Command → List Log.Record → Prop
  | unsupported {σ : Type} [VariableStore σ] {store : σ} {cfg : ScanConfig} {fuel : Nat} :
      VariableStore.isAvailable store = false → Tells inv (.refresh store cfg fuel)
        [⟨.warn, "bootslot::state", "Variable store does not support enumeration"⟩]
  | scanned {σ : Type} [VariableStore σ] {store : σ} {cfg : ScanConfig} {fuel : Nat}
      {rs : List Log.Record} : VariableStore.isAvailable store = true →
      (scan cfg fuel store).Tells cfg rs → Tells inv (.refresh store cfg fuel) rs
  | notScanned : inv.options = none → Tells inv .nextFree []
  | numbered {os : List BootOption} : inv.options = some os → Tells inv .nextFree
      [⟨.debug, "bootslot::state", "Next free boot option: " ++ Hex.literal 4 (leastUnused os) ++
        " (" ++ toString os.length ++ " in use)"⟩]
  | clear : Tells inv .clear []
  | look : Tells inv .look []

/-! ## One answer -/

theorem message_accepted (o : BootOption) (guid : Guid) : (Notice.accepted o guid).message =
    "Boot option " ++ Hex.literal 4 o.number.toNat ++ ": " ++ o.name ++ " (" ++ guid.text ++ ")" :=
  rfl

theorem record_accepted (o : BootOption) : (Notice.accepted o .global).record = o.record := by
  have hg : Guid.global.text = "EFI_GLOBAL_VARIABLE" := by rw [Guid.text, if_pos rfl]
  have hm : (Notice.accepted o .global).message = o.record.message := by
    rw [message_accepted, hg]
    simp only [BootOption.record]
  exact congrArg (Log.Record.mk .debug "bootslot::boot_records") hm

/-- Only variables of the global namespace are taken in. -/
theorem Answer.records_eq (cfg : ScanConfig) (a : Answer) : (a.notices cfg).map Notice.record =
    if cfg.trace then a.option?.toList.map BootOption.record else [] := by
  unfold Answer.notices
  split_ifs
  · rcases ho : a.option? with _ | o
    · rfl
    · have hg : a.guid = .global := by
        rw [Answer.option?] at ho
        split_ifs at ho
        exact (BootOption.ofVariable?_eq_some_iff.1 ho).vendor
      simp [hg, record_accepted]
  · rfl

section
variable {e : Exchange} (es : List Exchange)

theorem foundIn_cons (cfg : ScanConfig) (e : Exchange) : foundIn cfg (e :: es) =
    (if cfg.trace then e.answer.option?.toList.map BootOption.record else []) ++ foundIn cfg es := by
  unfold foundIn optionsOf
  split_ifs
  · cases h : e.answer.option? <;> simp [h]
  · rfl

theorem optionsOf_concat (h : e.answer.status ≠ .success) : optionsOf (es ++ [e]) = optionsOf es := by
  simp [optionsOf, Answer.option?_eq_none h]

theorem visitsOf_concat (h : e.answer.status ≠ .success) : visitsOf (es ++ [e]) = visitsOf es := by
  simp [visitsOf, h]

theorem foundIn_concat (cfg : ScanConfig) (h : e.answer.status ≠ .success) :
    foundIn cfg (es ++ [e]) = foundIn cfg es := by
  rw [foundIn, optionsOf_concat es h, foundIn]

end

/-! ## Walks -/

namespace Walk

variable {σ : Type} [VariableStore σ] {cfg : ScanConfig} {w w' : Walk} {s s' : σ}
  {es : List Exchange} {ns : List Notice}

theorem step_records {a : Answer} (h : w.step cfg a = .more w' ns) : ns.map Notice.record =
    if cfg.trace then a.option?.toList.map BootOption.record else [] := by
  rcases step_more h with ⟨-, -, rfl⟩ | ⟨hs, -, -, -, rfl⟩
  · exact a.records_eq cfg
  · rw [Answer.option?_eq_none (by rw [hs]; decide)]
    simp

/-- **A walk that goes on** tells the log of its boot options. -/
theorem Steps.records_eq (h : Steps cfg w s es ns w' s') : ns.map Notice.record = foundIn cfg es := by
  induction h with
  | refl => simp [foundIn, optionsOf]
  | cons hs _ ih => rw [List.map_append, ih, step_records hs, foundIn_cons]

/-- An answer that ends a walk tells no variable. -/
theorem ne_success_of_done {a : Answer} {r : Except ScanError (List BootOption)} {n : Notice}
    (h : w.step cfg a = .done r n) : a.status ≠ .success := by
  intro hs
  rw [step_eq_iff.2 (.told hs)] at h
  exact nomatch h

/-- **Where a walk ends**, it tells the log the result, and the counts behind it. -/
theorem closing_of_done {q : Request} {a : Answer} {r : Except ScanError (List BootOption)}
    {n : Notice} (hv : w.visited = visitsOf es) (ho : w.options = optionsOf es)
    (h : w.step cfg a = .done r n) : Closing (es ++ [⟨q, a⟩]) r n.record := by
  have hne := ne_success_of_done h
  have hvisits := (visitsOf_concat (e := ⟨q, a⟩) es hne).trans hv.symm
  have hoptions := (optionsOf_concat (e := ⟨q, a⟩) es hne).trans ho.symm
  have hlast : Exchange.mk q a ∈ (es ++ [Exchange.mk q a]).getLast? := by simp
  obtain ⟨-, rfl, rfl⟩ | ⟨-, -, rfl, rfl⟩ | ⟨-, -, -, rfl, rfl⟩ := step_done h
  · rw [← hoptions, ← hvisits]
    exact .completed
  · exact .tooLong hlast
  · split_ifs with h0
    · rw [h0]
      exact .unavailable hlast (hvisits.trans h0)
    · rw [← hvisits] at h0 ⊢
      exact .failed hlast (Nat.pos_of_ne_zero h0)

/-- A walk from the first cursor tells what is due. -/
theorem run_tells (cfg : ScanConfig) (fuel : Nat) (s : σ) :
    (run cfg fuel ⟨cfg.start, 0, []⟩ s).Tells cfg
      ((run cfg fuel ⟨cfg.start, 0, []⟩ s).notices.map Notice.record) := by
  rcases run_cases cfg fuel ⟨cfg.start, 0, []⟩ s with
    ⟨es, ns, w', s', hs, -, hr⟩ | ⟨es, ns, w', s', r, n, hs, hd, hr⟩
  · rw [hr]
    simp only [hs.records_eq]
    exact .cut rfl
  · have hv : w'.visited = visitsOf es := hs.visited_eq.trans (Nat.zero_add _)
    have ho : w'.options = optionsOf es := hs.options_eq
    have hfound := foundIn_concat (e := ⟨w'.cursor.request, _⟩) es cfg (ne_success_of_done hd)
    rw [hr]
    simp only [List.map_append, hs.records_eq, ← hfound]
    exact .ended rfl (closing_of_done hv ho hd)

end Walk

/-! ## Scans and commands -/

theorem scan_tells {σ : Type} [VariableStore σ] {store : σ}
    (ha : VariableStore.isAvailable store = true) (cfg : ScanConfig) (fuel : Nat) :
    (scan cfg fuel store).Tells cfg ((scan cfg fuel store).notices.map Notice.record) := by
  rw [scan_of_available ha]
  exact Walk.run_tells cfg fuel store

/-- A command is logged with the records due for it. -/
theorem Session.turn_tells (s : Session) (h : Holder) (c : Command) :
    ∃ rs, (s.inventory h).Tells c rs ∧ (s.turn h c).lines = s.filter.lines rs := by
  cases c with
  | @refresh σ _ store cfg fuel =>
    rcases ha : VariableStore.isAvailable store with _ | _
    · refine ⟨_, .unsupported ha, ?_⟩
      simp only [turn, lines, Inventory.refresh_of_unavailable ha]
      rfl
    · refine ⟨_, .scanned ha (scan_tells ha cfg fuel), ?_⟩
      simp only [turn, lines, (Inventory.refresh_scan ha).2.1]
  | nextFree =>
    rcases ho : (s.inventory h).options with _ | os
    · refine ⟨[], .notScanned ho, ?_⟩
      simp only [turn, Inventory.nextFree, ho]
      rfl
    · refine ⟨_, .numbered ho, ?_⟩
      simp only [turn, Inventory.nextFree, ho]
      rfl
  | clear => exact ⟨[], .clear, rfl⟩
  | look => exact ⟨[], .look, rfl⟩

/-- **The log tells the truth.**  The lines of a scan are one for each boot option
    it was told, if these are traced, and one that closes it with its result, once
    it has ended; a store that cannot be walked is not logged at all.  A command of
    a program is logged in the same way.  A filter leaves those of the lines that
    are as grave as it demands, in order, and the widest one leaves all. -/
theorem log_truthful {σ : Type} [VariableStore σ] (cfg : ScanConfig) (fuel : Nat) (store : σ) :
    (VariableStore.isAvailable store = false →
      ∀ f : Log.Filter, f.lines ((scan cfg fuel store).notices.map Notice.record) = []) ∧
    (VariableStore.isAvailable store = true → ∃ rs, (scan cfg fuel store).Tells cfg rs ∧
      (Log.Filter.upTo .trace).lines ((scan cfg fuel store).notices.map Notice.record) =
        rs.map Log.Record.line ∧
      ∀ f : Log.Filter, f.lines ((scan cfg fuel store).notices.map Notice.record) =
        (rs.filter fun q => q.level.rank ≤ f.rank).map Log.Record.line) ∧
    ∀ (s : Session) (h : Holder) (c : Command), ∃ rs, (s.inventory h).Tells c rs ∧
      (s.turn h c).lines = (rs.filter fun q => q.level.rank ≤ s.filter.rank).map Log.Record.line := by
  refine ⟨?_, ?_, Session.turn_tells⟩
  · intro ha f
    rw [scan_of_unavailable ha]
    rfl
  · intro ha
    exact ⟨_, scan_tells ha cfg fuel, Log.Filter.lines_trace _, fun _ => rfl⟩

/-- A boot option behind a growth, and then a warning: the option stays in the log
    of the scan that fails. -/
theorem log_truthful_warning :
    (∃ rs, (scan ⟨4, 20, true⟩ 5 warning).Tells ⟨4, 20, true⟩ rs ∧
      rs.map Log.Record.line = [
        "[" ++ Log.Level.debug.tag ++
          "] bootslot::boot_records: Boot option 0x00af: Boot00aF (EFI_GLOBAL_VARIABLE)",
        "[" ++ Log.Level.warn.tag ++
          "] bootslot::boot_records: GetNextVariableName failed after 1 variables: 0x2"] ∧
      ((rs.filter fun q => q.level.rank ≤ Log.Level.info.rank).map Log.Record.line).length = 1) ∧
    (Log.Filter.upTo .trace).lines
      ((scan ⟨4, 20, true⟩ 5 { warning with available := false }).notices.map Notice.record) = [] := by
  obtain ⟨rs, ht, hl, hf⟩ := (log_truthful ⟨4, 20, true⟩ 5 warning).2.1 rfl
  refine ⟨⟨rs, ht, hl.symm.trans (by decide +kernel), ?_⟩, ?_⟩
  · exact (congrArg List.length (hf (.upTo .info))).symm.trans (by decide +kernel)
  · exact (log_truthful ⟨4, 20, true⟩ 5 { warning with available := false }).1 rfl _

end BootOptions
