/-
  Boot options — what a program knows after some commands.

  * `Replies`: the ways in which a command is answered, with the inventory that
    it leaves; `turn_iff`: they are what `Session.turn` does.
  * `Found h cs os`: among the commands `cs`, the last one that changed the
    inventory of `h` is a scan that succeeded with `os`.
  * `history`: after any commands, an inventory holds what was found last; it is
    initialized iff there was a scan to find it.
-/
import Mathlib.Data.List.Induction
import BootOptions.Proofs.Outcome
import BootOptions.Proofs.Refresh
import BootOptions.Session

namespace BootOptions

/-! ## One command -/

/-- The ways in which a command is answered, and the inventory it leaves. -/
inductive Replies (inv : Inventory) : Command → Reply → Inventory → Prop
  | unsupported {σ : Type} [VariableStore σ] {store : σ} {cfg : ScanConfig} {fuel : Nat} :
      VariableStore.isAvailable store = false →
      Replies inv (.refresh store cfg fuel) (.refreshed (some (.error .unsupported)) []) inv
  | failed {σ : Type} [VariableStore σ] {store : σ} {cfg : ScanConfig} {fuel : Nat} {e : ScanError} :
      VariableStore.isAvailable store = true → (scan cfg fuel store).result = some (.error e) →
      Replies inv (.refresh store cfg fuel)
        (.refreshed (some (.error (.scanFailed e))) (scan cfg fuel store).exchanges) inv
  | found {σ : Type} [VariableStore σ] {store : σ} {cfg : ScanConfig} {fuel : Nat}
      {os : List BootOption} :
      VariableStore.isAvailable store = true → (scan cfg fuel store).result = some (.ok os) →
      Replies inv (.refresh store cfg fuel)
        (.refreshed (some (.ok os.length)) (scan cfg fuel store).exchanges) ⟨some os⟩
  | cut {σ : Type} [VariableStore σ] {store : σ} {cfg : ScanConfig} {fuel : Nat} :
      VariableStore.isAvailable store = true → (scan cfg fuel store).result = none →
      Replies inv (.refresh store cfg fuel) (.refreshed none (scan cfg fuel store).exchanges) inv
  | notScanned : inv.options = none → Replies inv .nextFree (.numbered (.error .notScanned)) inv
  | numbered {os : List BootOption} : inv.options = some os →
      Replies inv .nextFree (.numbered (.ok (leastUnused os))) inv
  | clear : Replies inv .clear .nothing ⟨none⟩
  | look : Replies inv .look .nothing inv

variable {s : Session} {h h' : Holder} {c : Command} {r r' : Reply} {inv i i' : Inventory}
  {os : List BootOption} {cs : List (Holder × Command)}

theorem Replies.unique (hr : Replies inv c r i) (hr' : Replies inv c r' i') : r = r' ∧ i = i' := by
  cases hr with
  | unsupported ha =>
    cases hr' with
    | unsupported => exact ⟨rfl, rfl⟩
    | failed ha' | found ha' | cut ha' => simp [ha] at ha'
  | failed ha he =>
    cases hr' with
    | unsupported ha' => simp [ha] at ha'
    | failed _ he' => cases he.symm.trans he'; exact ⟨rfl, rfl⟩
    | found _ he' | cut _ he' => cases he.symm.trans he'
  | found ha he =>
    cases hr' with
    | unsupported ha' => simp [ha] at ha'
    | found _ he' => cases he.symm.trans he'; exact ⟨rfl, rfl⟩
    | failed _ he' | cut _ he' => cases he.symm.trans he'
  | cut ha he =>
    cases hr' with
    | unsupported ha' => simp [ha] at ha'
    | cut => exact ⟨rfl, rfl⟩
    | failed _ he' | found _ he' => cases he.symm.trans he'
  | notScanned hn =>
    cases hr' with
    | notScanned => exact ⟨rfl, rfl⟩
    | numbered hn' => cases hn.symm.trans hn'
  | numbered hn =>
    cases hr' with
    | notScanned hn' => cases hn.symm.trans hn'
    | numbered hn' => cases hn.symm.trans hn'; exact ⟨rfl, rfl⟩
  | clear => cases hr'; exact ⟨rfl, rfl⟩
  | look => cases hr'; exact ⟨rfl, rfl⟩

namespace Session

theorem put_self (s : Session) (h : Holder) : s.put h (s.inventory h) = s := by
  have hi : (s.put h (s.inventory h)).inventory = s.inventory := by
    funext h'
    by_cases he : h' = h
    · rw [he, put_inventory_self]
    · exact put_inventory_of_ne s _ he
  cases s
  exact congrArg (Session.mk · _) hi

theorem turn_replies (s : Session) (h : Holder) (c : Command) :
    ∃ i, Replies (s.inventory h) c (s.turn h c).reply i ∧ (s.turn h c).session = s.put h i := by
  cases c with
  | @refresh σ _ store cfg fuel =>
    refine ⟨((s.inventory h).refresh cfg fuel store).inventory, ?_, rfl⟩
    show Replies _ _ (.refreshed _ _) _
    rcases ha : VariableStore.isAvailable store with _ | _
    · rw [Inventory.refresh_of_unavailable ha]; exact .unsupported ha
    rcases hr : (scan cfg fuel store).result with _ | e | os
    · rw [Inventory.refresh_of_none ha hr]; exact .cut ha hr
    · rw [Inventory.refresh_of_error ha hr]; exact .failed ha hr
    · rw [Inventory.refresh_of_ok ha hr]; exact .found ha hr
  | nextFree =>
    refine ⟨s.inventory h, ?_, (put_self s h).symm⟩
    show Replies _ _ (.numbered (s.inventory h).nextFree.1) _
    rcases ho : (s.inventory h).options with _ | os
    · rw [Inventory.nextFree, ho]; exact .notScanned ho
    · rw [Inventory.nextFree, ho]; exact .numbered ho
  | clear => exact ⟨⟨none⟩, .clear, rfl⟩
  | look => exact ⟨s.inventory h, .look, (put_self s h).symm⟩

/-- **What a command does.**  It changes the inventory it is for, and no other. -/
theorem turn_iff : (s.turn h c).reply = r ∧ (s.turn h c).session = s.put h i ↔
    Replies (s.inventory h) c r i := by
  obtain ⟨j, hj, hs⟩ := turn_replies s h c
  constructor
  · rintro ⟨rfl, hi⟩
    have he := congrArg (Session.inventory · h) (hs.symm.trans hi)
    simp only [put_inventory_self] at he
    exact he ▸ hj
  · intro hr
    obtain ⟨rfl, rfl⟩ := hj.unique hr
    exact ⟨rfl, hs⟩

end Session

/-! ## Many commands -/

/-- The command is a scan that succeeds with `os`. -/
def Command.Finds (os : List BootOption) : Command → Prop
  | @Command.refresh _ _ store cfg fuel => (scan cfg fuel store).result = some (.ok os)
  | _ => False

/-- The command replaces what is known. -/
def Command.Overrides (c : Command) : Prop := c = .clear ∨ ∃ os, c.Finds os

/-- The last of the commands that replaced what `h` knows found `os`. -/
def Found (h : Holder) (cs : List (Holder × Command)) (os : List BootOption) : Prop :=
  ∃ before c later, cs = before ++ (h, c) :: later ∧ c.Finds os ∧
    ∀ x ∈ later, x.1 = h → ¬ x.2.Overrides

theorem found_append : Found h (cs ++ [(h', c)]) os ↔
    h' = h ∧ c.Finds os ∨ ¬ (h' = h ∧ c.Overrides) ∧ Found h cs os := by
  constructor
  · rintro ⟨before, d, later, he, hf, hl⟩
    -- either the last command is the one that found `os`, or it came later
    rcases List.eq_nil_or_concat later with rfl | ⟨later, x, rfl⟩
    · obtain ⟨-, hx⟩ := List.append_inj' he rfl
      cases hx
      exact Or.inl ⟨rfl, hf⟩
    · rw [List.concat_eq_append, ← List.cons_append, ← List.append_assoc] at he
      obtain ⟨rfl, hx⟩ := List.append_inj' he rfl
      cases hx
      refine Or.inr ⟨?_, before, d, later, rfl, hf, fun x hx => hl x (by simp [hx])⟩
      rintro ⟨rfl, ho⟩
      exact hl (h', c) (by simp) rfl ho
  · rintro (⟨rfl, hf⟩ | ⟨hn, before, d, later, rfl, hf, hl⟩)
    · exact ⟨cs, c, [], rfl, hf, by simp⟩
    · refine ⟨before, d, later ++ [(h', c)], by simp, hf, ?_⟩
      intro x hx hxh ho
      rcases List.mem_append.1 hx with hx | hx
      · exact hl x hx hxh ho
      · obtain rfl := List.mem_singleton.1 hx
        exact hn ⟨hxh, ho⟩

/-- What is known behind a command: what it found, or else what was known. -/
theorem Replies.options_iff (hr : Replies inv c r i) :
    i.options = some os ↔ c.Finds os ∨ ¬ c.Overrides ∧ inv.options = some os := by
  cases hr with
  | unsupported ha =>
    simp [Command.Overrides, Command.Finds, scan_of_unavailable ha]
  | failed _ he => simp [Command.Overrides, Command.Finds, he]
  | found _ he => simp [Command.Overrides, Command.Finds, he]
  | cut _ he => simp [Command.Overrides, Command.Finds, he]
  | notScanned | numbered | look => simp [Command.Overrides, Command.Finds]
  | clear => simp [Command.Overrides, Command.Finds]

namespace Session

/-- A session in which nothing has been scanned. -/
def start (filter : Log.Filter) : Session := { filter }

/-- The session after some commands. -/
def after (s : Session) (cs : List (Holder × Command)) : Session :=
  cs.foldl (fun s x => (s.turn x.1 x.2).session) s

theorem after_append (s : Session) (cs : List (Holder × Command)) (h : Holder) (c : Command) :
    s.after (cs ++ [(h, c)]) = ((s.after cs).turn h c).session := by
  rw [after, List.foldl_append]; rfl

theorem options_after (hs : ∀ h, s.inventory h = {}) :
    ((s.after cs).inventory h).options = some os ↔ Found h cs os := by
  induction cs using List.reverseRecOn with
  | nil =>
    rw [after, List.foldl_nil, hs]
    simp [Found]
  | append_singleton cs x ih =>
    obtain ⟨h', c⟩ := x
    obtain ⟨i, hr, ht⟩ := turn_replies (s.after cs) h' c
    rw [found_append, ← ih, after_append, ht]
    by_cases he : h' = h
    · subst he
      rw [put_inventory_self, hr.options_iff]
      simp
    · rw [put_inventory_of_ne _ _ (Ne.symm he)]
      simp [he]

/-- An inventory is initialized iff a scan has succeeded since it was cleared. -/
theorem isInitialized_after (hs : ∀ h, s.inventory h = {}) :
    ((s.after cs).inventory h).isInitialized = true ↔ ∃ os, Found h cs os := by
  rw [Inventory.isInitialized_iff]
  exact exists_congr fun os => options_after hs

/-- **A program knows what was found last.**  After any commands, an inventory
    holds the options of the last scan that succeeded since it was cleared, and
    is initialized, if there is one; the next command does to it what `Replies`
    says, and nothing to the others. -/
theorem history (filter : Log.Filter) (cs : List (Holder × Command)) (h : Holder) :
    (∀ os, (((start filter).after cs).inventory h).options = some os ↔ Found h cs os) ∧
    ((((start filter).after cs).inventory h).isInitialized = true ↔ ∃ os, Found h cs os) ∧
    (∀ c r i, (((start filter).after cs).turn h c).reply = r ∧
        (((start filter).after cs).turn h c).session = ((start filter).after cs).put h i ↔
      Replies (((start filter).after cs).inventory h) c r i) ∧
    ((((start filter).after cs).inventory h).options = some [] →
      (((start filter).after cs).turn h .nextFree).reply = .numbered (.ok 0)) := by
  refine ⟨?_, ?_, ?_, ?_⟩
  · intro os
    exact options_after fun _ => rfl
  · exact isInitialized_after fun _ => rfl
  · intro c r i
    exact turn_iff
  · intro ho
    rw [(turn_iff.2 (.numbered ho)).1, leastUnused_nil]

end Session

end BootOptions
