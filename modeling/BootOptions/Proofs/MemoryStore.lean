/-
  Boot options — the answers of a memory store.

  * `WellNamed`: the variables have names and differ in vendor or name, so that
    a cursor stands on at most one of them; `after?_of_isAt`: the cursor on a
    variable is followed by the next one.
  * `genuine_end`, `genuine_short`, `genuine_fits`: the answers to a cursor
    whose successor is known.
  * `Listed vs os`: the boot options among the variables `vs` are `os`.
-/
import BootOptions.Proofs.Names
import BootOptions.Store.Memory

namespace BootOptions

namespace Units

theorem resize_of_le {u : Units} {n : Nat} (h : u.length ≤ n) :
    u.resize n = u ++ zeros (n - u.length) := by
  rw [resize, List.take_of_length_le h]

theorem stem_append_zeros (u : Units) (n : Nat) : stem (u ++ zeros n) = u.stem := by
  cases n with
  | zero => rw [zeros, List.replicate_zero, List.append_nil]
  | succ n => exact stem_append_zero u (zeros n)

/-- A buffer of another size keeps the name if there is room for it, also when
    the zero behind the name is lost. -/
theorem stem_resize {u : Units} {n : Nat} (h : u.stem.length ≤ n) : (u.resize n).stem = u.stem := by
  rw [resize, stem_append_zeros, stem, ← List.take_takeWhile]
  exact List.take_of_length_le h

theorem length_stem_le (u : Units) : u.stem.length ≤ u.length :=
  (List.takeWhile_sublist _).length_le

end Units

namespace Variable

theorem stem_stored (v : Variable) : v.stored.stem = v.name.stem := Units.stem_append_zero v.name []

theorem isAt_iff {v : Variable} {c : Cursor} :
    v.isAt c = true ↔ v.guid = c.guid ∧ v.name.stem = c.name := by
  rw [isAt, decide_eq_true_iff, Units.sameName_iff, stem_stored]
  rfl

/-- A cursor of another size stands where it stood, if its name is still whole. -/
theorem isAt_resize (v : Variable) {c : Cursor} {n : Nat} (h : c.name.length ≤ n) :
    v.isAt (c.resize n) = v.isAt c := by
  have hn : (c.resize n).name = c.name := Units.stem_resize h
  rw [Bool.eq_iff_iff, isAt_iff, isAt_iff, hn]
  rfl

/-- Whatever is left behind the stored name does not count. -/
theorem stem_overwrite (v : Variable) {u : Units} (h : v.stored.length ≤ u.length) :
    (u.overwrite v.stored).stem = v.name.stem := by
  rw [stored, List.length_append] at h
  exact Units.stem_overwrite h []

/-- The boot option that a variable is. -/
def option? (v : Variable) : Option BootOption := BootOption.ofVariable? v.guid v.name

end Variable

/-- The variables have names, and no two have the same vendor and name. -/
structure WellNamed (vs : List Variable) : Prop where
  named : ∀ v ∈ vs, v.name.stem ≠ []
  distinct : vs.Pairwise fun u v => ¬ (u.guid = v.guid ∧ u.name.stem = v.name.stem)

theorem WellNamed.append_left {us vs : List Variable} (h : WellNamed (us ++ vs)) : WellNamed us :=
  ⟨fun v hv => h.named v (List.mem_append_left vs hv), (List.pairwise_append.1 h.distinct).1⟩

/-! ## Successors -/

namespace MemoryStore

variable {m : MemoryStore}

/-- The cursor on a variable is followed by the next one, if none in front of it
    has the same vendor and name. -/
theorem after?_of_first {before after : List Variable} {v : Variable}
    (hw : WellNamed (before ++ [v])) (hm : m.contents = before ++ v :: after) {c : Cursor}
    (hc : v.isAt c = true) : m.after? c = some (before.length + 1) := by
  obtain ⟨hg, hn⟩ := Variable.isAt_iff.1 hc
  have hne : c.name.isEmpty = false := by
    rw [← hn, List.isEmpty_eq_false_iff]
    exact hw.named v (by simp)
  have hbefore : before.findIdx? (·.isAt c) = none := by
    rw [List.findIdx?_eq_none_iff]
    intro u hu
    have hd := (List.pairwise_append.1 hw.distinct).2.2 u hu v (by simp)
    refine Bool.eq_false_iff.2 fun hat => hd ?_
    obtain ⟨hg', hn'⟩ := Variable.isAt_iff.1 hat
    exact ⟨hg'.trans hg.symm, hn'.trans hn.symm⟩
  rw [after?, hne, hm, List.findIdx?_append, hbefore, List.findIdx?_cons, hc]
  simp

theorem after?_of_isAt (hw : WellNamed m.contents) {before after : List Variable} {v : Variable}
    (hm : m.contents = before ++ v :: after) {c : Cursor} (hc : v.isAt c = true) :
    m.after? c = some (before.length + 1) := by
  rw [hm, List.append_cons] at hw
  exact after?_of_first hw.append_left hm hc

theorem after?_of_empty {c : Cursor} (h : c.name = []) : m.after? c = some 0 := by
  rw [after?, h]; rfl

/-- The successor depends on the name in the buffer, not on its size. -/
theorem after?_resize {c : Cursor} {n : Nat} (h : c.name.length ≤ n) :
    m.after? (c.resize n) = m.after? c := by
  have hn : (c.resize n).name = c.name := Units.stem_resize h
  rw [after?, after?, hn, funext fun v => Variable.isAt_resize v h]

/-! ## Answers -/

theorem answer_eq_genuine (ha : m.available = true) (hd : m.due = none) (r : Request) :
    m.answer r = m.genuine r := by
  rw [answer, if_pos ha, hd]

section
variable {r : Request} {i : Nat} (h : m.after? r.toCursor = some i)
include h

theorem genuine_end (hi : m.contents[i]? = none) :
    m.genuine r = (r.refused .notFound, m.counted) := by
  simp only [genuine, h, hi]

theorem genuine_short {v : Variable} (hi : m.contents[i]? = some v)
    (hs : r.size < v.byteSize ∨ r.buffer.length < v.stored.length) :
    m.genuine r = ({ r.refused .bufferTooSmall with size := v.byteSize },
      { m.counted with resizeRequests := m.resizeRequests + 1 }) := by
  simp only [genuine, h, hi, if_pos hs]

theorem genuine_fits {v : Variable} (hi : m.contents[i]? = some v) (hs : v.byteSize ≤ r.size)
    (hl : v.stored.length ≤ r.buffer.length) :
    m.genuine r = (⟨⟨r.buffer.overwrite v.stored, v.guid⟩, .success, v.byteSize⟩, m.counted) := by
  have hn : ¬ (r.size < v.byteSize ∨ r.buffer.length < v.stored.length) := by omega
  simp only [genuine, h, hi, if_neg hn]

end

end MemoryStore

/-! ## The boot options of a store -/

/-- The boot options among some variables, in their order. -/
inductive Listed : List Variable → List BootOption → Prop
  | nil : Listed [] []
  | option {v : Variable} {o : BootOption} {vs : List Variable} {os : List BootOption} :
      BootOption.Represents v.guid v.name o → Listed vs os → Listed (v :: vs) (o :: os)
  | other {v : Variable} {vs : List Variable} {os : List BootOption} :
      ¬ (v.guid = .global ∧ ∃ n, BootOption.Names v.name n) → Listed vs os → Listed (v :: vs) os

theorem Variable.option?_eq_some_iff {v : Variable} {o : BootOption} :
    v.option? = some o ↔ BootOption.Represents v.guid v.name o :=
  BootOption.ofVariable?_eq_some_iff

theorem Variable.option?_of_names {v : Variable} {n : Nat} (hg : v.guid = .global)
    (hn : BootOption.Names v.name n) : v.option? = some ⟨v.name.text, .ofNat n⟩ := by
  refine option?_eq_some_iff.2 ⟨hg, ?_, BootOption.encode_text hn⟩
  rw [UInt16.toNat_ofNat_of_lt' hn.lt]
  exact hn

theorem Variable.option?_eq_none_iff {v : Variable} :
    v.option? = none ↔ ¬ (v.guid = .global ∧ ∃ n, BootOption.Names v.name n) := by
  rw [Option.eq_none_iff_forall_ne_some]
  constructor
  · rintro h ⟨hg, n, hn⟩
    exact h _ (option?_of_names hg hn)
  · intro h o ho
    have hr := option?_eq_some_iff.1 ho
    exact h ⟨hr.vendor, _, hr.names⟩

/-- **The list is what the filter leaves.** -/
theorem listed_iff {vs : List Variable} {os : List BootOption} :
    Listed vs os ↔ vs.filterMap Variable.option? = os := by
  constructor
  · intro h
    induction h with
    | nil => rfl
    | option hr _ ih =>
      rw [List.filterMap_cons_some (Variable.option?_eq_some_iff.2 hr), ih]
    | other hn _ ih => rw [List.filterMap_cons_none (Variable.option?_eq_none_iff.2 hn), ih]
  · rintro rfl
    induction vs with
    | nil => exact .nil
    | cons v vs ih =>
      rcases ho : v.option? with _ | o
      · rw [List.filterMap_cons_none ho]
        exact .other (Variable.option?_eq_none_iff.1 ho) ih
      · rw [List.filterMap_cons_some ho]
        exact .option (Variable.option?_eq_some_iff.1 ho) ih

end BootOptions
