/-
  Boot options — what an inventory can hold.

  A store may answer anything, and the name and the number of a boot option are
  read out of its buffer in two different ways.  They belong together all the
  same.

  * `Spells s n`: the text `s` is `Boot` and four digits of value `n`;
    `Spells.unique`: texts that differ in case alone spell the same number.
  * `Genuine o`: the name of `o` spells its number, is read as its number, and
    is what is written for its number, up to case; `Represents.genuine`: so is
    every boot option that is read out of a buffer.
  * `Vacant os s`: beside the options `os`, the number `s` is free, or no number
    is free.
  * `Session.options_genuine`: after any commands, an inventory holds genuine
    options, and a number it gives out is vacant.
-/
import BootOptions.Proofs.Digits
import BootOptions.Proofs.FreeNumbers
import BootOptions.Proofs.History

namespace BootOptions

/-! ## Texts that spell a number -/

/-- The text `s` is `Boot` and four hexadecimal digits of value `n`. -/
def Spells (s : String) (n : Nat) : Prop :=
  ∃ a b c d : Char, ∃ w x y z : Nat, s.toList = ['B', 'o', 'o', 't', a, b, c, d] ∧
    Hex.value? a.toNat = some w ∧ Hex.value? b.toNat = some x ∧
    Hex.value? c.toNat = some y ∧ Hex.value? d.toNat = some z ∧
    n = 0x1000 * w + 0x100 * x + 0x10 * y + z

/-- The text with all letters behind `Boot` in upper case. -/
def upperDigits (s : String) : String :=
  String.ofList (s.toList.take 4 ++ (s.toList.drop 4).map Char.toUpper)

namespace Spells

variable {s t : String} {m n : Nat}

theorem length_eq (h : Spells s n) : s.length = BootOption.nameLength := by
  obtain ⟨a, b, c, d, _, _, _, _, hs, -⟩ := h
  rw [← String.length_toList, hs]
  rfl

theorem ascii (h : Spells s n) : ∀ c ∈ s.toList, c.toNat < 0x80 := by
  obtain ⟨a, b, c, d, w, x, y, z, hs, hw, hx, hy, hz, -⟩ := h
  have := Hex.value?_le hw
  have := Hex.value?_le hx
  have := Hex.value?_le hy
  have := Hex.value?_le hz
  have hboot : ∀ v ∈ ['B', 'o', 'o', 't'], v.toNat < 0x80 := by simp
  have hdigits : ∀ v ∈ [a, b, c, d], v.toNat < 0x80 := by
    simp only [List.forall_mem_cons, List.not_mem_nil, false_imp_iff, implies_true, and_true]
    omega
  rw [hs]
  exact List.forall_mem_append.2 ⟨hboot, hdigits⟩

/-- **Case does not matter**: texts that differ in it alone spell one number. -/
theorem unique (h : Spells s m) (h' : Spells t n) (he : s.toLower = t.toLower) : m = n := by
  obtain ⟨a, b, c, d, w, x, y, z, hs, hw, hx, hy, hz, rfl⟩ := h
  obtain ⟨a', b', c', d', w', x', y', z', ht, hw', hx', hy', hz', rfl⟩ := h'
  have hl : s.toList.map Char.toLower = t.toList.map Char.toLower := by
    rw [← String.toList_map, ← String.toList_map]
    exact congrArg String.toList he
  simp only [hs, ht, List.map_cons, List.map_nil, List.cons.injEq, and_true, true_and] at hl
  obtain ⟨ha, hb, hc, hd⟩ := hl
  rw [Hex.value?_congr ha, hw', Option.some.injEq] at hw
  rw [Hex.value?_congr hb, hx', Option.some.injEq] at hx
  rw [Hex.value?_congr hc, hy', Option.some.injEq] at hy
  rw [Hex.value?_congr hd, hz', Option.some.injEq] at hz
  rw [hw, hx, hy, hz]

/-- What is written for the number is the text itself, in upper case. -/
theorem textOf_eq (h : Spells s n) : OptionName.textOf n = upperDigits s := by
  obtain ⟨a, b, c, d, w, x, y, z, hs, hw, hx, hy, hz, rfl⟩ := h
  rw [← String.toList_inj, OptionName.toList_textOf,
    Hex.fixed_four_digits _ (Hex.value?_lt hw) (Hex.value?_lt hx) (Hex.value?_lt hy) (Hex.value?_lt hz),
    Hex.digit_upper_eq hw, Hex.digit_upper_eq hx, Hex.digit_upper_eq hy, Hex.digit_upper_eq hz,
    upperDigits, String.toList_ofList, hs]
  rfl

end Spells

/-! ## Genuine boot options -/

namespace BootOption

/-- The name and the number of the option belong together. -/
structure Genuine (o : BootOption) : Prop where
  spells : Spells o.name o.number.toNat
  length : o.name.length = nameLength
  ascii : ∀ c ∈ o.name.toList, c.toNat < 0x80
  reads : number? (Units.terminated o.name) = some o.number
  writes : ∃ name, OptionName.ofNumber o.number.toNat = .ok name ∧ name.text = upperDigits o.name

variable {guid : Guid} {u : Units} {o : BootOption}

theorem Represents.spells (h : Represents guid u o) : Spells o.name o.number.toNat := by
  have hlt : ∀ v ∈ u.stem, v.toNat < 0xD800 := by
    intro v hv
    have := h.names.ascii v hv
    omega
  have hname : o.name.toList = u.stem.map fun v => Char.ofNat v.toNat := by
    rw [← Utf16.decode_of_lt hlt, ← h.name, Utf16.decode_encode]
  obtain ⟨a, b, c, d, w, x, y, z, hs, hw, hx, hy, hz, hn⟩ := h.names
  have hval : ∀ {v : UInt16} {k}, Hex.value? v.toNat = some k →
      Hex.value? (Char.ofNat v.toNat).toNat = some k := by
    intro v k hv
    have := Hex.value?_le hv
    rwa [Utf16.toNat_ofNat (by omega)]
  exact ⟨_, _, _, _, w, x, y, z, by rw [hname, hs]; rfl, hval hw, hval hx, hval hy, hval hz, hn⟩

theorem Represents.reads (h : Represents guid u o) :
    number? (Units.terminated o.name) = some o.number := by
  have hs : (Units.terminated o.name).stem = u.stem := by
    rw [Units.terminated, h.name, Units.stem_append_zero, Units.stem_eq_self (Units.zero_not_mem_stem u)]
  exact number?_eq_some_iff.2 ((Names.stem hs).2 h.names)

/-- **What is read out of a buffer is genuine**, whatever else the buffer holds. -/
theorem Represents.genuine (h : Represents guid u o) : o.Genuine := by
  have hs := h.spells
  obtain ⟨name, hname, ht⟩ := OptionName.ofNumber_eq_ok (Nat.le_of_lt_succ h.names.lt)
  exact ⟨hs, hs.length_eq, hs.ascii, h.reads, name, hname, ht.trans hs.textOf_eq⟩

end BootOption

theorem OptionName.spells_textOf {n : Nat} (h : n ≤ maxNumber) : Spells (textOf n) n := by
  have hn : (UInt16.ofNat n).toNat = n := UInt16.toNat_ofNat_of_lt' (Nat.lt_succ_of_le h)
  have hr : BootOption.Represents .global (Utf16.encode (textOf n).toList) ⟨textOf n, .ofNat n⟩ :=
    ⟨rfl, hn.symm ▸ names_textOf h, (stem_textOf n).symm⟩
  simpa only [hn] using hr.spells

theorem optionsOf_genuine (es : List Exchange) : ∀ o ∈ optionsOf es, o.Genuine := by
  intro o ho
  obtain ⟨e, -, he⟩ := List.mem_filterMap.1 ho
  by_cases hs : e.answer.status = .success
  · rw [Answer.option?, if_pos hs] at he
    exact (BootOption.ofVariable?_eq_some_iff.1 he).genuine
  · rw [Answer.option?_eq_none hs] at he
    exact nomatch he

theorem scan_genuine {σ : Type} [VariableStore σ] {cfg : ScanConfig} {fuel : Nat} {store : σ}
    {os : List BootOption} (h : (scan cfg fuel store).result = some (.ok os)) :
    ∀ o ∈ os, o.Genuine := by
  rcases ha : VariableStore.isAvailable store with _ | _
  · rw [scan_of_unavailable ha] at h
    exact nomatch h
  · obtain ⟨before, last, -, -, -, ho⟩ := scan_ended ha h
    cases ho
    exact optionsOf_genuine before

/-! ## Vacant numbers -/

/-- What the number `s` is beside the options `os`: one whose name is that of
    no option in any case, or the one behind the last if all are in use. -/
inductive Vacant (os : List BootOption) (s : Nat) : Prop
  | free {name : OptionName} : s ≤ maxNumber → OptionName.ofNumber s = .ok name →
      (∀ o ∈ os, o.name.toLower ≠ name.text.toLower) → Vacant os s
  | full : s = maxNumber + 1 → OptionName.ofNumber s = .error (.outOfRange s) →
      (∀ n ≤ maxNumber, ∃ o ∈ os, o.number.toNat = n) → Vacant os s

theorem leastUnused_vacant {os : List BootOption} (h : ∀ o ∈ os, o.Genuine) :
    Vacant os (leastUnused os) := by
  have hl := leastUnused_isLeast os
  rcases Nat.lt_or_ge maxNumber (leastUnused os) with hs | hs
  · have hused : ∀ n ≤ maxNumber, ∃ o ∈ os, o.number.toNat = n := by
      intro n hn
      by_contra hno
      exact Nat.not_le.2 (Nat.lt_of_le_of_lt hn hs) (hl.2 fun hm => hno (List.mem_map.1 hm))
    exact .full (Nat.le_antisymm (leastUnused_le os) hs) (OptionName.ofNumber_eq_error hs) hused
  · obtain ⟨name, hname, ht⟩ := OptionName.ofNumber_eq_ok hs
    refine .free hs hname ?_
    intro o ho he
    rw [ht] at he
    exact hl.1 (List.mem_map.2 ⟨o, ho, (h o ho).spells.unique (OptionName.spells_textOf hs) he⟩)

/-! ## Inventories -/

theorem Found.genuine {h : Holder} {cs : List (Holder × Command)} {os : List BootOption}
    (hf : Found h cs os) : ∀ o ∈ os, o.Genuine := by
  obtain ⟨before, c, later, -, hc, -⟩ := hf
  cases c with
  | refresh store cfg fuel => exact scan_genuine hc
  | nextFree | clear | look => exact hc.elim

namespace Session

/-- **An inventory holds genuine options.**  After any commands, with any stores,
    the options of an inventory are genuine and a number it gives out is vacant
    beside them; without options it gives out none. -/
theorem options_genuine (filter : Log.Filter) (cs : List (Holder × Command)) (h : Holder) :
    (∀ os, (((start filter).after cs).inventory h).options = some os →
      (∀ o ∈ os, o.Genuine) ∧
      ∃ s, (((start filter).after cs).turn h .nextFree).reply = .numbered (.ok s) ∧ Vacant os s) ∧
    ((((start filter).after cs).inventory h).options = none →
      (((start filter).after cs).turn h .nextFree).reply = .numbered (.error .notScanned)) := by
  constructor
  · intro os ho
    have hg := Found.genuine ((options_after fun _ => rfl).1 ho)
    exact ⟨hg, _, (turn_iff.2 (.numbered ho)).1, leastUnused_vacant hg⟩
  · intro ho
    exact (turn_iff.2 (.notScanned ho)).1

/-- A store that leaves a name without its zero, scribbles into the buffer while
    it asks for a larger one, and leaves half a pair behind the next name. -/
def scribbling : Replay where
  steps := [⟨.success, some (Utf16.encode "Boot00aF".toList), some 3, some .global⟩,
    ⟨.bufferTooSmall, some [0x58], some 23, none⟩,
    ⟨.success, some (Units.terminated "Boot0000" ++ [0xD800]), none, none⟩]

/-- A scan of that store, one that fails, and another inventory cleared. -/
def scribbled : List (Holder × Command) :=
  [(.shared, .refresh scribbling ⟨8, 20, true⟩ 5), (.shared, .refresh warning ⟨4, 20, true⟩ 5),
    (.own 1, .clear)]

theorem options_genuine_scribbled :
    (((start .off).after scribbled).inventory .shared).options =
      some [⟨"Boot00aF", 0xAF⟩, ⟨"Boot0000", 0⟩] ∧
    (⟨"Boot00aF", 0xAF⟩ : BootOption).Genuine ∧
    ∃ s, (((start .off).after scribbled).turn .shared .nextFree).reply = .numbered (.ok s) ∧
      Vacant [⟨"Boot00aF", 0xAF⟩, ⟨"Boot0000", 0⟩] s := by
  have ho : (((start .off).after scribbled).inventory .shared).options =
      some [⟨"Boot00aF", 0xAF⟩, ⟨"Boot0000", 0⟩] := by decide
  obtain ⟨hg, hs⟩ := (options_genuine .off scribbled .shared).1 _ ho
  exact ⟨ho, hg _ (by simp), hs⟩

end Session

end BootOptions
