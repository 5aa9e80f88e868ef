/-
  Boot options — the names of boot options.

  * `Names u n`: the name `u` is `Boot` and four hexadecimal digits of value
    `n`; `number?_eq_some_iff`: these are the names that are read as numbers,
    and in the global namespace alone (`numberOf?_eq_some_iff`).
  * `Represents guid u o`: the variable of vendor `guid` and name `u` is the
    boot option `o`; `ofVariable?_eq_some_iff`.
  * `OptionName.ofNumber_eq_ok`: every number up to `maxNumber` has a name,
    which names that number (`names_textOf`).
-/
import Mathlib.Data.List.Basic
import BootOptions.Numbering

namespace BootOptions

/-! ## Texts below the surrogates -/

namespace Utf16

theorem units_of_lt {c : Char} (h : c.toNat < 0x10000) : units c = [.ofNat c.toNat] := if_pos h

theorem encode_of_lt {cs : List Char} (h : ∀ c ∈ cs, c.toNat < 0x10000) :
    encode cs = cs.map fun c => .ofNat c.toNat := by
  induction cs with
  | nil => rfl
  | cons c cs ih =>
    rw [encode_cons, units_of_lt (h c (by simp)), ih fun d hd => h d (by simp [hd])]
    rfl

theorem toNat_ofNat_of_valid {n : Nat} (h : n.isValidChar) : (Char.ofNat n).toNat = n := by
  rw [Char.ofNat, dif_pos h]; rfl

theorem toNat_ofNat {n : Nat} (h : n < 0xD800) : (Char.ofNat n).toNat = n :=
  toNat_ofNat_of_valid (Or.inl h)

theorem single_of_lt {u : UInt16} (h : u.toNat < 0xD800) : single u = Char.ofNat u.toNat := by
  have hh : isHigh u = false := by simp [isHigh]; omega
  have hl : isLow u = false := by simp [isLow]; omega
  rw [single, hh, hl]; rfl

theorem decode_of_lt {us : List UInt16} (h : ∀ u ∈ us, u.toNat < 0xD800) :
    decode us = us.map fun u => Char.ofNat u.toNat := by
  induction us with
  | nil => rfl
  | cons u us ih =>
    have hu := h u (by simp)
    have hh : isHigh u = false := by simp [isHigh]; omega
    rw [decode_cons_of_not_high hh, single_of_lt hu, ih fun v hv => h v (by simp [hv])]
    rfl

/-- Without surrogates, writing inverts reading. -/
theorem encode_decode_of_lt {us : List UInt16} (h : ∀ u ∈ us, u.toNat < 0xD800) :
    encode (decode us) = us := by
  have hc : ∀ u ∈ us, (Char.ofNat u.toNat).toNat = u.toNat := fun u hu => toNat_ofNat (h u hu)
  rw [decode_of_lt h, encode_of_lt, List.map_map]
  · refine (List.map_congr_left fun u hu => ?_).trans (List.map_id us)
    rw [Function.comp_apply, hc u hu, UInt16.ofNat_toNat, id]
  · intro c hcs
    obtain ⟨u, hu, rfl⟩ := List.mem_map.1 hcs
    rw [hc u hu]
    exact UInt16.toNat_lt u

end Utf16

/-! ## Names that are read -/

theorem Hex.value?_le {n d : Nat} (h : value? n = some d) : 48 ≤ n ∧ n ≤ 102 := by
  simp only [value?] at h
  split_ifs at h <;> omega

namespace BootOption

/-- The name `u` is `Boot` and four hexadecimal digits of value `n`. -/
def Names (u : Units) (n : Nat) : Prop :=
  ∃ a b c d : UInt16, ∃ w x y z : Nat, u.stem = marker ++ [a, b, c, d] ∧
    Hex.value? a.toNat = some w ∧ Hex.value? b.toNat = some x ∧
    Hex.value? c.toNat = some y ∧ Hex.value? d.toNat = some z ∧
    n = 0x1000 * w + 0x100 * x + 0x10 * y + z

theorem Names.lt {u : Units} {n : Nat} (h : Names u n) : n < 0x10000 := by
  obtain ⟨a, b, c, d, w, x, y, z, -, hw, hx, hy, hz, rfl⟩ := h
  have := Hex.value?_lt hw
  have := Hex.value?_lt hx
  have := Hex.value?_lt hy
  have := Hex.value?_lt hz
  omega

/-- A name names one number. -/
theorem Names.unique {u : Units} {n n' : Nat} (h : Names u n) (h' : Names u n') : n = n' := by
  obtain ⟨a, b, c, d, w, x, y, z, hs, hw, hx, hy, hz, rfl⟩ := h
  obtain ⟨a', b', c', d', w', x', y', z', hs', hw', hx', hy', hz', rfl⟩ := h'
  have he := List.append_cancel_left (hs.symm.trans hs')
  simp only [List.cons.injEq, and_true] at he
  obtain ⟨rfl, rfl, rfl, rfl⟩ := he
  cases hw.symm.trans hw'
  cases hx.symm.trans hx'
  cases hy.symm.trans hy'
  cases hz.symm.trans hz'
  rfl

theorem Names.ascii {u : Units} {n : Nat} (h : Names u n) : ∀ v ∈ u.stem, v.toNat < 0x80 := by
  obtain ⟨a, b, c, d, w, x, y, z, hs, hw, hx, hy, hz, -⟩ := h
  have := Hex.value?_le hw
  have := Hex.value?_le hx
  have := Hex.value?_le hy
  have := Hex.value?_le hz
  rw [hs]
  intro v hv
  simp only [marker, List.cons_append, List.nil_append, List.mem_cons, List.not_mem_nil,
    or_false] at hv
  rcases hv with rfl | rfl | rfl | rfl | rfl | rfl | rfl | rfl <;> first | decide | omega

/-- The eight units of a name that passes the test on its length and marker. -/
theorem eq_marker_append {u : Units} (hl : u.stem.length = nameLength)
    (hm : u.stem.take marker.length = marker) : ∃ a b c d, u.stem = marker ++ [a, b, c, d] := by
  have h := List.take_append_drop marker.length u.stem
  have hd : (u.stem.drop marker.length).length = 4 := by rw [List.length_drop, hl]; rfl
  match hu : u.stem.drop marker.length, hd with
  | [a, b, c, d], _ => exact ⟨a, b, c, d, by rw [← h, hm, hu]⟩

/-- **The names that are read as numbers are those of boot options.** -/
theorem number?_eq_some_iff {u : Units} {n : UInt16} :
    number? u = some n ↔ Names u n.toNat := by
  constructor
  · intro h
    simp only [number?] at h
    split_ifs at h with hu
    obtain ⟨a, b, c, d, hs⟩ := eq_marker_append hu.1 hu.2
    simp only [hs, List.drop_left, List.map_cons, List.map_nil, Hex.read?, Hex.readFrom?,
      Option.map_eq_some_iff, Option.bind_eq_some_iff, Option.some.injEq] at h
    obtain ⟨m, ⟨w, hw, x, hx, y, hy, z, hz, hm⟩, rfl⟩ := h
    have := Hex.value?_lt hw
    have := Hex.value?_lt hx
    have := Hex.value?_lt hy
    have := Hex.value?_lt hz
    refine ⟨a, b, c, d, w, x, y, z, hs, hw, hx, hy, hz, ?_⟩
    rw [UInt16.toNat_ofNat']; omega
  · rintro ⟨a, b, c, d, w, x, y, z, hs, hw, hx, hy, hz, hn⟩
    have hr : Hex.read? ((u.stem.drop marker.length).map UInt16.toNat) = some n.toNat := by
      rw [hs, List.drop_left]
      simp only [List.map_cons, List.map_nil, Hex.read?, Hex.readFrom?, hw, hx, hy, hz,
        Option.bind_some, Option.some.injEq]
      omega
    rw [number?, if_pos ⟨by rw [hs]; rfl, by rw [hs]; rfl⟩, hr]
    simp

theorem Names.stem {u v : Units} (h : u.stem = v.stem) {n : Nat} : Names u n ↔ Names v n := by
  rw [Names, Names, h]

/-- The variable of vendor `guid` and name `u` is the boot option `o`: it is in
    the global namespace, its name is that of the number of `o`, and `o` has
    this very name. -/
structure Represents (guid : Guid) (u : Units) (o : BootOption) : Prop where
  vendor : guid = .global
  names : Names u o.number.toNat
  name : Utf16.encode o.name.toList = u.stem

theorem encode_text {u : Units} {n : Nat} (h : Names u n) :
    Utf16.encode u.text.toList = u.stem := by
  rw [Units.text, String.toList_ofList]
  exact Utf16.encode_decode_of_lt fun v hv => Nat.lt_trans (h.ascii v hv) (by decide)

theorem numberOf?_eq_some_iff {guid : Guid} {u : Units} {n : UInt16} :
    numberOf? guid u = some n ↔ guid = .global ∧ Names u n.toNat := by
  by_cases hg : guid = .global
  · rw [hg, numberOf?_global, number?_eq_some_iff]
    exact (and_iff_right rfl).symm
  · rw [numberOf?_of_ne hg]
    exact ⟨nofun, fun h => absurd h.1 hg⟩

/-- **The boot options among the variables.** -/
theorem ofVariable?_eq_some_iff {guid : Guid} {u : Units} {o : BootOption} :
    ofVariable? guid u = some o ↔ Represents guid u o := by
  rw [ofVariable?, Option.map_eq_some_iff]
  constructor
  · rintro ⟨n, hn, rfl⟩
    obtain ⟨hg, hu⟩ := numberOf?_eq_some_iff.1 hn
    exact ⟨hg, hu, encode_text hu⟩
  · rintro ⟨hg, hu, hs⟩
    have ht : u.text = o.name := by
      rw [Units.text, ← hs, Utf16.decode_encode, String.ofList_toList]
    exact ⟨o.number, numberOf?_eq_some_iff.2 ⟨hg, hu⟩, by rw [ht]⟩

theorem ofVariable?_congr {guid : Guid} {u v : Units} (h : u.stem = v.stem) :
    ofVariable? guid u = ofVariable? guid v := by
  rw [ofVariable?, ofVariable?, numberOf?, numberOf?, number?_congr h, Units.text, Units.text, h]

end BootOption

/-! ## Names that are written -/

theorem Hex.fixed_four (c : LetterCase) (n : Nat) : fixed c 4 n =
    [digit c (n / 0x1000 % 16), digit c (n / 0x100 % 16), digit c (n / 0x10 % 16), digit c (n % 16)] := by
  simp [fixed, Nat.div_div_eq_div_mul]

theorem Hex.toNat_digit_lt (c : LetterCase) {d : Nat} (h : d < 16) : (digit c d).toNat < 0x80 := by
  have := (value?_le (value?_digit c h)).2; omega

theorem Hex.padded_four (c : LetterCase) {n : Nat} (h : n < 0x10000) :
    padded c 4 n = fixed c 4 n := by
  have hw : width n ≤ 4 := by
    have : n.log2 < 16 := by
      rcases Nat.eq_zero_or_pos n with rfl | hn
      · decide
      · exact (Nat.log2_lt (by omega)).2 h
    unfold width; omega
  rw [padded, Nat.max_eq_left hw]

theorem utf8ByteSize_ofList {cs : List Char} (h : ∀ c ∈ cs, c.toNat < 0x80) :
    (String.ofList cs).utf8ByteSize = cs.length := by
  induction cs with
  | nil => rfl
  | cons c cs ih =>
    have hc : c.utf8Size = 1 := Char.utf8Size_eq_one_iff.2 (by
      rw [UInt32.le_iff_toNat_le]; exact Nat.le_of_lt_succ (h c (by simp)))
    rw [String.ofList_cons, String.utf8ByteSize_append, String.utf8ByteSize_singleton, hc,
      ih fun d hd => h d (by simp [hd]), List.length_cons, Nat.add_comm]

namespace OptionName

/-- The text of the name of a number. -/
def textOf (n : Nat) : String := "Boot" ++ String.ofList (Hex.fixed .upper 4 n)

theorem toList_textOf (n : Nat) :
    (textOf n).toList = ['B', 'o', 'o', 't'] ++ Hex.fixed .upper 4 n := by
  simp [textOf]

theorem ascii_fixed (n : Nat) : ∀ c ∈ Hex.fixed .upper 4 n, c.toNat < 0x80 := by
  intro c hc
  rw [Hex.fixed_four] at hc
  simp only [List.mem_cons, List.not_mem_nil, or_false] at hc
  rcases hc with rfl | rfl | rfl | rfl <;> exact Hex.toNat_digit_lt _ (Nat.mod_lt _ (by decide))

/-- **Every number up to `maxNumber` has a name.** -/
theorem ofNumber_eq_ok {n : Nat} (h : n ≤ maxNumber) :
    ∃ name : OptionName, ofNumber n = .ok name ∧ name.text = textOf n := by
  have hsize : (textOf n).utf8ByteSize ≤ BootOption.nameLength := by
    rw [textOf, String.utf8ByteSize_append, utf8ByteSize_ofList (ascii_fixed n), Hex.length_fixed]
    decide
  refine ⟨⟨textOf n, hsize⟩, ?_, rfl⟩
  rw [ofNumber, if_neg (Nat.not_lt.2 h), Hex.padded_four _ (Nat.lt_succ_of_le h),
    show "Boot" ++ String.ofList (Hex.fixed .upper 4 n) = textOf n from rfl, ofText?, dif_pos hsize]
  rfl

theorem ofNumber_eq_error {n : Nat} (h : maxNumber < n) : ofNumber n = .error (.outOfRange n) :=
  if_pos h

theorem encode_textOf (n : Nat) : Utf16.encode (textOf n).toList =
    BootOption.marker ++ (Hex.fixed .upper 4 n).map fun c => .ofNat c.toNat := by
  have h := Utf16.encode_of_lt fun c hc => Nat.lt_trans (ascii_fixed n c hc) (by decide)
  rw [toList_textOf, Utf16.encode_append, h]
  rfl

theorem value?_unit_digit {d : Nat} (h : d < 16) :
    Hex.value? (UInt16.ofNat (Hex.digit .upper d).toNat).toNat = some d := by
  have := Hex.toNat_digit_lt .upper h
  rw [UInt16.toNat_ofNat', Nat.mod_eq_of_lt (by omega), Hex.value?_digit .upper h]

/-- The name of a number holds no zero: all of it counts. -/
theorem stem_textOf (n : Nat) :
    Units.stem (Utf16.encode (textOf n).toList) = Utf16.encode (textOf n).toList := by
  refine Units.stem_eq_self fun h0 => ?_
  rw [encode_textOf, Hex.fixed_four] at h0
  have hne : ∀ d, d < 16 → (0 : UInt16) ≠ .ofNat (Hex.digit .upper d).toNat := fun d hd he => by
    have := value?_unit_digit hd
    rw [← he] at this; simp [Hex.value?] at this
  have hlt : ∀ m, m % 16 < 16 := fun m => Nat.mod_lt m (by decide)
  simp [BootOption.marker, hne _ (hlt _)] at h0

/-- **The name of a number names it.** -/
theorem names_textOf {n : Nat} (h : n ≤ maxNumber) :
    BootOption.Names (Utf16.encode (textOf n).toList) n := by
  have hlt : ∀ m, m % 16 < 16 := fun m => Nat.mod_lt m (by decide)
  refine ⟨_, _, _, _, n / 0x1000 % 16, n / 0x100 % 16, n / 0x10 % 16, n % 16, ?_,
    value?_unit_digit (hlt _), value?_unit_digit (hlt _), value?_unit_digit (hlt _),
    value?_unit_digit (hlt _), ?_⟩
  · rw [stem_textOf, encode_textOf, Hex.fixed_four]; rfl
  · simp only [maxNumber] at h; omega

end OptionName

end BootOptions
