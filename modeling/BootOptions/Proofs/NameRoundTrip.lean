/-
  Boot options — names and numbers are inverse to each other.

  A number is written in one way and read in several: the letters among the
  digits of a name may have either case, and what stands behind the name in its
  buffer does not matter.

  * `canonical s`: the name `s` with its digits in upper case;
    `Names.encode_textOf`: it is what is written for the number of `s`.
  * `name_roundtrip`: what is written for a number is read as that number, and
    what is written for a number that was read is its canonical name.
-/
import BootOptions.Proofs.Digits
import BootOptions.Proofs.TextUnits

namespace BootOptions

namespace BootOption

/-! ## Canonical names -/

/-- A unit, with the letters `a` to `f` turned to upper case. -/
def upperUnit (u : UInt16) : UInt16 := if 0x61 ≤ u ∧ u ≤ 0x66 then u - 0x20 else u

/-- A name with its last four units, the digits, in upper case. -/
def canonical (s : Units) : Units :=
  s.take (s.length - digitCount) ++ (s.drop (s.length - digitCount)).map upperUnit

theorem toNat_upperUnit (u : UInt16) :
    (upperUnit u).toNat = if 97 ≤ u.toNat ∧ u.toNat ≤ 102 then u.toNat - 32 else u.toNat := by
  have hiff : (0x61 ≤ u ∧ u ≤ 0x66) ↔ 97 ≤ u.toNat ∧ u.toNat ≤ 102 := by
    rw [UInt16.le_iff_toNat_le, UInt16.le_iff_toNat_le]; rfl
  rw [upperUnit]
  by_cases h : 97 ≤ u.toNat ∧ u.toNat ≤ 102
  · have hle : (0x20 : UInt16) ≤ u := UInt16.le_iff_toNat_le.2 (Nat.le_trans (by decide) h.1)
    rw [if_pos (hiff.2 h), if_pos h, UInt16.toNat_sub_of_le _ _ hle]
    rfl
  · rw [if_neg (mt hiff.1 h), if_neg h]

/-- What is written for the value of a unit is that unit in upper case. -/
theorem upperUnit_eq {u : UInt16} {d : Nat} (h : Hex.value? u.toNat = some d) :
    .ofNat (Hex.digit .upper d).toNat = upperUnit u := by
  have hd := Hex.value?_lt h
  rw [← UInt16.toNat_inj, UInt16.toNat_ofNat', Hex.toNat_digit_upper hd, toNat_upperUnit]
  simp only [Hex.value?] at h
  split_ifs at h ⊢ <;> simp only [Option.some.injEq] at h <;> omega

namespace Names

variable {u v : Units} {m n : Nat}

/-- **What is written for the number of a name is its canonical form.** -/
theorem encode_textOf (h : Names u n) :
    Utf16.encode (OptionName.textOf n).toList = canonical u.stem := by
  obtain ⟨a, b, c, d, w, x, y, z, hs, hw, hx, hy, hz, rfl⟩ := h
  rw [OptionName.encode_textOf,
    Hex.fixed_four_digits _ (Hex.value?_lt hw) (Hex.value?_lt hx) (Hex.value?_lt hy) (Hex.value?_lt hz),
    List.map_cons, List.map_cons, List.map_cons, List.map_cons, upperUnit_eq hw, upperUnit_eq hx,
    upperUnit_eq hy, upperUnit_eq hz, hs]
  rfl

theorem number?_eq (h : Names u n) : (number? u).map UInt16.toNat = some n := by
  have hn : (UInt16.ofNat n).toNat = n := UInt16.toNat_ofNat_of_lt' h.lt
  rw [number?_eq_some_iff.2 (hn.symm ▸ h), Option.map_some, hn]

/-- Names have one number iff they differ in the case of their digits alone. -/
theorem eq_iff (hu : Names u m) (hv : Names v n) : m = n ↔ canonical u.stem = canonical v.stem := by
  rw [← hu.encode_textOf, ← hv.encode_textOf]
  constructor
  · intro h
    rw [h]
  · intro h
    have hm := OptionName.names_textOf (Nat.le_of_lt_succ hu.lt)
    rw [h] at hm
    exact hm.unique (OptionName.names_textOf (Nat.le_of_lt_succ hv.lt))

end Names

end BootOption

/-! ## Names of numbers -/

namespace OptionName

/-- The name of a number fits into its buffer of units. -/
theorem units?_textOf {n : Nat} {name : OptionName} (h : name.text = textOf n) :
    name.units? = some (Units.terminated (textOf n)) := by
  rw [units?_eq, h]

/-- **Every number up to `maxNumber` has a name in units**, and no other has one. -/
theorem ofNumber_units {n : Nat} (h : n ≤ maxNumber) : ∃ name : OptionName,
    ofNumber n = .ok name ∧ name.units? = some (Units.terminated (textOf n)) := by
  obtain ⟨name, hname, ht⟩ := ofNumber_eq_ok h
  exact ⟨name, hname, units?_textOf ht⟩

theorem ofNumber_eq_error_iff {n : Nat} {e : NumberError} :
    ofNumber n = .error e ↔ maxNumber < n ∧ e = .outOfRange n := by
  rcases Nat.lt_or_ge maxNumber n with h | h
  · simp [ofNumber_eq_error h, h, eq_comm]
  · obtain ⟨name, hname, -⟩ := ofNumber_eq_ok h
    simp [hname, Nat.not_lt.2 h]

/-- Whatever stands behind it, the name of a number is read as that number. -/
theorem number?_terminated_append {n : Nat} (h : n ≤ maxNumber) (t : Units) :
    (BootOption.number? (Units.terminated (textOf n) ++ t)).map UInt16.toNat = some n := by
  have hs := Units.stem_terminated_append (textOf n) t
  exact ((BootOption.Names.stem hs).2 (names_textOf h)).number?_eq

end OptionName

namespace BootOption

/-- **Names and numbers are inverse to each other**, up to the case of digits. -/
theorem name_roundtrip :
    (∀ n e, OptionName.ofNumber n = .error e ↔ maxNumber < n ∧ e = .outOfRange n) ∧
    (∀ n ≤ maxNumber, ∃ name us, OptionName.ofNumber n = .ok name ∧ name.units? = some us ∧
      ∀ t, (number? (us ++ t)).map UInt16.toNat = some n) ∧
    (∀ u n, number? u = some n → ∃ name, OptionName.ofNumber n.toNat = .ok name ∧
      name.units? = some (canonical u.stem ++ [0])) ∧
    (∀ u v m n, number? u = some m → number? v = some n →
      (m = n ↔ canonical u.stem = canonical v.stem)) := by
  refine ⟨fun _ _ => OptionName.ofNumber_eq_error_iff, ?_, ?_, ?_⟩
  · intro n hn
    obtain ⟨name, hname, hus⟩ := OptionName.ofNumber_units hn
    exact ⟨name, _, hname, hus, OptionName.number?_terminated_append hn⟩
  · intro u n h
    have hu := number?_eq_some_iff.1 h
    obtain ⟨name, hname, hus⟩ := OptionName.ofNumber_units (Nat.le_of_lt_succ hu.lt)
    exact ⟨name, hname, by rw [hus, Units.terminated, hu.encode_textOf]⟩
  · intro u v m n hu hv
    rw [← UInt16.toNat_inj]
    exact (number?_eq_some_iff.1 hu).eq_iff (number?_eq_some_iff.1 hv)

/-- A name with letters of both cases, with something behind its zero. -/
def mixedCase : Units := Units.terminated "Boot0aF9" ++ [0x61, 0xD800]

theorem name_roundtrip_mixedCase :
    (∃ name us, OptionName.ofNumber 0xAF9 = .ok name ∧ name.units? = some us ∧
      (number? (us ++ [0x30, 0])).map UInt16.toNat = some 0xAF9) ∧
    (∃ name, OptionName.ofNumber 0xAF9 = .ok name ∧
      name.units? = some (Units.terminated "Boot0AF9")) ∧
    canonical mixedCase.stem = canonical (Units.terminated "Boot0Af9").stem := by
  obtain ⟨-, hread, hwrite, hsame⟩ := name_roundtrip
  have hm : number? mixedCase = some 0xAF9 := by decide
  refine ⟨?_, ?_, ?_⟩
  · obtain ⟨name, us, hname, hus, h⟩ := hread 0xAF9 (by decide)
    exact ⟨name, us, hname, hus, h _⟩
  · exact hwrite mixedCase 0xAF9 hm
  · exact (hsame _ _ _ _ hm (by decide)).1 rfl

end BootOption

end BootOptions
