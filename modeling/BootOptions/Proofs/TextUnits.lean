/-
  Boot options — texts as units and units as texts.

  A surrogate outside a pair is read as one character, and that is written as one
  unit.  So what was read is written with the length it had, and differs from the
  units at their unpaired surrogates alone.  What was written is read back up to
  the first U+0000 of the text, which ends a name in a buffer.

  * `Unpaired us i`: position `i` of `us` holds a surrogate outside a pair.
  * `mended us`: the units with U+FFFD at these positions; `encode_decode`: this
    is what reading and writing again leaves of them.
  * `stem_encode`, `stem_terminated_append`: the name that a text becomes in a buffer.
  * `length_encode_le`: a text has at most as many units as bytes.
  * `text_roundtrip`: reading loses nothing but unpaired surrogates.
  * `units_fit`: a text of eight bytes fits into the buffer of a short name.
-/
import Mathlib.Data.List.TakeWhile
import BootOptions.Proofs.Names

namespace BootOptions

namespace Utf16

/-! ## Unpaired surrogates -/

/-- Position `i` holds a high surrogate that no low one follows directly, or a low
    one that no high one precedes directly. -/
def Unpaired (us : List UInt16) (i : Nat) : Prop :=
  (us[i]?.any isHigh ∧ ¬ us[i + 1]?.any isLow) ∨
    (us[i]?.any isLow ∧ ¬ (0 < i ∧ us[i - 1]?.any isHigh))

instance (us : List UInt16) (i : Nat) : Decidable (Unpaired us i) :=
  inferInstanceAs (Decidable (_ ∨ _))

/-- The units, with U+FFFD in the place of their unpaired surrogates. -/
def mended (us : List UInt16) : List UInt16 :=
  us.mapIdx fun i u => if Unpaired us i then 0xFFFD else u

variable {u v : UInt16} {us : List UInt16} {i : Nat}

theorem isLow_of_isHigh (h : isHigh u = true) : isLow u = false := by
  simp only [isHigh, isLow, Bool.and_eq_true, decide_eq_true_eq, Bool.and_eq_false_iff,
    decide_eq_false_iff_not] at h ⊢
  omega

theorem isHigh_of_isLow (h : isLow u = true) : isHigh u = false := by
  cases hu : isHigh u with
  | false => rfl
  | true => rw [isLow_of_isHigh hu] at h; exact nomatch h

/-- A unit in front leaves the positions behind it as they are, unless it makes a
    pair with the first of them. -/
theorem unpaired_succ (h : isHigh u = true → us[0]?.any isLow = false) :
    Unpaired (u :: us) (i + 1) ↔ Unpaired us i := by
  cases i with
  | zero =>
    cases hu : isHigh u with
    | false => simp [Unpaired, hu]
    | true => simp [Unpaired, h hu]
  | succ i => simp [Unpaired]

theorem unpaired_zero (h : isHigh u = true → us[0]?.any isLow = false) :
    Unpaired (u :: us) 0 ↔ isHigh u = true ∨ isLow u = true := by
  cases hu : isHigh u with
  | false => simp [Unpaired, hu]
  | true => simp [Unpaired, hu, h hu]

/-! ## Reading and writing again -/

/-- A pair is one character, and that is written as the pair. -/
theorem units_pair (hu : isHigh u = true) (hv : isLow v = true) : units (pair u v) = [u, v] := by
  simp only [isHigh, isLow, Bool.and_eq_true, decide_eq_true_eq] at hu hv
  have hn : (pair u v).toNat = 0x10000 + (u.toNat - 0xD800) * 0x400 + (v.toNat - 0xDC00) :=
    toNat_ofNat_of_valid (Or.inr ⟨by omega, by omega⟩)
  have hhigh : 0xD800 + ((pair u v).toNat - 0x10000) / 0x400 = u.toNat := by omega
  have hlow : 0xDC00 + ((pair u v).toNat - 0x10000) % 0x400 = v.toNat := by omega
  rw [units, if_neg (by omega), hhigh, hlow, UInt16.ofNat_toNat, UInt16.ofNat_toNat]

/-- Any other unit is one character, and that is written as one unit. -/
theorem units_single (u : UInt16) :
    units (single u) = [if isHigh u = true ∨ isLow u = true then 0xFFFD else u] := by
  by_cases h : isHigh u = true ∨ isLow u = true
  · rw [single, if_pos (by simpa using h), if_pos h]
    rfl
  · rw [single, if_neg (by simpa using h), if_neg h]
    simp only [isHigh, isLow, Bool.and_eq_true, decide_eq_true_eq, not_or, not_and] at h
    have := UInt16.toNat_lt u
    have hn : (Char.ofNat u.toNat).toNat = u.toNat :=
      toNat_ofNat_of_valid (by unfold Nat.isValidChar; omega)
    rw [units, if_pos (by omega), hn, UInt16.ofNat_toNat]

theorem mended_single (h : isHigh u = true → us[0]?.any isLow = false) :
    mended (u :: us) = units (single u) ++ mended us := by
  simp only [mended, List.mapIdx_cons, unpaired_zero h, unpaired_succ h, units_single,
    List.singleton_append]

theorem mended_pair (hu : isHigh u = true) (hv : isLow v = true) :
    mended (u :: v :: us) = units (pair u v) ++ mended us := by
  have h₀ : ¬ Unpaired (u :: v :: us) 0 := by simp [Unpaired, hv, isLow_of_isHigh hu]
  have h₁ : ¬ Unpaired (u :: v :: us) 1 := by simp [Unpaired, hu, isHigh_of_isLow hv]
  have h₂ : ∀ i, Unpaired (u :: v :: us) (i + 2) ↔ Unpaired us i := fun i =>
    calc Unpaired (u :: v :: us) (i + 2)
      _ ↔ Unpaired (v :: us) (i + 1) := by simp [Unpaired]
      _ ↔ Unpaired us i := unpaired_succ (by simp [isHigh_of_isLow hv])
  simp only [mended, List.mapIdx_cons, Nat.zero_add, h₀, h₁, h₂, if_false, units_pair hu hv,
    List.cons_append, List.nil_append]

/-- **Reading loses the unpaired surrogates alone.** -/
theorem encode_decode (us : List UInt16) : encode (decode us) = mended us := by
  induction us using decode.induct with
  | case1 => rfl
  | case2 u =>
    rw [mended_single (by simp)]
    rfl
  | case3 u v us h ih =>
    obtain ⟨hu, hv⟩ : isHigh u = true ∧ isLow v = true := by simpa using h
    rw [decode_pair hu hv, encode_cons, mended_pair hu hv, ih]
  | case4 u v us h ih =>
    rw [decode, if_neg h, encode_cons, mended_single (by simpa using h), ih]

theorem getElem?_mended (us : List UInt16) (i : Nat) :
    (mended us)[i]? = if Unpaired us i then some 0xFFFD else us[i]? := by
  rw [mended, List.getElem?_mapIdx]
  cases h : us[i]? with
  | none => simp [Unpaired, h]
  | some u => exact apply_ite some _ _ _

theorem zero_not_mem_mended (h : 0 ∉ us) : 0 ∉ mended us := by
  intro h₀
  obtain ⟨i, hi, he⟩ := List.mem_mapIdx.1 h₀
  split at he
  · exact absurd he (by decide)
  · exact h (he ▸ List.getElem_mem hi)

/-! ## Writing and reading back -/

theorem stem_units_append (c : Char) (us : List UInt16) :
    Units.stem (units c ++ us) = if c = '\x00' then [] else units c ++ Units.stem us := by
  have hc : c = '\x00' ↔ c.toNat = 0 := by rw [← Char.toNat_inj]; rfl
  rw [units]
  split
  · have hu : UInt16.ofNat c.toNat = 0 ↔ c = '\x00' := by
      rw [hc, ← UInt16.toNat_inj, UInt16.toNat_ofNat', UInt16.toNat_zero]
      omega
    simp only [List.singleton_append, Units.stem_cons, hu]
  · have hhigh : UInt16.ofNat (0xD800 + (c.toNat - 0x10000) / 0x400) ≠ 0 := by
      rw [ne_eq, ← UInt16.toNat_inj, UInt16.toNat_ofNat', UInt16.toNat_zero]
      have := toNat_valid c
      omega
    have hlow : UInt16.ofNat (0xDC00 + (c.toNat - 0x10000) % 0x400) ≠ 0 := by
      rw [ne_eq, ← UInt16.toNat_inj, UInt16.toNat_ofNat', UInt16.toNat_zero]
      omega
    rw [if_neg (mt hc.1 (by omega)), List.cons_append, List.singleton_append, Units.stem_cons,
      if_neg hhigh, Units.stem_cons, if_neg hlow]
    rfl

/-- The first U+0000 ends a text in a buffer. -/
theorem stem_encode (cs : List Char) :
    Units.stem (encode cs) = encode (cs.takeWhile (· ≠ '\x00')) := by
  induction cs with
  | nil => rfl
  | cons c cs ih =>
    rw [encode_cons, stem_units_append, ih, List.takeWhile_cons]
    by_cases hc : c = '\x00'
    · simp [hc]
    · simp [hc]

/-! ## Lengths -/

/-- A character outside the sixteen bits has two units, and four bytes. -/
theorem length_units_le (c : Char) : (units c).length ≤ c.utf8Size := by
  rw [units]
  split
  · exact c.utf8Size_pos
  · next h =>
    have hc : 0xFFFF < c.val := UInt32.lt_iff_toNat_lt.2 (Nat.le_of_not_lt h)
    rw [Char.utf8Size_eq_four_iff.2 hc]
    exact Nat.le_add_left 2 2

theorem length_encode_le (s : String) : (encode s.toList).length ≤ s.utf8ByteSize := by
  suffices h : ∀ cs, (encode cs).length ≤ (String.ofList cs).utf8ByteSize by
    simpa using h s.toList
  intro cs
  induction cs with
  | nil => exact Nat.zero_le _
  | cons c cs ih =>
    rw [encode_cons, List.length_append, String.ofList_cons, String.utf8ByteSize_append,
      String.utf8ByteSize_singleton]
    exact Nat.add_le_add (length_units_le c) ih

end Utf16

/-! ## Names -/

namespace Units

open Utf16

theorem encode_text (u : Units) : encode u.text.toList = mended u.stem := by
  rw [text, String.toList_ofList, encode_decode]

theorem text_encode (s : String) :
    text (encode s.toList) = String.ofList (s.toList.takeWhile (· ≠ '\x00')) := by
  rw [text, stem_encode, decode_encode]

/-- What stands behind a text in its buffer does not belong to the name. -/
theorem stem_terminated_append (s : String) (t : Units) :
    stem (terminated s ++ t) = stem (encode s.toList) := by
  rw [terminated, List.append_assoc, List.singleton_append, stem_append_zero]

theorem text_terminated_append (s : String) (t : Units) :
    text (terminated s ++ t) = text (encode s.toList) := by
  rw [text, stem_terminated_append, text]

/-- A text needs no more units than it has bytes, and one for the closing zero. -/
theorem length_terminated_le (s : String) : (terminated s).length ≤ s.utf8ByteSize + 1 := by
  rw [terminated, List.length_append]
  exact Nat.add_le_add_right (length_encode_le s) 1

theorem text_encode_text (u : Units) : text (encode u.text.toList) = u.text := by
  -- what was read holds no zero, so the end of the buffer alone ends it
  have hs : stem (encode u.text.toList) = encode u.text.toList :=
    stem_eq_self (encode_text u ▸ zero_not_mem_mended u.zero_not_mem_stem)
  rw [text, hs, decode_encode, String.ofList_toList]

/-- **Reading loses nothing but unpaired surrogates.**  Written again, what was read
    has the length it had, with U+FFFD at the unpaired surrogates alone; a text without
    U+0000 is read back, whatever stands behind it; and so is a text that was read. -/
theorem text_roundtrip :
    (∀ u : Units, (encode u.text.toList).length = u.stem.length ∧
      ∀ i, (encode u.text.toList)[i]? = if Unpaired u.stem i then some 0xFFFD else u.stem[i]?) ∧
    (∀ s : String, '\x00' ∉ s.toList → ∀ t : Units, text (encode s.toList ++ [0] ++ t) = s) ∧
    ∀ u : Units, text (encode u.text.toList) = u.text ∧ ∀ t, text (terminated u.text ++ t) = u.text := by
  refine ⟨?_, ?_, ?_⟩
  · intro u
    rw [encode_text]
    exact ⟨List.length_mapIdx, getElem?_mended u.stem⟩
  · intro s hs t
    have hall : s.toList.takeWhile (· ≠ '\x00') = s.toList :=
      List.takeWhile_eq_self_iff.2 fun c hc => decide_eq_true fun h => hs (h ▸ hc)
    have h := text_terminated_append s t
    rwa [text_encode, hall, String.ofList_toList] at h
  · intro u
    exact ⟨text_encode_text u, fun t => (text_terminated_append _ t).trans (text_encode_text u)⟩

/-- Surrogates in and out of pairs, in front of a zero and behind it. -/
def torn : Units := [0xD800, 0xD83D, 0xDE00, 0xDC00, 0x41, 0xDBFF, 0, 0xDC00]

theorem text_roundtrip_torn :
    encode torn.text.toList = [0xFFFD, 0xD83D, 0xDE00, 0xFFFD, 0x41, 0xFFFD] ∧
    text (encode "a😀".toList ++ [0] ++ torn) = "a😀" ∧
    text (terminated torn.text ++ torn) = torn.text := by
  obtain ⟨hwritten, hread, hagain⟩ := text_roundtrip
  refine ⟨?_, hread "a😀" (by decide) torn, (hagain torn).2 torn⟩
  refine List.ext_getElem? fun i => ?_
  rw [(hwritten torn).2 i]
  match i with
  | 0 | 1 | 2 | 3 | 4 | 5 => decide
  | i + 6 => rw [if_neg (by simp [Unpaired, stem, torn])]; rfl

end Units

/-! ## Short names -/

namespace OptionName

/-- The buffer of a short name is large enough for every one of them. -/
theorem units?_eq (n : OptionName) : n.units? = some (Units.terminated n.text) := by
  have hl : (Units.terminated n.text).length ≤ unitCapacity :=
    Nat.le_trans (Units.length_terminated_le n.text) (Nat.add_le_add_right n.fits 1)
  exact if_pos hl

/-- **Short names fit.**  A text of at most eight bytes is a short name; as units with
    a closing zero it does not exceed the nine of the buffer, and it is read back from
    there up to its first U+0000. -/
theorem units_fit {s : String} (h : s.utf8ByteSize ≤ 8) :
    ∃ name us, ofText? s = some name ∧ name.text = s ∧ name.units? = some us ∧
      us = Utf16.encode s.toList ++ [0] ∧ us.length ≤ 9 ∧
      us.text = String.ofList (s.toList.takeWhile (· ≠ '\x00')) := by
  refine ⟨⟨s, h⟩, Units.terminated s, dif_pos h, rfl, units?_eq _, rfl, ?_, ?_⟩
  · exact Nat.le_trans (Units.length_terminated_le s) (Nat.add_le_add_right h 1)
  · rw [← List.append_nil (Units.terminated s), Units.text_terminated_append, Units.text_encode]

/-- Characters of one, two and four bytes, with a zero among them. -/
theorem units_fit_mixed : "é\x00😀a".utf8ByteSize = 8 ∧
    ∃ name us, ofText? "é\x00😀a" = some name ∧ name.units? = some us ∧
      us = [0xE9, 0, 0xD83D, 0xDE00, 0x61, 0] ∧ us.text = "é" := by
  have h : "é\x00😀a".utf8ByteSize = 8 := by decide
  obtain ⟨name, us, hname, -, hus, hu, -, ht⟩ := units_fit (Nat.le_of_eq h)
  exact ⟨h, name, us, hname, hus, hu.trans (by decide), ht.trans (by decide)⟩

end OptionName

end BootOptions
