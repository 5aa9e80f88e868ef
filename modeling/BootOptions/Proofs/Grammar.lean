/-
  Boot options — the grammar of their names.

  A store may hold any units under any vendor.  The filter keeps the variables
  of one grammar, said here unit by unit and byte by byte, and no others.

  * `Digit u v`: the unit `u` is a hexadecimal digit of value `v`; `digit_iff`:
    these are the units that are read as digits.
  * `Front u p`: the name `p` stands in front of the first zero of `u`.
  * `packed ds`: the digits `ds` shifted into one word of 16 bits;
    `toNat_packed_four`: four of them fit.
  * `Entry guid u v₃ v₂ v₁ v₀`: the variable is one of the grammar, with digits
    of these values; `entry_iff`.
  * `grammar_exact`: the variables that have a number are the entries.
-/
import Mathlib.Data.Nat.Bitwise
import BootOptions.Proofs.Names

namespace BootOptions

namespace BootOption

/-! ## Units -/

/-- The unit is a hexadecimal digit of the value: `0` to `9`, `A` to `F` or `a`
    to `f`. -/
inductive Digit (u : UInt16) : Nat → Prop
  | decimal : 0x30 ≤ u → u ≤ 0x39 → Digit u (u.toNat - 0x30)
  | upper : 0x41 ≤ u → u ≤ 0x46 → Digit u (10 + (u.toNat - 0x41))
  | lower : 0x61 ≤ u → u ≤ 0x66 → Digit u (10 + (u.toNat - 0x61))

theorem digit_iff {u : UInt16} {v : Nat} : Digit u v ↔ Hex.value? u.toNat = some v := by
  have hle : ∀ {m n : UInt16}, m ≤ n ↔ m.toNat ≤ n.toNat := UInt16.le_iff_toNat_le
  constructor
  · rintro (⟨hl, hu⟩ | ⟨hl, hu⟩ | ⟨hl, hu⟩)
    all_goals
      have hl := hle.1 hl
      have hu := hle.1 hu
      simp only [UInt16.reduceToNat] at hl hu
      grind [Hex.value?]
  · intro h
    simp only [Hex.value?] at h
    split_ifs at h with hd hu hl
    · cases h
      exact .decimal (hle.2 hd.1) (hle.2 hd.2)
    · cases h
      rw [show u.toNat - 55 = 10 + (u.toNat - 0x41) by omega]
      exact .upper (hle.2 hu.1) (hle.2 hu.2)
    · cases h
      rw [show u.toNat - 87 = 10 + (u.toNat - 0x61) by omega]
      exact .lower (hle.2 hl.1) (hle.2 hl.2)

/-- The name `p` is what stands in `u` in front of its first zero, or all of `u`
    if there is none. -/
inductive Front : Units → Units → Prop
  | whole {p : Units} : 0 ∉ p → Front p p
  | cut {p rest : Units} : 0 ∉ p → Front (p ++ 0 :: rest) p

theorem front_stem (u : Units) : Front u u.stem := by
  induction u with
  | nil => exact .whole (by simp)
  | cons a u ih =>
    rw [Units.stem_cons]
    split_ifs with ha
    · rw [ha]
      exact .cut (p := []) (by simp)
    · generalize Units.stem u = p at ih ⊢
      have hmem : 0 ∉ p → 0 ∉ a :: p := fun hp => by simp [hp, Ne.symm ha]
      cases ih with
      | whole hp => exact .whole (hmem hp)
      | cut hp => exact .cut (hmem hp)

theorem front_iff {u p : Units} : Front u p ↔ u.stem = p := by
  constructor
  · rintro (h | h)
    · exact Units.stem_eq_self h
    · rw [Units.stem_append_zero, Units.stem_eq_self h]
  · rintro rfl
    exact front_stem u

/-! ## Words -/

/-- Digits shifted into one word of 16 bits, the highest first. -/
def packed (ds : List Nat) : UInt16 := ds.foldl (fun n d => n <<< 4 ||| .ofNat d) 0

theorem toNat_shiftIn {n : UInt16} {d : Nat} (hn : n.toNat < 0x1000) (hd : d < 16) :
    (n <<< 4 ||| .ofNat d).toNat = 16 * n.toNat + d := by
  have hs : (n <<< 4).toNat = n.toNat <<< 4 := by
    rw [UInt16.toNat_shiftLeft, Nat.mod_eq_of_lt]
    · rfl
    · rw [Nat.shiftLeft_eq]
      exact Nat.mul_lt_mul_of_pos_right hn (by decide)
  have hw : (UInt16.ofNat d).toNat = d := UInt16.toNat_ofNat_of_lt' (Nat.lt_trans hd (by decide))
  rw [UInt16.toNat_or, hs, hw, ← Nat.shiftLeft_add_eq_or_of_lt hd, Nat.shiftLeft_eq]
  omega

theorem toNat_packed_four {w x y z : Nat} (hw : w < 16) (hx : x < 16) (hy : y < 16) (hz : z < 16) :
    (packed [w, x, y, z]).toNat = 4096 * w + 256 * x + 16 * y + z := by
  have h0 : (0 : UInt16).toNat = 0 := rfl
  have h1 := toNat_shiftIn (n := 0) (by decide) hw
  have h2 := toNat_shiftIn (by rw [h1]; omega) hx
  have h3 := toNat_shiftIn (by rw [h2]; omega) hy
  have h4 := toNat_shiftIn (by rw [h3]; omega) hz
  refine h4.trans ?_
  omega

/-! ## Entries -/

/-- The variable is one of the grammar: its vendor is the global namespace, and
    its name is `Boot` and four digits of the given values. -/
structure Entry (guid : Guid) (u : Units) (v₃ v₂ v₁ v₀ : Nat) : Prop where
  vendor : guid.bytes = #v[0x61, 0xDF, 0xE4, 0x8B, 0xCA, 0x93, 0xD2, 0x11,
    0xAA, 0x0D, 0x00, 0xE0, 0x98, 0x03, 0x2B, 0x8C]
  name : ∃ d₃ d₂ d₁ d₀, Front u [0x42, 0x6F, 0x6F, 0x74, d₃, d₂, d₁, d₀] ∧
    Digit d₃ v₃ ∧ Digit d₂ v₂ ∧ Digit d₁ v₁ ∧ Digit d₀ v₀

variable {guid : Guid} {u : Units} {v₃ v₂ v₁ v₀ n : Nat}

theorem entry_iff : Entry guid u v₃ v₂ v₁ v₀ ↔ guid = .global ∧ ∃ d₃ d₂ d₁ d₀,
    u.stem = marker ++ [d₃, d₂, d₁, d₀] ∧ Hex.value? d₃.toNat = some v₃ ∧
    Hex.value? d₂.toNat = some v₂ ∧ Hex.value? d₁.toNat = some v₁ ∧
    Hex.value? d₀.toNat = some v₀ := by
  have hg : guid = .global ↔ guid.bytes = Guid.global.bytes := by
    cases guid
    cases h : Guid.global
    simp
  rw [hg, Guid.bytes_global]
  simp only [← digit_iff, ← front_iff]
  exact ⟨fun h => ⟨h.vendor, h.name⟩, fun h => ⟨h.1, h.2⟩⟩

/-- A name and its number, by the values of the digits. -/
theorem names_iff : guid = .global ∧ Names u n ↔
    ∃ v₃ v₂ v₁ v₀, Entry guid u v₃ v₂ v₁ v₀ ∧ n = 4096 * v₃ + 256 * v₂ + 16 * v₁ + v₀ := by
  simp only [entry_iff]
  constructor
  · rintro ⟨hg, a, b, c, d, w, x, y, z, hs, hw, hx, hy, hz, hn⟩
    exact ⟨w, x, y, z, ⟨hg, a, b, c, d, hs, hw, hx, hy, hz⟩, hn⟩
  · rintro ⟨w, x, y, z, ⟨hg, a, b, c, d, hs, hw, hx, hy, hz⟩, hn⟩
    exact ⟨hg, a, b, c, d, w, x, y, z, hs, hw, hx, hy, hz, hn⟩

theorem Entry.toNat_packed (h : Entry guid u v₃ v₂ v₁ v₀) :
    (packed [v₃, v₂, v₁, v₀]).toNat = 4096 * v₃ + 256 * v₂ + 16 * v₁ + v₀ := by
  obtain ⟨-, _, _, _, _, -, h₃, h₂, h₁, h₀⟩ := entry_iff.1 h
  exact toNat_packed_four (Hex.value?_lt h₃) (Hex.value?_lt h₂) (Hex.value?_lt h₁) (Hex.value?_lt h₀)

theorem Entry.numberOf?_eq (h : Entry guid u v₃ v₂ v₁ v₀) :
    numberOf? guid u = some (packed [v₃, v₂, v₁, v₀]) :=
  numberOf?_eq_some_iff.2 (names_iff.2 ⟨v₃, v₂, v₁, v₀, h, h.toNat_packed⟩)

/-- **The filter accepts the grammar and nothing else.**  A variable has a number
    iff it is an entry; the number has the digits of the entry, and shifting
    these into a word loses none of them. -/
theorem grammar_exact (guid : Guid) (u : Units) :
    (∀ n, numberOf? guid u = some n ↔ ∃ v₃ v₂ v₁ v₀, Entry guid u v₃ v₂ v₁ v₀ ∧
      n.toNat = 4096 * v₃ + 256 * v₂ + 16 * v₁ + v₀) ∧
    (numberOf? guid u = none ↔ ¬ ∃ v₃ v₂ v₁ v₀, Entry guid u v₃ v₂ v₁ v₀) ∧
    ∀ v₃ v₂ v₁ v₀, Entry guid u v₃ v₂ v₁ v₀ → numberOf? guid u = some (packed [v₃, v₂, v₁, v₀]) := by
  refine ⟨fun n => numberOf?_eq_some_iff.trans names_iff, ?_, fun _ _ _ _ h => h.numberOf?_eq⟩
  constructor
  · rintro hn ⟨_, _, _, _, h⟩
    rw [h.numberOf?_eq] at hn
    exact nomatch hn
  · intro h
    rw [Option.eq_none_iff_forall_ne_some]
    intro n hn
    obtain ⟨v₃, v₂, v₁, v₀, he, -⟩ := names_iff.1 (numberOf?_eq_some_iff.1 hn)
    exact h ⟨v₃, v₂, v₁, v₀, he⟩

/-- A name with digits of all three kinds, and half a pair behind its zero. -/
def mixedDigits : Units := [0x42, 0x6F, 0x6F, 0x74, 0x30, 0x61, 0x46, 0x39, 0, 0xD800]

/-- The name is accepted in its own namespace alone, and not with a full-width
    digit or a zero among its digits. -/
theorem grammar_exact_mixedDigits :
    Entry .global mixedDigits 0 10 15 9 ∧
    numberOf? .global mixedDigits = some (packed [0, 10, 15, 9]) ∧
    numberOf? .zero mixedDigits = none ∧
    numberOf? .global (mixedDigits.set 4 0xFF10) = none ∧
    numberOf? .global (mixedDigits.set 6 0) = none := by
  have he : Entry .global mixedDigits 0 10 15 9 := {
    vendor := Guid.bytes_global
    name := ⟨0x30, 0x61, 0x46, 0x39, front_iff.2 rfl, .decimal (by decide) (by decide),
      .lower (by decide) (by decide), .upper (by decide) (by decide),
      .decimal (by decide) (by decide)⟩ }
  exact ⟨he, (grammar_exact .global mixedDigits).2.2 _ _ _ _ he, by decide, by decide, by decide⟩

end BootOption

end BootOptions
