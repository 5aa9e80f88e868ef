/-
  Boot options — hexadecimal digits, read back and written anew.

  * `readFrom?_fixed` and `read?_fixed`: reading the digits of a number gives
    the number back, in either case;
  * `value?_congr`: digits that differ in case alone have the same value;
    `digit_upper_eq`: what is written for that value is the digit in upper case.
-/
import Mathlib.Algebra.Group.Nat.Defs
import BootOptions.Proofs.Names

namespace BootOptions.Hex

/-! ## Reading back -/

/-- The low digits read back as the number modulo `16 ^ w`, behind whatever was
    read before. -/
theorem readFrom?_fixed (c : LetterCase) (acc w n : Nat) :
    readFrom? acc ((fixed c w n).map Char.toNat) = some (acc * 16 ^ w + n % 16 ^ w) := by
  induction w generalizing n with
  | zero => simp [fixed, readFrom?, Nat.mod_one]
  | succ w ih =>
    simp only [fixed, List.map_append, List.map_cons, List.map_nil, readFrom?_append, ih,
      Option.bind_some, readFrom?, value?_digit c (Nat.mod_lt n (by decide : 0 < 16)),
      Option.some.injEq]
    have h : n % 16 ^ (w + 1) = n % 16 + 16 * (n / 16 % 16 ^ w) := by
      rw [Nat.pow_succ, Nat.mul_comm, Nat.mod_mul]
    rw [h, Nat.pow_succ, ← Nat.mul_assoc]
    omega

/-- **Digits read back**: the `w` low digits of a number below `16 ^ w` are read
    as that number. -/
theorem read?_fixed (c : LetterCase) {w n : Nat} (h : n < 16 ^ w) :
    read? ((fixed c w n).map Char.toNat) = some n := by
  rw [read?, readFrom?_fixed, Nat.zero_mul, Nat.zero_add, Nat.mod_eq_of_lt h]

/-- What is written for the number of four digits are these digits. -/
theorem fixed_four_digits (c : LetterCase) {w x y z : Nat} (hw : w < 16) (hx : x < 16) (hy : y < 16)
    (hz : z < 16) : fixed c 4 (0x1000 * w + 0x100 * x + 0x10 * y + z) =
      [digit c w, digit c x, digit c y, digit c z] := by
  have h3 : (0x1000 * w + 0x100 * x + 0x10 * y + z) / 0x1000 % 16 = w := by omega
  have h2 : (0x1000 * w + 0x100 * x + 0x10 * y + z) / 0x100 % 16 = x := by omega
  have h1 : (0x1000 * w + 0x100 * x + 0x10 * y + z) / 0x10 % 16 = y := by omega
  have h0 : (0x1000 * w + 0x100 * x + 0x10 * y + z) % 16 = z := by omega
  rw [fixed_four, h3, h2, h1, h0]

/-! ## Digits in either case -/

theorem toNat_toLower (c : Char) :
    c.toLower.toNat = if 65 ≤ c.toNat ∧ c.toNat ≤ 90 then c.toNat + 32 else c.toNat := by
  unfold Char.toLower
  split_ifs with h h' h'
  · have hd : (('a' : Char).val - ('A' : Char).val).toNat = 32 := rfl
    have hc : c.val.toNat ≤ 90 := h'.2
    show (c.val + _).toNat = c.val.toNat + 32
    rw [UInt32.toNat_add, hd]
    omega
  · exact absurd h h'
  · exact absurd h' h
  · rfl

theorem toNat_toUpper (c : Char) :
    c.toUpper.toNat = if 97 ≤ c.toNat ∧ c.toNat ≤ 122 then c.toNat - 32 else c.toNat := by
  unfold Char.toUpper
  split_ifs with h h' h'
  -- the difference of the cases is subtracted by an addition that wraps around
  · have hd : (('A' : Char).val - ('a' : Char).val).toNat = 2 ^ 32 - 32 := rfl
    have hc : 97 ≤ c.val.toNat ∧ c.val.toNat ≤ 122 := h'
    show (c.val + _).toNat = c.val.toNat - 32
    rw [UInt32.toNat_add, hd]
    omega
  · exact absurd h h'
  · exact absurd h' h
  · rfl

theorem value?_toLower (c : Char) : value? c.toLower.toNat = value? c.toNat := by
  rw [toNat_toLower]
  split
  · grind [value?]
  · rfl

/-- Digits that differ in case alone have the same value. -/
theorem value?_congr {c d : Char} (h : c.toLower = d.toLower) : value? c.toNat = value? d.toNat := by
  rw [← value?_toLower c, h, value?_toLower d]

theorem toNat_digit_upper {d : Nat} (h : d < 16) :
    (digit .upper d).toNat = if d < 10 then 48 + d else 55 + d := by
  unfold digit
  split_ifs
  · exact Utf16.toNat_ofNat (by omega)
  · exact Utf16.toNat_ofNat (by omega)

/-- What is written for the value of a digit is that digit in upper case. -/
theorem digit_upper_eq {c : Char} {d : Nat} (h : value? c.toNat = some d) :
    digit .upper d = c.toUpper := by
  rw [← Char.toNat_inj, toNat_digit_upper (value?_lt h), toNat_toUpper]
  simp only [value?] at h
  split_ifs at h ⊢ <;> simp only [Option.some.injEq] at h <;> omega

end BootOptions.Hex
