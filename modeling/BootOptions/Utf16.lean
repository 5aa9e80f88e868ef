/-
  Boot options — texts as 16-bit units.

  A character below `0x10000` is one unit; any other is a pair, a high
  surrogate and a low one.  Reading is total: a surrogate outside a pair reads
  as U+FFFD, and the unit behind it is read afresh.

  * `encode` writes characters as units, `decode` reads units as characters;
  * `decode_encode`: reading what was written gives the characters back.
-/
namespace BootOptions.Utf16

/-! ## Surrogates -/

/-- High surrogates open a pair. -/
def isHigh (u : UInt16) : Bool := 0xD800 ≤ u.toNat && u.toNat < 0xDC00

/-- Low surrogates close a pair. -/
def isLow (u : UInt16) : Bool := 0xDC00 ≤ u.toNat && u.toNat < 0xE000

/-- The character of the pair `hi lo`. -/
def pair (hi lo : UInt16) : Char :=
  Char.ofNat (0x10000 + (hi.toNat - 0xD800) * 0x400 + (lo.toNat - 0xDC00))

/-- What an unpaired surrogate reads as. -/
def replacement : Char := '\uFFFD'

/-- The character of a unit that is not half of a pair. -/
def single (u : UInt16) : Char :=
  if isHigh u || isLow u then replacement else Char.ofNat u.toNat

/-! ## Writing and reading -/

/-- The one or two units of a character. -/
def units (c : Char) : List UInt16 :=
  if c.toNat < 0x10000 then [.ofNat c.toNat]
  else [.ofNat (0xD800 + (c.toNat - 0x10000) / 0x400), .ofNat (0xDC00 + (c.toNat - 0x10000) % 0x400)]

/-- Characters as units, one behind the other. -/
def encode (cs : List Char) : List UInt16 := cs.flatMap units

/-- Units as characters: a pair, where there is one, is read as a whole. -/
def decode : List UInt16 → List Char
  | [] => []
  | [u] => [single u]
  | u :: v :: rest =>
    if isHigh u && isLow v then pair u v :: decode rest else single u :: decode (v :: rest)

@[simp] theorem encode_nil : encode [] = [] := rfl

@[simp] theorem encode_cons (c : Char) (cs : List Char) :
    encode (c :: cs) = units c ++ encode cs := rfl

theorem encode_append (cs ds : List Char) : encode (cs ++ ds) = encode cs ++ encode ds :=
  List.flatMap_append

/-- A unit that is not a high surrogate stands for itself. -/
theorem decode_cons_of_not_high {u : UInt16} (h : isHigh u = false) (us : List UInt16) :
    decode (u :: us) = single u :: decode us := by
  cases us with
  | nil => rfl
  | cons v us => simp [decode, h]

theorem decode_pair {u v : UInt16} (hu : isHigh u = true) (hv : isLow v = true)
    (us : List UInt16) : decode (u :: v :: us) = pair u v :: decode us := by
  simp [decode, hu, hv]

/-- A character is a valid code point: below the surrogates, or above them and
    at most `0x10FFFF`. -/
theorem toNat_valid (c : Char) : c.toNat < 0xD800 ∨ (0xDFFF < c.toNat ∧ c.toNat < 0x110000) :=
  c.valid

theorem decode_units_append (c : Char) (us : List UInt16) :
    decode (units c ++ us) = c :: decode us := by
  have hc := toNat_valid c
  by_cases h : c.toNat < 0x10000
  · have hu : (UInt16.ofNat c.toNat).toNat = c.toNat := by
      rw [UInt16.toNat_ofNat']; omega
    have hh : isHigh (.ofNat c.toNat) = false := by simp [isHigh, hu]; omega
    have hl : isLow (.ofNat c.toNat) = false := by simp [isLow, hu]; omega
    rw [units, if_pos h, List.singleton_append, decode_cons_of_not_high hh]
    simp [single, hh, hl, hu, Char.ofNat_toNat]
  · have hu : (UInt16.ofNat (0xD800 + (c.toNat - 0x10000) / 0x400)).toNat =
        0xD800 + (c.toNat - 0x10000) / 0x400 := by
      rw [UInt16.toNat_ofNat']; omega
    have hv : (UInt16.ofNat (0xDC00 + (c.toNat - 0x10000) % 0x400)).toNat =
        0xDC00 + (c.toNat - 0x10000) % 0x400 := by
      rw [UInt16.toNat_ofNat']; omega
    have hh : isHigh (.ofNat (0xD800 + (c.toNat - 0x10000) / 0x400)) = true := by
      simp only [isHigh, hu, Bool.and_eq_true, decide_eq_true_eq]; omega
    have hl : isLow (.ofNat (0xDC00 + (c.toNat - 0x10000) % 0x400)) = true := by
      simp only [isLow, hv, Bool.and_eq_true, decide_eq_true_eq]; omega
    rw [units, if_neg h, List.cons_append, List.cons_append, List.nil_append, decode_pair hh hl,
      pair, hu, hv]
    rw [show 0x10000 + (0xD800 + (c.toNat - 0x10000) / 0x400 - 0xD800) * 0x400 +
      (0xDC00 + (c.toNat - 0x10000) % 0x400 - 0xDC00) = c.toNat by omega, Char.ofNat_toNat]

/-- **Reading inverts writing.** -/
theorem decode_encode (cs : List Char) : decode (encode cs) = cs := by
  induction cs with
  | nil => rfl
  | cons c cs ih => rw [encode_cons, decode_units_append, ih]

end BootOptions.Utf16
