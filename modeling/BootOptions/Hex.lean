/-
  Boot options — hexadecimal digits.

  Numbers are written with the most significant digit first, letters in
  either case; they are read from the code points of a text.

  * `fixed c w n` are the `w` low digits of `n`, `padded c w n` are all digits
    of `n`, at least `w` of them;
  * `value?` is the value of one code point as a digit, `read?` that of a run
    of them;
  * `value?_digit`: a written digit reads back, in either case; `value?_lt`:
    what is read is a digit's value.
-/
namespace BootOptions.Hex

/-- The case of the digits above nine. -/
inductive LetterCase where
  | lower
  | upper

/-! ## Writing -/

/-- The digit of value `d`, for `d < 16`. -/
def digit (c : LetterCase) (d : Nat) : Char :=
  if d < 10 then Char.ofNat (48 + d) else
    match c with
    | .lower => Char.ofNat (87 + d)
    | .upper => Char.ofNat (55 + d)

/-- The `w` low digits of `n`. -/
def fixed (c : LetterCase) : Nat → Nat → List Char
  | 0, _ => []
  | w + 1, n => fixed c w (n / 16) ++ [digit c (n % 16)]

/-- The number of digits of `n`; zero has one. -/
def width (n : Nat) : Nat := n.log2 / 4 + 1

/-- All digits of `n`, with zeros in front if there are fewer than `w`. -/
def padded (c : LetterCase) (w n : Nat) : List Char := fixed c (max w (width n)) n

/-- A number as the log and the error texts show it: `0x` and at least `w`
    lower-case digits. -/
def literal (w n : Nat) : String := "0x" ++ String.ofList (padded .lower w n)

@[simp] theorem length_fixed (c : LetterCase) (w n : Nat) : (fixed c w n).length = w := by
  induction w generalizing n with
  | zero => rfl
  | succ w ih => simp [fixed, ih]

/-! ## Reading -/

/-- The value of a code point as a digit: `0` to `9`, and `A` to `F` in either
    case. -/
def value? (n : Nat) : Option Nat :=
  if 48 ≤ n ∧ n ≤ 57 then some (n - 48)
  else if 65 ≤ n ∧ n ≤ 70 then some (n - 55)
  else if 97 ≤ n ∧ n ≤ 102 then some (n - 87)
  else none

/-- Continue reading digits after the value `acc`. -/
def readFrom? (acc : Nat) : List Nat → Option Nat
  | [] => some acc
  | n :: rest => (value? n).bind fun d => readFrom? (16 * acc + d) rest

/-- The value of a run of digits; `none` if one of them is no digit. -/
def read? (digits : List Nat) : Option Nat := readFrom? 0 digits

theorem value?_lt {n d : Nat} (h : value? n = some d) : d < 16 := by
  simp only [value?] at h
  split at h
  · simp only [Option.some.injEq] at h; omega
  · split at h
    · simp only [Option.some.injEq] at h; omega
    · split at h
      · simp only [Option.some.injEq] at h; omega
      · exact nomatch h

theorem value?_digit (c : LetterCase) {d : Nat} (h : d < 16) :
    value? (digit c d).toNat = some d := by
  rcases c with _ | _ <;>
  · rcases d with _ | _ | _ | _ | _ | _ | _ | _ | _ | _ | _ | _ | _ | _ | _ | _ | d
    all_goals first | rfl | omega

theorem readFrom?_append (acc : Nat) (l r : List Nat) :
    readFrom? acc (l ++ r) = (readFrom? acc l).bind fun a => readFrom? a r := by
  induction l generalizing acc with
  | nil => rfl
  | cons n l ih =>
    simp only [List.cons_append, readFrom?]
    cases value? n with
    | none => rfl
    | some d => exact ih _

end BootOptions.Hex
