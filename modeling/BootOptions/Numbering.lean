/-
  Boot options — numbers for new boot options.

  * `leastUnused` is the least number that is not in use; it may exceed
    `maxNumber` when all numbers are in use;
  * `OptionName.ofNumber` writes the name of a number, `OptionName.units?` is
    that name in a buffer.
-/
import BootOptions.BootOption

namespace BootOptions

/-- The largest number with four hexadecimal digits. -/
def maxNumber : Nat := 0xFFFF

/-! ## The least unused number -/

/-- Walk up from `candidate` along an ascending list: a number above the
    candidate leaves it free. -/
def firstGap (candidate : Nat) : List Nat → Nat
  | [] => candidate
  | n :: rest =>
    if candidate < n then candidate
    else firstGap (if n = candidate then candidate + 1 else candidate) rest

/-- The least number that none of the options has. -/
def leastUnused (options : List BootOption) : Nat :=
  firstGap 0 (options.map (·.number.toNat)).mergeSort

@[simp] theorem leastUnused_nil : leastUnused [] = 0 := by simp [leastUnused, firstGap]

/-- The candidate only grows, and every number it passes is in the list. -/
theorem firstGap_passed {c k : Nat} {l : List Nat} (hc : c ≤ k) (hk : k < firstGap c l) : k ∈ l := by
  induction l generalizing c with
  | nil => simp only [firstGap] at hk; omega
  | cons n l ih =>
    simp only [firstGap] at hk
    split at hk
    · omega
    · by_cases hn : n = c
      · rw [if_pos hn] at hk
        by_cases h : k = c
        · simp [h, hn]
        · exact List.mem_cons_of_mem _ (ih (by omega) hk)
      · rw [if_neg hn] at hk
        exact List.mem_cons_of_mem _ (ih hc hk)

theorem le_firstGap (c : Nat) (l : List Nat) : c ≤ firstGap c l := by
  induction l generalizing c with
  | nil => exact Nat.le_refl c
  | cons n l ih =>
    simp only [firstGap]
    split
    · exact Nat.le_refl c
    · by_cases hn : n = c
      · rw [if_pos hn]; exact Nat.le_trans (Nat.le_succ c) (ih (c + 1))
      · rw [if_neg hn]; exact ih c

/-- In an ascending list the walk ends on a number that is missing. -/
theorem firstGap_not_mem {c : Nat} {l : List Nat} (hl : l.Pairwise (· ≤ ·)) :
    firstGap c l ∉ l := by
  induction l generalizing c with
  | nil => simp
  | cons n l ih =>
    obtain ⟨hn, hl⟩ := List.pairwise_cons.1 hl
    simp only [firstGap]
    split
    · next h =>
      intro hm
      rcases List.mem_cons.1 hm with h' | h'
      · omega
      · have := hn c h'; omega
    · next h =>
      intro hm
      rcases List.mem_cons.1 hm with h' | h'
      · have := le_firstGap (if n = c then c + 1 else c) l
        by_cases hn : n = c
        · rw [if_pos hn] at this h'; omega
        · rw [if_neg hn] at this h'; omega
      · exact ih hl h'

/-! ## Names of numbers -/

/-- A short text: at most eight bytes in UTF-8, the length of the name of a
    boot option. -/
structure OptionName where
  text : String
  fits : text.utf8ByteSize ≤ BootOption.nameLength
deriving DecidableEq

/-- Why a number has no name. -/
inductive NumberError where
  | outOfRange (number : Nat)
deriving DecidableEq

/-- The text of an error; numbers are written with hexadecimal digits. -/
def NumberError.message : NumberError → String
  | outOfRange n =>
    "boot slot " ++ Hex.literal 1 n ++ " exceeds " ++ Hex.literal 1 maxNumber

namespace OptionName

/-- A text as a short one, if it is. -/
def ofText? (text : String) : Option OptionName :=
  if h : text.utf8ByteSize ≤ BootOption.nameLength then some ⟨text, h⟩ else none

/-- The name of a number: `Boot` and its four digits, letters in upper case. -/
def ofNumber (n : Nat) : Except NumberError OptionName :=
  if maxNumber < n then .error (.outOfRange n)
  else (ofText? ("Boot" ++ String.ofList (Hex.padded .upper 4 n))).elim (.error (.outOfRange n)) .ok

/-- The number of units in the buffer of a short name, its closing zero
    included. -/
def unitCapacity : Nat := BootOption.nameLength + 1

/-- The name as units with a closing zero; `none` if the buffer of a short
    name could not hold them. -/
def units? (n : OptionName) : Option Units :=
  if (Units.terminated n.text).length ≤ unitCapacity then some (Units.terminated n.text) else none

end OptionName

end BootOptions
