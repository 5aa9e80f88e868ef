/-
  Boot options — names as 16-bit units.

  A variable's name travels in a buffer of 16-bit units.  Only the units in
  front of the first zero, the stem, belong to the name; a buffer without a
  zero is a name as a whole.

  * `stem` and `text` are the name of a buffer as units and as text,
    `terminated` is the buffer of a text;
  * `overwrite` and `resize` are what a store and a caller do to a buffer; the
    first keeps the length (`length_overwrite`), the second sets it
    (`length_resize`).
-/
import BootOptions.Utf16

namespace BootOptions

/-- A buffer of 16-bit units, or the name in it. -/
abbrev Units := List UInt16

namespace Units

/-- A buffer of `n` zeros. -/
def zeros (n : Nat) : Units := List.replicate n 0

/-- The units of the name: those in front of the first zero, or all. -/
def stem (u : Units) : Units := u.takeWhile (· ≠ 0)

/-- Whether two buffers hold the same name, whatever stands behind it in them. -/
def sameName (u v : Units) : Bool := u.stem == v.stem

/-- The name as text; unpaired surrogates read as U+FFFD. -/
def text (u : Units) : String := String.ofList (Utf16.decode u.stem)

/-- A text as units, with a closing zero. -/
def terminated (s : String) : Units := Utf16.encode s.toList ++ [0]

/-- Copy `src` over the front of the buffer, as far as it fits. -/
def overwrite (u src : Units) : Units := src.take u.length ++ u.drop src.length

/-- Cut the buffer to `n` units, or extend it with zeros. -/
def resize (u : Units) (n : Nat) : Units := u.take n ++ zeros (n - u.length)

@[simp] theorem length_zeros (n : Nat) : (zeros n).length = n := List.length_replicate

@[simp] theorem length_overwrite (u src : Units) : (u.overwrite src).length = u.length := by
  simp [overwrite]; omega

@[simp] theorem length_resize (u : Units) (n : Nat) : (u.resize n).length = n := by
  simp [resize]; omega

theorem sameName_iff {u v : Units} : u.sameName v = true ↔ u.stem = v.stem := by
  simp [sameName]

theorem zero_not_mem_stem (u : Units) : 0 ∉ u.stem := fun h => by
  simpa using List.all_eq_true.1 List.all_takeWhile _ h

@[simp] theorem stem_zeros (n : Nat) : (zeros n).stem = [] := by
  cases n <;> simp [zeros, stem, List.replicate_succ]

theorem stem_cons (a : UInt16) (u : Units) :
    stem (a :: u) = if a = 0 then [] else a :: stem u := by
  by_cases h : a = 0 <;> simp [stem, h]

/-- Behind the first zero nothing belongs to the name. -/
theorem stem_append_zero (u v : Units) : stem (u ++ 0 :: v) = stem u := by
  induction u with
  | nil => simp [stem]
  | cons a u ih => rw [List.cons_append, stem_cons, stem_cons, ih]

theorem stem_eq_self {u : Units} (h : 0 ∉ u) : u.stem = u := by
  induction u with
  | nil => rfl
  | cons a u ih =>
    simp only [List.mem_cons, not_or] at h
    rw [stem_cons, if_neg (Ne.symm h.1), ih h.2]

/-- A name written with a zero that is inside the buffer is the name of the buffer. -/
theorem stem_overwrite {u name : Units} (h : name.length < u.length) (rest : Units) :
    (u.overwrite (name ++ 0 :: rest)).stem = name.stem := by
  obtain ⟨k, hk⟩ := Nat.exists_eq_add_of_lt h
  have ht : (name ++ 0 :: rest).take u.length = name ++ 0 :: rest.take k := by
    rw [hk, Nat.add_assoc, List.take_length_add_append, List.take_succ_cons]
  rw [overwrite, ht, List.append_assoc, List.cons_append, stem_append_zero]

end Units

end BootOptions
