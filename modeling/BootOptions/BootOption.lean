/-
  Boot options — which variables are boot options.

  A boot option is a variable of the global namespace whose name is `Boot`
  and four hexadecimal digits, letters in either case; the digits are its
  number.

  * `number?` reads the number out of a name, `numberOf?` out of a variable;
  * `ofVariable?` is the boot option a variable is, if it is one.
-/
import BootOptions.Guid
import BootOptions.Units

namespace BootOptions

/-- A boot option: its name as the store has it, and its number. -/
structure BootOption where
  name : String
  number : UInt16
deriving DecidableEq

namespace BootOption

/-- What the name of a boot option starts with: `Boot`. -/
def marker : Units := [0x42, 0x6F, 0x6F, 0x74]

/-- The number of digits behind the marker. -/
def digitCount : Nat := 4

/-- The length of a boot option's name, without a closing zero. -/
def nameLength : Nat := marker.length + digitCount

/-- The number in a name; `none` if the name is not that of a boot option. -/
def number? (u : Units) : Option UInt16 :=
  if u.stem.length = nameLength ∧ u.stem.take marker.length = marker then
    (Hex.read? ((u.stem.drop marker.length).map UInt16.toNat)).map .ofNat
  else none

/-- The number of a variable; a name outside the global namespace has none. -/
def numberOf? (guid : Guid) (u : Units) : Option UInt16 :=
  if guid = .global then number? u else none

/-- The boot option that a variable is; `none` if it is not one. -/
def ofVariable? (guid : Guid) (u : Units) : Option BootOption :=
  (numberOf? guid u).map (⟨u.text, ·⟩)

theorem numberOf?_global (u : Units) : numberOf? .global u = number? u := if_pos rfl

theorem numberOf?_of_ne {guid : Guid} (h : guid ≠ .global) (u : Units) :
    numberOf? guid u = none := if_neg h

/-- Only the units of the name count. -/
theorem number?_congr {u v : Units} (h : u.stem = v.stem) : number? u = number? v := by
  rw [number?, number?, h]

end BootOption

end BootOptions
