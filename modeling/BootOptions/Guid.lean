/-
  Boot options — vendor GUIDs.

  A GUID is sixteen bytes.  Its first eight hold three numbers, `Data1` (four
  bytes), `Data2` and `Data3` (two each), the low byte of each first; the last
  eight stand for themselves.

  * `ofFields` builds a GUID from the three numbers and the eight bytes,
    `data1`, `data2`, `data3` and `rest` read them back;
  * `global` is the namespace of the boot options, `zero` the GUID a walk
    starts from;
  * `text` is the form in the log, `shown` the order in which it has the bytes.
-/
import BootOptions.Hex

namespace BootOptions

/-- A vendor GUID: sixteen bytes in memory order. -/
structure Guid where
  bytes : Vector UInt8 16
deriving DecidableEq

namespace Guid

/-- Byte `i` of a number, counted from the low one. -/
def octet (n i : Nat) : UInt8 := .ofNat (n >>> (8 * i))

/-- The number of some bytes, the high one first. -/
def number (bytes : List UInt8) : Nat := bytes.foldl (fun n b => 256 * n + b.toNat) 0

/-- The GUID with the given `Data1`, `Data2`, `Data3` and last eight bytes. -/
def ofFields (data1 : UInt32) (data2 data3 : UInt16) (rest : Vector UInt8 8) : Guid where
  bytes := #v[octet data1.toNat 0, octet data1.toNat 1, octet data1.toNat 2, octet data1.toNat 3,
    octet data2.toNat 0, octet data2.toNat 1, octet data3.toNat 0, octet data3.toNat 1,
    rest[0], rest[1], rest[2], rest[3], rest[4], rest[5], rest[6], rest[7]]

/-- The first number, `Data1`: four bytes, the low one first in memory. -/
def data1 (g : Guid) : Nat := number [g.bytes[3], g.bytes[2], g.bytes[1], g.bytes[0]]

/-- The second number, `Data2`: two bytes, the low one first in memory. -/
def data2 (g : Guid) : Nat := number [g.bytes[5], g.bytes[4]]

/-- The third number, `Data3`: two bytes, the low one first in memory. -/
def data3 (g : Guid) : Nat := number [g.bytes[7], g.bytes[6]]

/-- The last eight bytes. -/
def rest (g : Guid) : Vector UInt8 8 :=
  #v[g.bytes[8], g.bytes[9], g.bytes[10], g.bytes[11], g.bytes[12], g.bytes[13], g.bytes[14],
    g.bytes[15]]

/-- The GUID of a list of sixteen bytes. -/
def ofBytes? (bytes : List UInt8) : Option Guid :=
  if h : bytes.length = 16 then some ⟨⟨bytes.toArray, by simpa using h⟩⟩ else none

/-- The GUID of sixteen zeros. -/
def zero : Guid := ⟨Vector.replicate 16 0⟩

/-- The namespace of the boot options and of the other global variables. -/
def global : Guid :=
  ofFields 0x8BE4DF61 0x93CA 0x11D2 #v[0xAA, 0x0D, 0x00, 0xE0, 0x98, 0x03, 0x2B, 0x8C]

/-- Bytes as pairs of digits, in the order given. -/
def hexBytes (bytes : List UInt8) : List Char :=
  bytes.flatMap fun b => Hex.fixed .lower 2 b.toNat

/-- The five groups of digits of the usual notation: the three numbers, then
    two and six of the last bytes. -/
def groups (g : Guid) : List (List Char) :=
  [Hex.fixed .lower 8 g.data1, Hex.fixed .lower 4 g.data2, Hex.fixed .lower 4 g.data3,
    hexBytes [g.bytes[8], g.bytes[9]],
    hexBytes [g.bytes[10], g.bytes[11], g.bytes[12], g.bytes[13], g.bytes[14], g.bytes[15]]]

/-- The bytes whose digits make up each of the groups. -/
def shown (g : Guid) : List (List UInt8) :=
  [[g.bytes[3], g.bytes[2], g.bytes[1], g.bytes[0]], [g.bytes[5], g.bytes[4]],
    [g.bytes[7], g.bytes[6]], [g.bytes[8], g.bytes[9]],
    [g.bytes[10], g.bytes[11], g.bytes[12], g.bytes[13], g.bytes[14], g.bytes[15]]]

/-- The form in the log: the global namespace by its name, any other GUID as
    its groups of digits with dashes between them. -/
def text (g : Guid) : String :=
  if g = global then "EFI_GLOBAL_VARIABLE"
  else String.ofList (List.intercalate ['-'] g.groups)

/-- All sixteen bytes as digits, in memory order. -/
def memoryText (g : Guid) : String := String.ofList (hexBytes g.bytes.toList)

@[simp] theorem length_hexBytes (bytes : List UInt8) : (hexBytes bytes).length = 2 * bytes.length := by
  induction bytes with
  | nil => rfl
  | cons b bytes ih => simp [hexBytes] at ih ⊢; omega

theorem bytes_global : global.bytes =
    #v[0x61, 0xDF, 0xE4, 0x8B, 0xCA, 0x93, 0xD2, 0x11, 0xAA, 0x0D, 0x00, 0xE0, 0x98, 0x03, 0x2B, 0x8C] := by
  decide

end Guid

end BootOptions
