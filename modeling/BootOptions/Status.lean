/-
  Boot options — the status of a store's answer.

  A status is a 64-bit code.  Five codes have a meaning to the library; any
  other one is a failure, warnings included.
-/
import BootOptions.Hex

namespace BootOptions

/-- A status, told apart from others by its code alone. -/
structure Status where
  code : UInt64
deriving DecidableEq

namespace Status

/-- The question was answered: the cursor stands on the next variable. -/
def success : Status := ⟨0⟩

/-- The question was malformed, or its cursor is unknown to the store. -/
def invalidParameter : Status := ⟨0x8000000000000002⟩

/-- The store cannot be walked, or not with this buffer. -/
def unsupported : Status := ⟨0x8000000000000003⟩

/-- The next name does not fit; the answer states the room that it needs. -/
def bufferTooSmall : Status := ⟨0x8000000000000005⟩

/-- There is no further variable. -/
def notFound : Status := ⟨0x800000000000000E⟩

/-- The code as the log and the error texts show it. -/
def text (s : Status) : String := Hex.literal 1 s.code.toNat

end Status

end BootOptions
