/-
  Boot options — the variable store of the firmware.

  The firmware is reached through a table of services, which may be absent or
  may be another kind of table; its signature tells.  The firmware knows the
  caller's buffer by the stated size alone, so that size never exceeds the
  buffer, and the firmware gets to see no more of the buffer than the size
  covers.
-/
import BootOptions.Store

namespace BootOptions

/-- A table of services: its signature, and the firmware behind it. -/
structure ServiceTable (φ : Type) where
  signature : UInt64
  firmware : φ

/-- The signature of a table of runtime services. -/
def ServiceTable.runtimeSignature : UInt64 := 0x56524553544e5552

/-- The store behind a table of services, if there is a table. -/
structure FirmwareStore (φ : Type) where
  table : Option (ServiceTable φ)

namespace FirmwareStore

variable {φ : Type}

/-- The table, if it is there and holds runtime services. -/
def services (f : FirmwareStore φ) : Option (ServiceTable φ) :=
  f.table.filter (·.signature = ServiceTable.runtimeSignature)

/-- The size that the firmware is told. -/
def toldSize (r : Request) : Nat := min r.size r.byteSize

/-- The question as the firmware gets it. -/
def windowed (r : Request) : Request where
  buffer := r.buffer.take (toldSize r / 2)
  guid := r.guid
  size := toldSize r

/-- The answer of the firmware, set back into the caller's buffer. -/
def embedded (r : Request) (a : Answer) : Answer :=
  { a with buffer := a.buffer ++ r.buffer.drop (toldSize r / 2) }

/-- The answer of the store; without services or without a buffer, the
    firmware is not asked. -/
def answer [NameIterator φ] (f : FirmwareStore φ) (r : Request) : Answer × FirmwareStore φ :=
  match f.services with
  | none => (r.refused .unsupported, f)
  | some t =>
    if r.buffer.isEmpty then (r.refused .unsupported, f)
    else
      let (a, firmware) := NameIterator.next t.firmware (windowed r)
      (embedded r a, ⟨some { t with firmware }⟩)

/-- The firmware sees as many units as it is told of. -/
theorem length_windowed (r : Request) : (windowed r).buffer.length = toldSize r / 2 := by
  simp [windowed, toldSize, Cursor.byteSize]; omega

instance [NameIterator φ] : VariableStore (FirmwareStore φ) where
  next := answer
  length_next f r := by
    unfold answer
    split
    · rfl
    · split
      · rfl
      · have h := length_windowed r
        have hn := NameIterator.length_next (‹ServiceTable φ›.firmware) (windowed r)
        have hr : toldSize r / 2 ≤ r.buffer.length := by
          simp [toldSize, Cursor.byteSize]; omega
        simp only [embedded, List.length_append, List.length_drop]
        omega
  isAvailable f := f.services.isSome

end FirmwareStore

end BootOptions
