/-
  Boot options — a caller that walks a store by hand.

  The caller owns a cursor; between two questions it may set the name or the
  GUID and change the size of its buffer.
-/
import BootOptions.Store

namespace BootOptions

/-- A store and a caller's cursor in it. -/
structure Client (σ : Type) where
  store : σ
  cursor : Cursor

namespace Client

variable {σ : Type}

/-- A caller in front of the first variable, with a buffer of `n` units. -/
def start (store : σ) (n : Nat) : Client σ := ⟨store, .start n⟩

/-- Ask for the next variable, stating `size` bytes of room, or the true size
    of the buffer. -/
def next [NameIterator σ] (c : Client σ) (size : Option Nat) : Answer × Client σ :=
  let (a, store) := NameIterator.next c.store ⟨c.cursor, size.getD c.cursor.byteSize⟩
  (a, ⟨store, a.toCursor⟩)

/-- Clear the buffer and copy a name into it, as far as it fits. -/
def setName (c : Client σ) (name : Units) : Client σ :=
  { c with cursor.buffer := (Units.zeros c.cursor.buffer.length).overwrite name }

/-- Put another GUID into the cursor. -/
def setGuid (c : Client σ) (guid : Guid) : Client σ := { c with cursor.guid := guid }

/-- Cut the buffer to `n` units, or extend it with zeros. -/
def resize (c : Client σ) (n : Nat) : Client σ := { c with cursor := c.cursor.resize n }

@[simp] theorem length_next [NameIterator σ] (c : Client σ) (size : Option Nat) :
    (c.next size).2.cursor.buffer.length = c.cursor.buffer.length :=
  NameIterator.length_next c.store _

end Client

end BootOptions
