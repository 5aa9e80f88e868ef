/-
  Boot options — variable stores as their callers see them.

  A store is walked with a cursor, a name buffer and a GUID that the caller
  owns.  A question hands the cursor over with the size of its buffer in
  bytes; the answer hands it back, overwritten with the next variable if the
  status is `success`.  An empty name asks for the first variable.

  * `Cursor`, `Request`, `Answer`: the caller's side of a walk, a question and
    its answer; an `Exchange` is a question with its answer;
  * `NameIterator`: whatever answers such questions.  Its one law is that a
    buffer comes back with the length it had, since it is the caller's memory;
  * `VariableStore`: a name iterator that can tell whether it can be walked.
-/
import BootOptions.Guid
import BootOptions.Status
import BootOptions.Units

namespace BootOptions

/-! ## Questions and answers -/

/-- Where a walk stands: the name and the GUID of the last variable. -/
structure Cursor where
  buffer : Units
  guid : Guid
deriving DecidableEq

/-- A cursor in front of the first variable, with a buffer of `n` units. -/
def Cursor.start (n : Nat) : Cursor := ⟨.zeros n, .zero⟩

/-- The name in the buffer. -/
def Cursor.name (c : Cursor) : Units := c.buffer.stem

/-- The size of the buffer in bytes, two for each unit. -/
def Cursor.byteSize (c : Cursor) : Nat := 2 * c.buffer.length

/-- The cursor with a buffer of `n` units: cut, or extended with zeros. -/
def Cursor.resize (c : Cursor) (n : Nat) : Cursor := { c with buffer := c.buffer.resize n }

/-- A question for the next variable; `size` is the room for its name in
    bytes. -/
structure Request extends Cursor where
  size : Nat
deriving DecidableEq

/-- The question that states the true size of the buffer. -/
def Cursor.request (c : Cursor) : Request := ⟨c, c.byteSize⟩

/-- An answer: the cursor after the call, the size of the name in bytes with
    its closing zero, and a status. -/
structure Answer extends Cursor where
  status : Status
  size : Nat
deriving DecidableEq

/-- The answer that changes nothing but the status. -/
def Request.refused (r : Request) (status : Status) : Answer := ⟨r.toCursor, status, r.size⟩

/-- A question with its answer. -/
structure Exchange where
  request : Request
  answer : Answer
deriving DecidableEq

/-! ## Stores -/

/-- A source of answers with a state of its own. -/
class NameIterator (σ : Type) where
  next : σ → Request → Answer × σ
  /-- The buffer comes back with the length it had. -/
  length_next : ∀ s r, (next s r).1.buffer.length = r.buffer.length

/-- A source of answers that may lack the facility as a whole. -/
class VariableStore (σ : Type) extends NameIterator σ where
  /-- Whether the store can be walked at all.  This is read off the state, so that a
      refresh, which asks for it twice before the first question, gets the same
      answer both times; a store that becomes unavailable in between is not covered. -/
  isAvailable : σ → Bool

@[simp] theorem Cursor.length_start (n : Nat) : (start n).buffer.length = n := Units.length_zeros n

@[simp] theorem Cursor.length_resize (c : Cursor) (n : Nat) : (c.resize n).buffer.length = n :=
  Units.length_resize c.buffer n

@[simp] theorem Cursor.name_start (n : Nat) : (start n).name = [] := Units.stem_zeros n

end BootOptions
