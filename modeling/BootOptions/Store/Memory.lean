/-
  Boot options — a variable store in memory.

  The store holds its variables in the order they were added and answers in
  that order.  It counts its answers, so that one of them can be replaced by
  an injected fault, and the requests for a larger buffer among them.

  * `after?` is the position of the next variable: the first one for an empty
    name, else the one behind the first variable the cursor stands on;
  * `genuine` is the answer without a fault, `answer` the answer with it.
-/
import BootOptions.Store

namespace BootOptions

/-- A variable: its vendor and the units of its name, without a closing zero. -/
structure Variable where
  guid : Guid
  name : Units
deriving DecidableEq

namespace Variable

/-- The variable with a text as its name. -/
def ofText (guid : Guid) (name : String) : Variable := ⟨guid, Utf16.encode name.toList⟩

/-- The name as the store hands it out: with a closing zero. -/
def stored (v : Variable) : Units := v.name ++ [0]

/-- The room that the stored name needs, in bytes. -/
def byteSize (v : Variable) : Nat := 2 * v.stored.length

/-- Whether the cursor stands on this variable. -/
def isAt (v : Variable) (c : Cursor) : Bool := v.guid = c.guid ∧ v.stored.sameName c.buffer

end Variable

/-- A status to be answered at one step instead of the genuine answer. -/
structure Fault where
  step : Nat
  status : Status
deriving DecidableEq

/-- A store with its variables in the order they were added. -/
structure MemoryStore where
  contents : List Variable := []
  available : Bool := true
  fault : Option Fault := none
  /-- The answers counted since the last `rewind`. -/
  steps : Nat := 0
  /-- The answers that asked for a larger buffer. -/
  resizeRequests : Nat := 0
deriving DecidableEq

namespace MemoryStore

/-- Add a variable behind all others. -/
def add (m : MemoryStore) (v : Variable) : MemoryStore :=
  { m with contents := m.contents ++ [v] }

/-- Count the answers afresh. -/
def rewind (m : MemoryStore) : MemoryStore := { m with steps := 0 }

/-- The store after one more counted answer. -/
def counted (m : MemoryStore) : MemoryStore := { m with steps := m.steps + 1 }

/-- The position of the variable that follows the cursor; `none` if the cursor
    stands on no variable. -/
def after? (m : MemoryStore) (c : Cursor) : Option Nat :=
  if c.name.isEmpty then some 0 else (m.contents.findIdx? (·.isAt c)).map (· + 1)

/-- The status to be injected now. -/
def due (m : MemoryStore) : Option Status :=
  m.fault.bind fun f => if f.step = m.steps then some f.status else none

/-- The answer of a store without a fault.  An unknown cursor is refused and
    not counted. -/
def genuine (m : MemoryStore) (r : Request) : Answer × MemoryStore :=
  match m.after? r.toCursor with
  | none => (r.refused .invalidParameter, m)
  | some i =>
    match m.contents[i]? with
    | none => (r.refused .notFound, m.counted)
    | some v =>
      if r.size < v.byteSize ∨ r.buffer.length < v.stored.length then
        ({ r.refused .bufferTooSmall with size := v.byteSize },
          { m.counted with resizeRequests := m.resizeRequests + 1 })
      else
        (⟨⟨r.buffer.overwrite v.stored, v.guid⟩, .success, v.byteSize⟩, m.counted)

/-- The answer of the store: refused as a whole if it is not available, else a fault that is
    due, else the genuine answer. -/
def answer (m : MemoryStore) (r : Request) : Answer × MemoryStore :=
  if m.available then
    match m.due with
    | some status => (r.refused status, m.counted)
    | none => m.genuine r
  else (r.refused .unsupported, m)

/-- A scan of the store that ends at all ends within this many calls: each
    variable may ask for a larger buffer once, and a fault comes at its step. -/
def callBound (m : MemoryStore) : Nat :=
  2 * m.contents.length + 2 + m.fault.elim 0 fun f => f.step + 1

theorem length_genuine (m : MemoryStore) (r : Request) :
    (m.genuine r).1.buffer.length = r.buffer.length := by
  unfold genuine
  split
  · rfl
  · split
    · rfl
    · split
      · rfl
      · exact Units.length_overwrite _ _

instance : VariableStore MemoryStore where
  next := answer
  length_next m r := by
    unfold answer
    split
    · split
      · rfl
      · exact m.length_genuine r
    · rfl
  isAvailable := available

end MemoryStore

end BootOptions
