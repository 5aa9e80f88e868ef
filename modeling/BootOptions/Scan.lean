/-
  Boot options — scanning a variable store.

  A scan walks all variables of a store and keeps those that are boot options.
  Its cursor is handed back and forth; if a name does not fit, the buffer is
  extended and the same question asked again.  The scan yields all boot
  options or an error, never a part of them.

  Lengths and sizes are numbers without a bound, and there is room for every
  buffer.  Where the settings and a store lead to a buffer that no memory holds,
  one of `2 ^ 63` bytes or more, a program ends abnormally; what is said of
  scans does not cover that.

  * `Walk.step` is the reaction to one answer: it goes on with another walk,
    or ends with a result;
  * `Walk.run` asks a store until the walk ends, at most `fuel` times, and
    `scan` does so from the first variable on.  A store need not let a walk
    end; a scan that used up its calls has no result (`none`);
  * `run_zero`, `run_done` and `run_more` are the equations of `Walk.run`,
    `length_exchanges_le` bounds the questions by the fuel.
-/
import BootOptions.Notice
import BootOptions.Store

namespace BootOptions

/-! ## Settings and errors -/

/-- The settings of a scan. -/
structure ScanConfig where
  /-- the length of the first buffer, in units -/
  initialCapacity : Nat := 64
  /-- the length up to which the buffer is extended, in units -/
  maxNameLength : Nat := 1024
  /-- whether every boot option found is told to the log -/
  trace : Bool := true
deriving DecidableEq

/-- The longest buffer of a scan; it never falls short of the name of a boot
    option with its closing zero. -/
def ScanConfig.limit (cfg : ScanConfig) : Nat := max cfg.maxNameLength (BootOption.nameLength + 1)

/-- The first cursor of a scan; its buffer has at least one unit. -/
def ScanConfig.start (cfg : ScanConfig) : Cursor := .start (max 1 (min cfg.initialCapacity cfg.limit))

/-- Why a scan failed. -/
inductive ScanError where
  /-- the store cannot be walked, or failed in front of the first variable -/
  | storeUnavailable (status : Status)
  /-- the store failed behind the first variable -/
  | iterationFailed (status : Status) (visited : Nat)
  /-- a name needs a larger buffer than the scan allows -/
  | nameTooLong (bytes : Nat)
deriving DecidableEq

/-- The text of an error, with what the store answered. -/
def ScanError.message : ScanError → String
  | storeUnavailable status => "variable store unavailable (" ++ status.text ++ ")"
  | iterationFailed status visited =>
    "variable enumeration failed after " ++ toString visited ++ " variables (" ++ status.text ++ ")"
  | nameTooLong bytes => "variable name needs " ++ toString bytes ++ " bytes"

/-! ## One answer -/

/-- A walk between two questions: its cursor, the number of variables seen and
    the boot options among them. -/
structure Walk where
  cursor : Cursor
  visited : Nat := 0
  options : List BootOption := []
deriving DecidableEq

/-- What follows an answer. -/
inductive Step where
  /-- ask again -/
  | more (walk : Walk) (notices : List Notice)
  /-- the walk is over -/
  | done (result : Except ScanError (List BootOption)) (notice : Notice)

namespace Walk

/-- The end of a walk at an answer it cannot go on from. -/
def fail (w : Walk) (status : Status) : Step :=
  .done (.error (if w.visited = 0 then .storeUnavailable status else .iterationFailed status w.visited))
    (.stepFailed w.visited status)

/-- The walk behind one more variable, on which the cursor stands. -/
def visit (cfg : ScanConfig) (w : Walk) (cursor : Cursor) : Step :=
  match BootOption.ofVariable? cursor.guid cursor.buffer with
  | none => .more ⟨cursor, w.visited + 1, w.options⟩ []
  | some o =>
    .more ⟨cursor, w.visited + 1, w.options ++ [o]⟩ (if cfg.trace then [.accepted o cursor.guid] else [])

/-- The reaction to a request for a larger buffer.  Half a unit counts as one,
    and a request for no more than there is cannot be met. -/
def enlarge (cfg : ScanConfig) (w : Walk) (a : Answer) : Step :=
  let needed := (a.size + 1) / 2
  if cfg.limit < needed then .done (.error (.nameTooLong a.size)) (.nameTooLong a.size)
  else if needed ≤ a.buffer.length then w.fail a.status
  else .more { w with cursor := a.toCursor.resize needed } []

/-- The reaction to an answer, by its status; a status without a meaning of its own is a
    failure. -/
def step (cfg : ScanConfig) (w : Walk) (a : Answer) : Step :=
  if a.status = .success then w.visit cfg a.toCursor
  else if a.status = .notFound then
    .done (.ok w.options) (.completed w.options.length w.visited)
  else if a.status = .bufferTooSmall then w.enlarge cfg a
  else w.fail a.status

end Walk

/-! ## The loop -/

/-- A scan: its result, if it came to an end, the questions with their answers
    and the notices in order, and the store behind it. -/
structure Scan (σ : Type) where
  result : Option (Except ScanError (List BootOption))
  exchanges : List Exchange := []
  notices : List Notice := []
  store : σ

variable {σ : Type} [VariableStore σ]

/-- Ask the store until the walk ends, at most `fuel` times. -/
def Walk.run (cfg : ScanConfig) : Nat → Walk → σ → Scan σ
  | 0, _, store => { result := none, store }
  | fuel + 1, w, store =>
    let (a, store) := NameIterator.next store w.cursor.request
    match w.step cfg a with
    | .done result notice => ⟨some result, [⟨w.cursor.request, a⟩], [notice], store⟩
    | .more w' notices =>
      let rest := run cfg fuel w' store
      ⟨rest.result, ⟨w.cursor.request, a⟩ :: rest.exchanges, notices ++ rest.notices, rest.store⟩

/-- Scan a store from its first variable on.  A store that cannot be walked is
    not asked. -/
def scan (cfg : ScanConfig) (fuel : Nat) (store : σ) : Scan σ :=
  if VariableStore.isAvailable store then Walk.run cfg fuel ⟨cfg.start, 0, []⟩ store
  else { result := some (.error (.storeUnavailable .unsupported)), store }

namespace Walk

variable {cfg : ScanConfig} {w w' : Walk} {store : σ} {fuel : Nat}

@[simp] theorem run_zero : run cfg 0 w store = { result := none, store } := rfl

theorem run_done {result : Except ScanError (List BootOption)} {notice : Notice}
    (h : w.step cfg (NameIterator.next store w.cursor.request).1 = .done result notice) :
    run cfg (fuel + 1) w store =
      ⟨some result, [⟨w.cursor.request, (NameIterator.next store w.cursor.request).1⟩], [notice],
        (NameIterator.next store w.cursor.request).2⟩ := by
  simp only [run, h]

theorem run_more {notices : List Notice}
    (h : w.step cfg (NameIterator.next store w.cursor.request).1 = .more w' notices) :
    run cfg (fuel + 1) w store =
      (let rest := run cfg fuel w' (NameIterator.next store w.cursor.request).2
       ⟨rest.result,
        ⟨w.cursor.request, (NameIterator.next store w.cursor.request).1⟩ :: rest.exchanges,
        notices ++ rest.notices, rest.store⟩) := by
  simp only [run, h]

theorem length_exchanges_le : (run cfg fuel w store).exchanges.length ≤ fuel := by
  induction fuel generalizing w store with
  | zero => simp
  | succ fuel ih =>
    rcases h : w.step cfg (NameIterator.next store w.cursor.request).1 with ⟨w', ns⟩ | ⟨r, n⟩
    · rw [run_more h]; simpa using ih
    · rw [run_done h]; simp

end Walk

end BootOptions
