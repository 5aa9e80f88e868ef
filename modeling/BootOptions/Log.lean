/-
  Boot options — log records.

  A record has a level, a target (the part of the program that speaks) and a
  message.  A filter passes the records up to a level.

  * `Record.line` is the text a record is written as;
  * `Filter.lines` are the lines that a filter leaves of some records; the
    widest filter leaves all of them (`Filter.lines_trace`).
-/
namespace BootOptions.Log

/-- The levels, the gravest first. -/
inductive Level where
  | error
  | warn
  | info
  | debug
  | trace
deriving DecidableEq

/-- The rank of a level: graver levels have lower ranks. -/
def Level.rank : Level → Nat
  | error => 1
  | warn => 2
  | info => 3
  | debug => 4
  | trace => 5

/-- The level in a line: a coloured word, padded to five columns. -/
def Level.tag : Level → String
  | error => "\x1b[31mERROR\x1b[0m"
  | warn => "\x1b[33mWARN\x1b[0m "
  | info => "\x1b[32mINFO\x1b[0m "
  | debug => "\x1b[34mDEBUG\x1b[0m"
  | trace => "\x1b[35mTRACE\x1b[0m"

/-- What is let through: nothing, or the records up to a level. -/
inductive Filter where
  | off
  | upTo (level : Level)
deriving DecidableEq

/-- The highest rank that is let through. -/
def Filter.rank : Filter → Nat
  | off => 0
  | upTo l => l.rank

/-- Whether records of a level are let through. -/
def Filter.passes (f : Filter) (l : Level) : Bool := l.rank ≤ f.rank

/-- A record: its level, the part of the program that speaks, and what it says. -/
structure Record where
  level : Level
  target : String
  message : String
deriving DecidableEq

/-- The line of a record: its level in brackets, then target and message. -/
def Record.line (r : Record) : String :=
  "[" ++ r.level.tag ++ "] " ++ r.target ++ ": " ++ r.message

/-- The lines of the records that are let through. -/
def Filter.lines (f : Filter) (rs : List Record) : List String :=
  (rs.filter fun r => f.passes r.level).map Record.line

@[simp] theorem Filter.passes_trace (l : Level) : (upTo .trace).passes l = true := by
  cases l <;> rfl

theorem Filter.lines_trace (rs : List Record) : (upTo .trace).lines rs = rs.map Record.line := by
  rw [lines, List.filter_eq_self.2 fun r _ => passes_trace r.level]

end BootOptions.Log
