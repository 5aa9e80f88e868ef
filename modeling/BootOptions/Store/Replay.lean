/-
  Boot options — a store that replays scripted answers.

  Each call takes the next step of the script and does what it tells, whatever
  the status of the step and the state of the cursor are.  Behind the script
  there is no further variable.
-/
import BootOptions.Store

namespace BootOptions

/-- One step of a script: a status, and what the caller's buffer, size and GUID become. -/
structure ReplayStep where
  status : Status
  /-- What is copied over the front of the buffer. -/
  write : Option Units := none
  /-- The reported size; without it, that of all units in `write`. -/
  size : Option Nat := none
  guid : Option Guid := none
deriving DecidableEq

/-- The answer that a step gives to a question. -/
def ReplayStep.answer (s : ReplayStep) (r : Request) : Answer where
  buffer := s.write.elim r.buffer r.buffer.overwrite
  guid := s.guid.getD r.guid
  status := s.status
  size := s.size.getD (s.write.elim r.size fun u => 2 * u.length)

/-- A store with the steps of its script that are still to come. -/
structure Replay where
  steps : List ReplayStep
  available : Bool := true
deriving DecidableEq

namespace Replay

/-- The answer of the next step, and behind the last one that there is no variable. -/
def answer (p : Replay) (r : Request) : Answer × Replay :=
  match p.steps with
  | [] => (r.refused .notFound, p)
  | s :: rest => (s.answer r, { p with steps := rest })

/-- A scan of the store ends within this many calls. -/
def callBound (p : Replay) : Nat := p.steps.length + 1

theorem length_step (s : ReplayStep) (r : Request) :
    (s.answer r).buffer.length = r.buffer.length := by
  cases h : s.write <;> simp [ReplayStep.answer, h]

instance : VariableStore Replay where
  next := answer
  length_next p r := by
    unfold answer
    split
    · rfl
    · exact length_step _ r
  isAvailable := available

end Replay

end BootOptions
