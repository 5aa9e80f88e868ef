/-
  Boot options — the logger of a program.

  A program has one logger.  To install it is to provide the sink that receives
  its lines and to register it for the records of the program; both take effect
  once.  A record reaches the sink if the filter of that moment lets it through,
  whether it is emitted by the program or written to the logger directly.

  The registry of loggers and the place of the sink belong to the environment,
  and their behaviour is assumed: the registry takes one logger, once, and drops
  the records of the program above the filter; the place of the sink keeps the
  first one.  `registered` speaks of this logger alone.  That the registry holds
  another logger already, which is the other reason for an installation to fail,
  is not represented.
-/
import BootOptions.Log

namespace BootOptions

/-- Something that receives lines; a program tells its sinks apart by number. -/
abbrev Sink := Nat

/-- Why a logger could not be installed. -/
inductive InstallError where
  | alreadyInstalled
deriving DecidableEq

/-- The text of an error. -/
def InstallError.message : InstallError → String
  | alreadyInstalled =>
    "attempted to set a logger after the logging system was already initialized"

/-- The logger: its sink, once there is one, whether it gets the records of the
    program, and the filter that these and the logger share. -/
structure Logger where
  sink : Option Sink := none
  registered : Bool := false
  filter : Log.Filter := .off
deriving DecidableEq

namespace Logger

/-- What a program may do with its logger. -/
inductive Action where
  | setFilter (filter : Log.Filter)
  /-- a record of the program -/
  | emit (record : Log.Record)
  /-- a record written to the logger directly -/
  | write (record : Log.Record)
  | ask (level : Log.Level)
  | flush
  | install (sink : Sink)
deriving DecidableEq

/-- What an action answers; most answer nothing. -/
inductive Reply where
  | done
  | enabled (yes : Bool)
  | installed (result : Except InstallError Unit)

/-- The outcome of an action: its answer, the lines that sinks received, and
    the logger behind it. -/
structure Turn where
  reply : Reply
  delivered : List (Sink × String)
  logger : Logger

/-- Whether records of a level pass the filter in force. -/
def isEnabled (l : Logger) (level : Log.Level) : Bool := l.filter.passes level

/-- The lines that a record written to the logger becomes. -/
def written (l : Logger) (r : Log.Record) : List (Sink × String) :=
  if l.isEnabled r.level then l.sink.toList.map (·, r.line) else []

/-- The lines that a record of the program becomes: it is dropped in front of
    the logger unless the filter lets it through. -/
def emitted (l : Logger) (r : Log.Record) : List (Sink × String) :=
  if l.registered && l.filter.passes r.level then l.written r else []

/-- Provide the sink, unless there is one. -/
def provide (l : Logger) (sink : Sink) : Logger := { l with sink := l.sink.or (some sink) }

/-- Register the logger; from then on it logs up to debug records. -/
def register (l : Logger) : Except InstallError Unit × Logger :=
  if l.registered then (.error .alreadyInstalled, l)
  else (.ok (), { l with registered := true, filter := .upTo .debug })

/-- Install the logger.  The sink is provided first, and is not taken back if
    the logger cannot be registered. -/
def install (l : Logger) (sink : Sink) : Except InstallError Unit × Logger := (l.provide sink).register

/-- Carry out an action. -/
def turn (l : Logger) : Action → Turn
  | .setFilter filter => ⟨.done, [], { l with filter }⟩
  | .emit r => ⟨.done, l.emitted r, l⟩
  | .write r => ⟨.done, l.written r, l⟩
  | .ask level => ⟨.enabled (l.isEnabled level), [], l⟩
  | .flush => ⟨.done, [], l⟩
  | .install sink =>
    let (result, logger) := l.install sink
    ⟨.installed result, [], logger⟩

/-- A record that the program emits passes the filter twice, to no other effect
    than one that is written to the logger. -/
theorem emitted_eq_written {l : Logger} (h : l.registered = true) (r : Log.Record) :
    l.emitted r = l.written r := by
  unfold emitted written isEnabled
  rw [h, Bool.true_and]
  split <;> rfl

end Logger

end BootOptions
