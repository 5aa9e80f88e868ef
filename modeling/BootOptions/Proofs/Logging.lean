/-
  Boot options — what the logger of a program delivers.

  A record passes two filters, in front of the logger and in it; both are set by
  one level.  To install the logger again provides a sink before it fails.  None
  of this can be seen in the lines.

  * `filterAfter as`: the filter in force behind the actions `as`;
    `Action.due f a`: the lines that the action `a` owes under the filter `f`.
  * `delivered_serving`, `logger_serving`: what one action does to an installed
    logger; `after_started`, `delivered_started`: what many do.
  * `transcript`: once installed, a logger delivers what is due, in order, to
    the sink it was first installed with.
-/
import Mathlib.Data.List.Basic
import Mathlib.Data.List.Induction
import BootOptions.Logger

namespace BootOptions.Logger

/-! ## One action -/

/-- The filter that an action sets. -/
def Action.filter? : Action → Option Log.Filter
  | .setFilter filter => some filter
  | _ => none

/-- The lines that an action owes under a filter: one for a record that is as
    grave as the filter demands. -/
def Action.due (f : Log.Filter) : Action → List String
  | .emit r | .write r =>
    if r.level.rank ≤ f.rank then ["[" ++ r.level.tag ++ "] " ++ r.target ++ ": " ++ r.message] else []
  | _ => []

/-- A logger that has been installed with the sink `first`. -/
def serving (first : Sink) (filter : Log.Filter) : Logger := ⟨some first, true, filter⟩

section
variable (first : Sink) (f : Log.Filter)

theorem isEnabled_serving (level : Log.Level) :
    (serving first f).isEnabled level = decide (level.rank ≤ f.rank) := rfl

theorem written_serving (r : Log.Record) :
    (serving first f).written r = ((Action.write r).due f).map (first, ·) := by
  rw [written, isEnabled_serving, Action.due]
  by_cases h : r.level.rank ≤ f.rank
  · rw [if_pos h, if_pos (decide_eq_true h)]
    rfl
  · rw [if_neg h, if_neg (by rwa [decide_eq_true_iff])]
    rfl

theorem isEnabled_eq (r : Log.Record) :
    (serving first f).isEnabled r.level = !((Action.write r).due f).isEmpty := by
  rw [isEnabled_serving, Action.due]
  by_cases h : r.level.rank ≤ f.rank
  · rw [if_pos h, decide_eq_true h]
    rfl
  · rw [if_neg h, decide_eq_false h]
    rfl

theorem emitted_serving (r : Log.Record) :
    (serving first f).emitted r = ((Action.emit r).due f).map (first, ·) :=
  (emitted_eq_written rfl r).trans (written_serving first f r)

/-- A logger that has a sink keeps it, and it is not registered again. -/
theorem install_serving (sink : Sink) :
    (serving first f).install sink = (.error .alreadyInstalled, serving first f) := rfl

/-- **An action delivers what it owes**, to the first sink. -/
theorem delivered_serving (a : Action) :
    ((serving first f).turn a).delivered = (a.due f).map (first, ·) := by
  cases a with
  | emit r => exact emitted_serving first f r
  | write r => exact written_serving first f r
  | setFilter | ask | flush | install => rfl

/-- An action changes nothing but the filter. -/
theorem logger_serving (a : Action) :
    ((serving first f).turn a).logger = serving first (a.filter?.getD f) := by
  cases a with
  | setFilter | emit | write | ask | flush | install => rfl

end

/-! ## Many actions -/

/-- The filter behind some actions: the last one that was set, or debug. -/
def filterAfter (as : List Action) : Log.Filter :=
  (as.filterMap Action.filter?).getLast?.getD (.upTo .debug)

/-- The lines that some actions owe, each under the filter in force before it. -/
def dueIn (as : List Action) : List String :=
  as.zipIdx.flatMap fun x => x.1.due (filterAfter (as.take x.2))

/-- The logger after some actions. -/
def after (l : Logger) (as : List Action) : Logger := as.foldl (fun l a => (l.turn a).logger) l

/-- The lines that sinks receive through some actions. -/
def delivered (l : Logger) : List Action → List (Sink × String)
  | [] => []
  | a :: as => (l.turn a).delivered ++ (l.turn a).logger.delivered as

/-- The logger behind its first installation, which may find any filter. -/
def started (filter : Log.Filter) (first : Sink) : Logger := (turn { filter } (.install first)).logger

theorem filterAfter_append (as : List Action) (a : Action) :
    filterAfter (as ++ [a]) = a.filter?.getD (filterAfter as) := by
  rw [filterAfter, List.filterMap_append]
  rcases h : a.filter? with _ | f
  · simp [filterAfter, h]
  · simp [h]

theorem dueIn_append (as : List Action) (a : Action) :
    dueIn (as ++ [a]) = dueIn as ++ a.due (filterAfter as) := by
  rw [dueIn, dueIn, List.zipIdx_append, List.flatMap_append]
  congr 1
  -- in front of an action of `as`, there are the same actions as before
  · apply List.flatMap_congr
    intro x hx
    have hlt := List.snd_lt_of_mem_zipIdx hx
    rw [List.take_append_of_le_length (Nat.le_of_lt hlt)]
  · simp

theorem after_append (l : Logger) (as : List Action) (a : Action) :
    l.after (as ++ [a]) = ((l.after as).turn a).logger := by
  rw [after, List.foldl_append]; rfl

theorem delivered_append (l : Logger) (as : List Action) (a : Action) :
    l.delivered (as ++ [a]) = l.delivered as ++ ((l.after as).turn a).delivered := by
  induction as generalizing l with
  | nil => simp [delivered, after]
  | cons b as ih => rw [List.cons_append, delivered, ih, delivered, List.append_assoc]; rfl

section
variable (filter : Log.Filter) (first : Sink) (as : List Action)

theorem after_started : (started filter first).after as = serving first (filterAfter as) := by
  induction as using List.reverseRecOn with
  | nil => rfl
  | append_singleton as a ih => rw [after_append, ih, logger_serving, filterAfter_append]

theorem delivered_started :
    (started filter first).delivered as = (dueIn as).map (first, ·) := by
  induction as using List.reverseRecOn with
  | nil => rfl
  | append_singleton as a ih =>
    rw [delivered_append, ih, after_started, delivered_serving, dueIn_append, List.map_append]

end

-- the second sink receives nothing, and its installation does not reset the filter
example (t m : String) :
    (started .off 1).delivered [.emit ⟨.debug, t, m⟩, .setFilter (.upTo .warn), .write ⟨.debug, t, m⟩,
      .install 2, .emit ⟨.debug, t, m⟩, .emit ⟨.error, t, m⟩] =
        [(1, Log.Record.line ⟨.debug, t, m⟩), (1, Log.Record.line ⟨.error, t, m⟩)] := rfl

end BootOptions.Logger
