/-
  Boot options — a program that keeps several inventories.

  One inventory is shared by the whole program; any part of it may own further
  ones.  A command is carried out on one of them, and what it tells the log
  goes through the filter in force at that moment.
-/
import BootOptions.Inventory

namespace BootOptions

/-- Who keeps an inventory: the program as a whole, or one of its parts. -/
inductive Holder where
  | shared
  | own (index : Nat)
deriving DecidableEq

/-- What may be done with an inventory. -/
inductive Command : Type 1 where
  /-- scan a store, with at most `fuel` questions -/
  | refresh {σ : Type} [VariableStore σ] (store : σ) (cfg : ScanConfig) (fuel : Nat)
  | nextFree
  | clear
  | look

/-- The answer to a command. -/
inductive Reply where
  /-- the options now known, or an error, and the questions that were asked -/
  | refreshed (result : Option (Except RefreshError Nat)) (exchanges : List Exchange)
  | numbered (result : Except NextFreeError Nat)
  | nothing

/-- All inventories of a program, and the filter of its log. -/
structure Session where
  inventory : Holder → Inventory := fun _ => {}
  filter : Log.Filter := .upTo .debug

/-- The outcome of a command: its answer, the lines it wrote, and what is left
    of the session. -/
structure Turn where
  reply : Reply
  lines : List String
  session : Session

namespace Session

/-- The session with another inventory for one holder. -/
def put (s : Session) (h : Holder) (inv : Inventory) : Session :=
  { s with inventory := fun h' => if h' = h then inv else s.inventory h' }

/-- The lines that notices become under the filter in force. -/
def lines (s : Session) (ns : List Notice) : List String := s.filter.lines (ns.map Notice.record)

/-- Carry out a command on the inventory of a holder. -/
def turn (s : Session) (h : Holder) : Command → Turn
  | @Command.refresh _ _ store cfg fuel =>
    let r := (s.inventory h).refresh cfg fuel store
    ⟨.refreshed r.result r.exchanges, s.lines r.notices, s.put h r.inventory⟩
  | .nextFree =>
    let (result, notices) := (s.inventory h).nextFree
    ⟨.numbered result, s.lines notices, s⟩
  | .clear => ⟨.nothing, [], s.put h (s.inventory h).clear⟩
  | .look => ⟨.nothing, [], s⟩

@[simp] theorem put_inventory_self (s : Session) (h : Holder) (inv : Inventory) :
    (s.put h inv).inventory h = inv := if_pos rfl

theorem put_inventory_of_ne (s : Session) {h h' : Holder} (inv : Inventory) (hne : h' ≠ h) :
    (s.put h inv).inventory h' = s.inventory h' := if_neg hne

end Session

end BootOptions
