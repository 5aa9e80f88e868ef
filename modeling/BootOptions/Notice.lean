/-
  Boot options — what the library tells its log.

  A notice is a fact worth a line in the log; `record` is the record it is
  logged as.
-/
import BootOptions.BootOption
import BootOptions.Log
import BootOptions.Status

namespace BootOptions

/-- A fact worth a line in the log. -/
inductive Notice where
  /-- a variable turned out to be a boot option -/
  | accepted (option : BootOption) (guid : Guid)
  /-- a scan came to the end of the variables -/
  | completed (found visited : Nat)
  /-- a scan ended at a name too long for it -/
  | nameTooLong (bytes : Nat)
  /-- a scan ended at an answer it cannot go on from -/
  | stepFailed (visited : Nat) (status : Status)
  /-- a store cannot be scanned at all -/
  | unsupported
  /-- a free number was looked up -/
  | nextFree (number inUse : Nat)
deriving DecidableEq

namespace Notice

/-- The level it is logged at: a failure is a warning, the end of a scan is information, and the
    rest is for debugging. -/
def level : Notice → Log.Level
  | accepted .. | nextFree .. => .debug
  | completed .. => .info
  | nameTooLong .. | stepFailed .. | unsupported => .warn

/-- The part of the program that speaks. -/
def target : Notice → String
  | unsupported | nextFree .. => "bootslot::state"
  | _ => "bootslot::boot_records"

/-- Its text. -/
def message : Notice → String
  | accepted o guid =>
    "Boot option " ++ Hex.literal 4 o.number.toNat ++ ": " ++ o.name ++ " (" ++ guid.text ++ ")"
  | completed found visited =>
    "Found " ++ toString found ++ " boot options in " ++ toString visited ++ " variables"
  | nameTooLong bytes => "Variable name needs " ++ toString bytes ++ " bytes, giving up"
  | stepFailed visited status =>
    "GetNextVariableName failed after " ++ toString visited ++ " variables: " ++ status.text
  | unsupported => "Variable store does not support enumeration"
  | nextFree number inUse =>
    "Next free boot option: " ++ Hex.literal 4 number ++ " (" ++ toString inUse ++ " in use)"

/-- The record it is logged as. -/
def record (n : Notice) : Log.Record := ⟨n.level, n.target, n.message⟩

end Notice

end BootOptions
