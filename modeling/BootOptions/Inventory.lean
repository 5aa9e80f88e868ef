/-
  Boot options — the boot options known from the last good scan.

  An inventory is empty until a scan has succeeded.  A failing scan leaves it
  as it was, whatever that scan had already found.

  * `refresh` scans a store into the inventory, `clear` forgets it, and
    `isInitialized` tells whether a scan has succeeded since;
  * `nextFree` is the least number none of the known options has.  It is not
    reserved: asking again gives it again.
-/
import BootOptions.Numbering
import BootOptions.Scan

namespace BootOptions

/-- What is known of the boot options; `none` if no scan has succeeded. -/
structure Inventory where
  options : Option (List BootOption) := none
deriving DecidableEq

/-- Why a refresh brought nothing new. -/
inductive RefreshError where
  | unsupported
  | scanFailed (cause : ScanError)
deriving DecidableEq

/-- The text of an error; that of the scan stands at its end. -/
def RefreshError.message : RefreshError → String
  | unsupported => "variable store enumeration not supported"
  | scanFailed cause => "boot option enumeration failed: " ++ cause.message

/-- Why there is no free number to give out. -/
inductive NextFreeError where
  | notScanned
deriving DecidableEq

/-- The text of an error. -/
def NextFreeError.message : NextFreeError → String
  | notScanned => "boot options have not been enumerated"

/-- A refreshed inventory: the number of options now known or an error (`none`
    if the scan used up its calls), with the exchanges, the notices and the
    store of its scan. -/
structure Refresh (σ : Type) where
  result : Option (Except RefreshError Nat)
  inventory : Inventory
  exchanges : List Exchange := []
  notices : List Notice := []
  store : σ

namespace Inventory

/-- Whether a scan has succeeded since the inventory was last cleared. -/
def isInitialized (inv : Inventory) : Bool := inv.options.isSome

/-- Scan a store into the inventory, with at most `fuel` questions. -/
def refresh {σ : Type} [VariableStore σ] (inv : Inventory) (cfg : ScanConfig) (fuel : Nat)
    (store : σ) : Refresh σ :=
  if VariableStore.isAvailable store then
    let s := scan cfg fuel store
    match s.result with
    | none => ⟨none, inv, s.exchanges, s.notices, s.store⟩
    | some (.error e) => ⟨some (.error (.scanFailed e)), inv, s.exchanges, s.notices, s.store⟩
    | some (.ok options) => ⟨some (.ok options.length), ⟨some options⟩, s.exchanges, s.notices, s.store⟩
  else
    { result := some (.error .unsupported), inventory := inv, notices := [.unsupported], store }

/-- The least number that no known option has, and what is told of it. -/
def nextFree (inv : Inventory) : Except NextFreeError Nat × List Notice :=
  match inv.options with
  | none => (.error .notScanned, [])
  | some options => (.ok (leastUnused options), [.nextFree (leastUnused options) options.length])

/-- Forget all options, and that there was a scan. -/
def clear (_ : Inventory) : Inventory := {}

theorem isInitialized_iff {inv : Inventory} :
    inv.isInitialized = true ↔ ∃ options, inv.options = some options :=
  Option.isSome_iff_exists

end Inventory

end BootOptions
