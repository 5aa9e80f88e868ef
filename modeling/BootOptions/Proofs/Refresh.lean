/-
  Boot options — the outcomes of refreshing an inventory.

  A refresh follows its scan: one equation for each way a scan can end, and one
  for a store that cannot be walked.
-/
import BootOptions.Inventory

namespace BootOptions.Inventory

variable {σ : Type} [VariableStore σ] {inv : Inventory} {cfg : ScanConfig} {fuel : Nat} {store : σ}

theorem refresh_of_unavailable (h : VariableStore.isAvailable store = false) :
    inv.refresh cfg fuel store =
      { result := some (.error .unsupported), inventory := inv, notices := [.unsupported], store } :=
  if_neg (by simp [h])

section
variable (h : VariableStore.isAvailable store = true)
include h

theorem refresh_of_ok {os : List BootOption} (hr : (scan cfg fuel store).result = some (.ok os)) :
    inv.refresh cfg fuel store =
      ⟨some (.ok os.length), ⟨some os⟩, (scan cfg fuel store).exchanges,
        (scan cfg fuel store).notices, (scan cfg fuel store).store⟩ := by
  rw [refresh, if_pos h]
  simp only [hr]

theorem refresh_of_error {e : ScanError} (hr : (scan cfg fuel store).result = some (.error e)) :
    inv.refresh cfg fuel store =
      ⟨some (.error (.scanFailed e)), inv, (scan cfg fuel store).exchanges,
        (scan cfg fuel store).notices, (scan cfg fuel store).store⟩ := by
  rw [refresh, if_pos h]
  simp only [hr]

theorem refresh_of_none (hr : (scan cfg fuel store).result = none) :
    inv.refresh cfg fuel store =
      ⟨none, inv, (scan cfg fuel store).exchanges, (scan cfg fuel store).notices,
        (scan cfg fuel store).store⟩ := by
  rw [refresh, if_pos h]
  simp only [hr]

/-- Whatever its result, a scan is passed on as it is. -/
theorem refresh_scan : (inv.refresh cfg fuel store).exchanges = (scan cfg fuel store).exchanges ∧
    (inv.refresh cfg fuel store).notices = (scan cfg fuel store).notices ∧
    (inv.refresh cfg fuel store).store = (scan cfg fuel store).store := by
  rcases hr : (scan cfg fuel store).result with _ | ⟨e | os⟩
  · rw [refresh_of_none h hr]
    exact ⟨rfl, rfl, rfl⟩
  · rw [refresh_of_error h hr]
    exact ⟨rfl, rfl, rfl⟩
  · rw [refresh_of_ok h hr]
    exact ⟨rfl, rfl, rfl⟩

end

/-- The result of the scan decides what a refresh tells and what is known behind it. -/
theorem refresh_congr {τ : Type} [VariableStore τ] {store' : τ} (inv : Inventory)
    (h : VariableStore.isAvailable store = true) (h' : VariableStore.isAvailable store' = true)
    (hr : (scan cfg fuel store).result = (scan cfg fuel store').result) :
    (inv.refresh cfg fuel store).result = (inv.refresh cfg fuel store').result ∧
    (inv.refresh cfg fuel store).inventory = (inv.refresh cfg fuel store').inventory := by
  rcases hs : (scan cfg fuel store).result with _ | ⟨e | os⟩
  · rw [refresh_of_none h hs, refresh_of_none h' (hr.symm.trans hs)]
    exact ⟨rfl, rfl⟩
  · rw [refresh_of_error h hs, refresh_of_error h' (hr.symm.trans hs)]
    exact ⟨rfl, rfl⟩
  · rw [refresh_of_ok h hs, refresh_of_ok h' (hr.symm.trans hs)]
    exact ⟨rfl, rfl⟩

theorem refresh_store (inv : Inventory) (cfg : ScanConfig) (fuel : Nat) (store : σ) :
    (inv.refresh cfg fuel store).store = (scan cfg fuel store).store := by
  rcases h : VariableStore.isAvailable store with _ | _
  · rw [refresh_of_unavailable h, scan, if_neg (by simp [h])]
  · exact (refresh_scan h).2.2

/-- To refresh an inventory again, with the same outcome, changes nothing. -/
theorem refresh_again {τ : Type} [VariableStore τ] {store' : τ} (inv : Inventory)
    (ha : VariableStore.isAvailable store' = VariableStore.isAvailable store)
    (hr : (scan cfg fuel store').result = (scan cfg fuel store).result) :
    ((inv.refresh cfg fuel store).inventory.refresh cfg fuel store').result =
      (inv.refresh cfg fuel store).result ∧
    ((inv.refresh cfg fuel store).inventory.refresh cfg fuel store').inventory =
      (inv.refresh cfg fuel store).inventory := by
  rcases h : VariableStore.isAvailable store with _ | _
  · rw [refresh_of_unavailable h, refresh_of_unavailable (ha.trans h)]
    exact ⟨rfl, rfl⟩
  have h' := ha.trans h
  rcases hs : (scan cfg fuel store).result with _ | ⟨e | os⟩
  · rw [refresh_of_none h hs, refresh_of_none h' (hr.trans hs)]
    exact ⟨rfl, rfl⟩
  · rw [refresh_of_error h hs, refresh_of_error h' (hr.trans hs)]
    exact ⟨rfl, rfl⟩
  · rw [refresh_of_ok h hs, refresh_of_ok h' (hr.trans hs)]
    exact ⟨rfl, rfl⟩

end BootOptions.Inventory
