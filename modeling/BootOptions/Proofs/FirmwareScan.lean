/-
  Boot options — scanning the store of the firmware.

  The firmware knows the caller's buffer by the stated size alone, and is not
  asked at all about an empty one.  A scan states the true size of a buffer that
  is never empty, so it sees the firmware as if there were nothing between them.

  * `windowed_request`, `embedded_request`: the window of a true size is the
    whole buffer.
  * `translates_ofFirmware`: the store over a firmware answers as that firmware.
  * `scan_transparent`: a scan over a firmware is the scan of that firmware, and
    without a table of runtime services nothing is scanned.
-/
import BootOptions.Proofs.Refresh
import BootOptions.Proofs.Translation
import BootOptions.Store.Firmware
import BootOptions.Store.Replay

namespace BootOptions.FirmwareStore

variable {φ : Type}

/-! ## True sizes -/

theorem toldSize_request (c : Cursor) : toldSize c.request = 2 * c.buffer.length := Nat.min_self _

theorem toldUnits_request (c : Cursor) : toldSize c.request / 2 = c.buffer.length := by
  rw [toldSize_request]
  omega

theorem windowed_request (c : Cursor) : windowed c.request = c.request := by
  have hb : c.buffer.take (toldSize c.request / 2) = c.buffer := by
    rw [toldUnits_request, List.take_length]
  have hs : toldSize c.request = c.request.size := toldSize_request c
  exact congrArg₂ (fun b n => (⟨⟨b, c.guid⟩, n⟩ : Request)) hb hs

theorem embedded_request (c : Cursor) (a : Answer) : embedded c.request a = a := by
  have hd : c.buffer.drop (toldSize c.request / 2) = [] := by
    rw [toldUnits_request, List.drop_length]
  rw [embedded, show c.request.buffer = c.buffer from rfl, hd, List.append_nil]

/-! ## Tables -/

/-- The store of a table of runtime services, with `firmware` behind it. -/
def ofFirmware (firmware : φ) : FirmwareStore φ := ⟨some ⟨ServiceTable.runtimeSignature, firmware⟩⟩

theorem services_ofFirmware (firmware : φ) :
    (ofFirmware firmware).services = some ⟨ServiceTable.runtimeSignature, firmware⟩ := by
  simp [services, ofFirmware]

theorem services_eq_none {f : FirmwareStore φ}
    (h : ∀ t ∈ f.table, t.signature ≠ ServiceTable.runtimeSignature) : f.services = none := by
  rw [services, Option.filter_eq_none_iff]
  intro t ht
  simpa using h t ht

section
variable [VariableStore φ]

theorem translates_ofFirmware : Translates (ofFirmware : φ → FirmwareStore φ) := by
  intro firmware c hc
  have hne : c.request.buffer.isEmpty = false := by
    rw [List.isEmpty_eq_false_iff]
    exact List.ne_nil_of_length_pos hc
  show answer (ofFirmware firmware) c.request = _
  simp only [answer, services_ofFirmware, hne, Bool.false_eq_true, if_false, windowed_request,
    embedded_request]
  rfl

theorem isAvailable_ofFirmware (firmware : φ) : VariableStore.isAvailable (ofFirmware firmware) = true := by
  show (ofFirmware firmware).services.isSome = true
  rw [services_ofFirmware]
  rfl

theorem isAvailable_eq_false {f : FirmwareStore φ}
    (h : ∀ t ∈ f.table, t.signature ≠ ServiceTable.runtimeSignature) :
    VariableStore.isAvailable f = false := by
  show f.services.isSome = false
  rw [services_eq_none h]
  rfl

/-! ## Scans -/

/-- **The firmware shows through.**  A scan over a firmware under observation is
    the scan of that firmware as a store, and what reached the firmware is what
    the scan asked.  Without a table of runtime services there is neither a scan
    nor a refreshed inventory, and the firmware is left as it was. -/
theorem scan_transparent (cfg : ScanConfig) (fuel : Nat) :
    (∀ s : Recorded φ, VariableStore.isAvailable s.store = true →
      scan cfg fuel (ofFirmware s) = (scan cfg fuel s.store).map fun store =>
        ofFirmware ⟨store, s.requests ++ (scan cfg fuel s.store).exchanges.map Exchange.request⟩) ∧
    ∀ f : FirmwareStore (Recorded φ), (∀ t ∈ f.table, t.signature ≠ ServiceTable.runtimeSignature) →
      scan cfg fuel f = ⟨some (.error (.storeUnavailable .unsupported)), [], [], f⟩ ∧
      ∀ inv : Inventory, inv.refresh cfg fuel f =
        ⟨some (.error .unsupported), inv, [], [.unsupported], f⟩ := by
  constructor
  · intro s ha
    have hscan : scan cfg fuel (ofFirmware s) = (scan cfg fuel s).map ofFirmware :=
      scan_map translates_ofFirmware ((isAvailable_ofFirmware s).trans ha.symm) fuel
    rw [hscan, Recorded.scan_eq]
    rfl
  · intro f hf
    have ha := isAvailable_eq_false hf
    exact ⟨scan_of_unavailable ha cfg fuel, fun inv => Inventory.refresh_of_unavailable ha⟩

end

/-- A firmware that scribbles into the buffer while it asks for an odd number of
    bytes, tells of one option with a wrong size, and then warns. -/
def scribbler : Replay where
  steps := [⟨.bufferTooSmall, some [0x58], some 25, none⟩,
    ⟨.success, some (Units.terminated "Boot00aF"), some 3, some .global⟩, ⟨⟨2⟩, none, none, none⟩]

theorem scan_transparent_scribbler :
    (scan ⟨4, 20, true⟩ 5 (ofFirmware (Recorded.mk scribbler []))).result =
      some (.error (.iterationFailed ⟨2⟩ 1)) ∧
    (scan ⟨4, 20, true⟩ 5 (ofFirmware (Recorded.mk scribbler []))).store.table.map
      (fun t => (t.firmware.store.steps, t.firmware.requests.map (·.size))) =
      some ([], [8, 26, 26]) ∧
    ((⟨some []⟩ : Inventory).refresh ⟨4, 20, true⟩ 5
      (⟨some ⟨0, scribbler, []⟩⟩ : FirmwareStore (Recorded Replay))).inventory = ⟨some []⟩ := by
  obtain ⟨h, hn⟩ := scan_transparent (φ := Replay) ⟨4, 20, true⟩ 5
  rw [h ⟨scribbler, []⟩ rfl, (hn ⟨some ⟨0, scribbler, []⟩⟩ (by decide)).2]
  exact ⟨by decide, by decide, rfl⟩

end BootOptions.FirmwareStore
