import BootOptions.Hex
import BootOptions.Utf16
import BootOptions.Units
import BootOptions.Guid
import BootOptions.Status
import BootOptions.Log
import BootOptions.Store
import BootOptions.Store.Memory
import BootOptions.Store.Replay
import BootOptions.Store.Firmware
import BootOptions.Store.Recorded
import BootOptions.Client
import BootOptions.BootOption
import BootOptions.Numbering
import BootOptions.Notice
import BootOptions.Scan
import BootOptions.Inventory
import BootOptions.Session
import BootOptions.Logger
import BootOptions.Proofs.Digits
import BootOptions.Proofs.Names
import BootOptions.Proofs.Walk
import BootOptions.Proofs.Outcome
import BootOptions.Proofs.MemoryStore
import BootOptions.Proofs.MemoryScan
import BootOptions.Proofs.LeastUnused
import BootOptions.Proofs.FreeNumbers
import BootOptions.Proofs.Allocation
import BootOptions.Proofs.History
import BootOptions.Proofs.Genuine
import BootOptions.Proofs.CursorProtocol
import BootOptions.Proofs.Translation
import BootOptions.Proofs.FirmwareScan
import BootOptions.Proofs.CallBound
import BootOptions.Proofs.ClientTour
import BootOptions.Proofs.NameRoundTrip
import BootOptions.Proofs.Logging
import BootOptions.Proofs.Grammar
import BootOptions.Proofs.Faults
import BootOptions.Proofs.Endless
import BootOptions.Proofs.StaleUnits
import BootOptions.Proofs.FirmwareCalls
import BootOptions.Proofs.ScanLog
import BootOptions.Proofs.Rescan
import BootOptions.Proofs.Observers
import BootOptions.Proofs.TextUnits
import BootOptions.Proofs.FaultCount
import BootOptions.Proofs.GuidText
