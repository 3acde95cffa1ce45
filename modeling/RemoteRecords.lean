import RemoteRecords.Main
import RemoteRecords.Proofs.Connection
import RemoteRecords.Proofs.Filter.FirstError
import RemoteRecords.Proofs.Filter.Lossless
import RemoteRecords.Proofs.Filter.Misreading
import RemoteRecords.Proofs.Filter.Wire
import RemoteRecords.Proofs.Import.Exported
import RemoteRecords.Proofs.Import.Plan
import RemoteRecords.Proofs.Import.Retry
import RemoteRecords.Proofs.Import.Shown
import RemoteRecords.Proofs.Import.Width
import RemoteRecords.Proofs.Run.Fetched
import RemoteRecords.Proofs.Run.Password
import RemoteRecords.Proofs.Run.Printed
import RemoteRecords.Proofs.Run.Retries
import RemoteRecords.Proofs.Run.Sent
import RemoteRecords.Proofs.Session.History
import RemoteRecords.Proofs.Session.Keyed
import RemoteRecords.Proofs.Session.Reported
import RemoteRecords.Proofs.Settings.Port
import RemoteRecords.Proofs.Table.Usable
import RemoteRecords.Proofs.Text.Numerals
