import DriveIntegrity.Library.Chars
import DriveIntegrity.Library.Bytes
import DriveIntegrity.Library.SharedCells
import DriveIntegrity.Library.HashTable
import DriveIntegrity.Library.Decimal
import DriveIntegrity.Library.Lexicographic
import DriveIntegrity.Library.Lines
import DriveIntegrity.Library.CodePage
import DriveIntegrity.Library.Xml
import DriveIntegrity.Library.Markers
import DriveIntegrity.Surface.Pattern
import DriveIntegrity.Surface.Scan
import DriveIntegrity.Surface.Grade
import DriveIntegrity.Surface.Soundness
import DriveIntegrity.Surface.Capacity
import DriveIntegrity.Surface.Failures
import DriveIntegrity.Integrity.Culture
import DriveIntegrity.Integrity.Inventory
import DriveIntegrity.Integrity.Compare
import DriveIntegrity.Integrity.Partition
import DriveIntegrity.Integrity.Recovery
import DriveIntegrity.Integrity.Par2
import DriveIntegrity.Integrity.ParityRuns
import DriveIntegrity.Integrity.Repair
import DriveIntegrity.Integrity.MasterIndex
import DriveIntegrity.Integrity.Unreadable
import DriveIntegrity.Library.Dom
import DriveIntegrity.Library.XmlRoundTrip
import DriveIntegrity.Library.XmlReread
import DriveIntegrity.Library.XmlMarkup
import DriveIntegrity.Integrity.Par2Create
import DriveIntegrity.Integrity.CreateRecovery
import DriveIntegrity.Integrity.Chunking
import DriveIntegrity.Integrity.ListBytes
import DriveIntegrity.Integrity.FileArgs
import DriveIntegrity.Status.Layout
import DriveIntegrity.Status.Values
import DriveIntegrity.Status.Document
import DriveIntegrity.Status.Extract
import DriveIntegrity.Status.Blocks
import DriveIntegrity.Status.Writers
import DriveIntegrity.Status.Record
import DriveIntegrity.Status.FileCheck
import DriveIntegrity.Status.Update
import DriveIntegrity.Status.Readable
import DriveIntegrity.Status.Batch
import DriveIntegrity.Status.Store
import DriveIntegrity.Status.Updated
import DriveIntegrity.Status.Report
import DriveIntegrity.Status.Figures
import DriveIntegrity.Status.Smart
import DriveIntegrity.Status.Outcome
import DriveIntegrity.Status.Escape
import DriveIntegrity.Status.Identity
import DriveIntegrity.Integrity.RecoveryCoverage
import DriveIntegrity.Integrity.BaselineUpdate
import DriveIntegrity.Surface.Sizing
import DriveIntegrity.Surface.Counter
import DriveIntegrity.Surface.Cleanup
import DriveIntegrity.Walk.Folder
import DriveIntegrity.Walk.ListFiles
import DriveIntegrity.Walk.CalculateSize
import DriveIntegrity.Library.Search
import DriveIntegrity.Library.Json
import DriveIntegrity.Probe.Record
import DriveIntegrity.Probe.GetJsonValue
import DriveIntegrity.Probe.SelectDrive
import DriveIntegrity.Probe.Report
import DriveIntegrity.Probe.ParseSmart
import DriveIntegrity.Probe.Attributes
import DriveIntegrity.Probe.FullProbe
import DriveIntegrity.Probe.Health
import DriveIntegrity.Probe.Blocks
import DriveIntegrity.Probe.Texts
import DriveIntegrity.Probe.Letters
import DriveIntegrity.Probe.JsonText
import DriveIntegrity.Probe.Identity
import DriveIntegrity.Library.BinaryField
import DriveIntegrity.Library.Sieve
import DriveIntegrity.Parity.Coefficients
import DriveIntegrity.Library.Elimination
import DriveIntegrity.Library.Ends
import DriveIntegrity.Library.Lanes
import DriveIntegrity.Library.Batches
import DriveIntegrity.Parity.Matrix
import DriveIntegrity.Parity.Inversion
import DriveIntegrity.Parity.Compute
import DriveIntegrity.Parity.Lookup
import DriveIntegrity.Parity.Controller
import DriveIntegrity.Parity.Scheduling
import DriveIntegrity.Parity.Workers
import DriveIntegrity.Parity.Runs
import DriveIntegrity.Parity.Liveness
import DriveIntegrity.Parity.Kernel
import DriveIntegrity.Parity.Threads
import DriveIntegrity.Parity.Restore
import DriveIntegrity.Parity.Crc
import DriveIntegrity.Parity.CrcSlices
import DriveIntegrity.Parity.FileCheckSummer
