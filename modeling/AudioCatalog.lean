import AudioCatalog.Acoustic.Fingerprint
import AudioCatalog.Acoustic.Key
import AudioCatalog.Acoustic.Similarity
import AudioCatalog.Catalog.Basic
import AudioCatalog.Catalog.Cell
import AudioCatalog.Catalog.DatabaseFile
import AudioCatalog.Catalog.DatabaseName
import AudioCatalog.Catalog.Edit
import AudioCatalog.Catalog.Entry
import AudioCatalog.Catalog.Fault
import AudioCatalog.Catalog.Ids
import AudioCatalog.Catalog.Numeral
import AudioCatalog.Catalog.Rows
import AudioCatalog.Catalog.Storage
import AudioCatalog.Catalog.Stored
import AudioCatalog.Catalog.Table
import AudioCatalog.Catalog.Tickets
import AudioCatalog.Catalog.Transaction
import AudioCatalog.CommandLine.Commands
import AudioCatalog.CommandLine.Options
import AudioCatalog.CommandLine.Parser
import AudioCatalog.CommandLine.Program
import AudioCatalog.CommandLine.Scanner
import AudioCatalog.CommandLine.Usage
import AudioCatalog.Digest.Basic
import AudioCatalog.Digest.Sha256
import AudioCatalog.Error
import AudioCatalog.FileSystem.Basic
import AudioCatalog.FileSystem.Changes
import AudioCatalog.FileSystem.Error
import AudioCatalog.FileSystem.Expand
import AudioCatalog.FileSystem.Tree
import AudioCatalog.Import.Batch
import AudioCatalog.Import.Conclusion
import AudioCatalog.Import.Decoder
import AudioCatalog.Import.Job
import AudioCatalog.Import.Phase
import AudioCatalog.Import.Replay
import AudioCatalog.Import.Run
import AudioCatalog.Import.Stripes
import AudioCatalog.Import.Token
import AudioCatalog.Import.World
import AudioCatalog.Json.Basic
import AudioCatalog.Json.Literal
import AudioCatalog.Json.Reader
import AudioCatalog.Json.Sorted
import AudioCatalog.Json.Writer
import AudioCatalog.Main
import AudioCatalog.Metadata.Basic
import AudioCatalog.Metadata.Json
import AudioCatalog.Metadata.TagMap
import AudioCatalog.Number.Binary64
import AudioCatalog.Number.DoubleWord
import AudioCatalog.Number.FloatPattern
import AudioCatalog.Number.LittleEndian
import AudioCatalog.Number.Rounding
import AudioCatalog.Pathname
import AudioCatalog.Pcm.Basic
import AudioCatalog.Proofs.Acoustic.Buckets
import AudioCatalog.Proofs.Acoustic.Feeding
import AudioCatalog.Proofs.Acoustic.Laws
import AudioCatalog.Proofs.Acoustic.Padding
import AudioCatalog.Proofs.Catalog.Acceptance
import AudioCatalog.Proofs.Catalog.Soundness
import AudioCatalog.Proofs.CommandLine.Account
import AudioCatalog.Proofs.FileSystem.Expansion
import AudioCatalog.Proofs.FileSystem.Frame
import AudioCatalog.Proofs.Import.Atomicity
import AudioCatalog.Proofs.Import.Cancellation
import AudioCatalog.Proofs.Import.Contest
import AudioCatalog.Proofs.Import.Deposits
import AudioCatalog.Proofs.Import.Orders
import AudioCatalog.Proofs.Import.Pool
import AudioCatalog.Proofs.Pcm.Canonical
import AudioCatalog.Proofs.Pcm.Formats
import AudioCatalog.Proofs.Pcm.Message
import AudioCatalog.Proofs.Report.Columns
import AudioCatalog.Proofs.Report.Wording
import AudioCatalog.Proofs.Resolution.Verdicts
import AudioCatalog.Proofs.Session.Batches
import AudioCatalog.Proofs.Session.BucketScan
import AudioCatalog.Proofs.Session.Consumption
import AudioCatalog.Proofs.Session.Crossing
import AudioCatalog.Proofs.Session.Deferral
import AudioCatalog.Proofs.Session.Draining
import AudioCatalog.Proofs.Session.Effect
import AudioCatalog.Proofs.Session.Foretelling
import AudioCatalog.Proofs.Session.Paging
import AudioCatalog.Proofs.Session.Permanence
import AudioCatalog.Proofs.Session.Pools
import AudioCatalog.Proofs.Session.Provenance
import AudioCatalog.Proofs.Session.Queues
import AudioCatalog.Proofs.Session.Records
import AudioCatalog.Proofs.Session.Reimport
import AudioCatalog.Proofs.Session.Repetition
import AudioCatalog.Proofs.Session.Settlements
import AudioCatalog.Proofs.Session.Sources
import AudioCatalog.Proofs.Session.Ticketing
import AudioCatalog.Proofs.Wave.PlainFiles
import AudioCatalog.Report.Batch
import AudioCatalog.Report.Csv
import AudioCatalog.Resolution
import AudioCatalog.Text.Blank
import AudioCatalog.Text.Cased
import AudioCatalog.Text.Hex
import AudioCatalog.Text.Lowercase
import AudioCatalog.Text.Printable
import AudioCatalog.Text.Quoted
import AudioCatalog.Text.Ranges
import AudioCatalog.Text.Utf8
import AudioCatalog.Time.Span
import AudioCatalog.Time.Timestamp
import AudioCatalog.Wave.Bytes
import AudioCatalog.Wave.Chunk
import AudioCatalog.Wave.Companded
import AudioCatalog.Wave.Decoder
import AudioCatalog.Wave.Fault
import AudioCatalog.Wave.File
import AudioCatalog.Wave.Format
import AudioCatalog.Wave.Marker
import AudioCatalog.Wave.Sample
import AudioCatalog.Wave.Standard
import AudioCatalog.Wave.TagBlock
