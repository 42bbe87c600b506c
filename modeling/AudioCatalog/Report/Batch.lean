import AudioCatalog.FileSystem.Basic
import AudioCatalog.Import.Batch
import AudioCatalog.Report.Csv

/-!
# Report of a batch

The report of a batch has a heading and one record per ticket, in the order of the
tickets.
-/

namespace AudioCatalog

/-- The heading of a report. -/
def reportHeading : List String :=
  ["Ticket", "Path", "Status", "Stage", "Identity", "Action", "Detail"]

/-- The text for a number of remarks. -/
def remarkText (count : Nat) : String :=
  if count = 0 then "" else s!"{count} warning(s)"

/-- The record of a ticket. -/
def BatchEntry.fields (entry : BatchEntry) : List String :=
  let about := [entry.ticket.id.label, entry.ticket.path.shown]
  match entry.conclusion with
  | .ok (.committed receipt) =>
    about ++ ["committed", Stage.committed.label, receipt.identity.label,
      s!"{receipt.effect.label} ({receipt.verdict.label})", remarkText receipt.remarks.length]
  | .ok (.rejected _ reason) =>
    about ++ ["rejected", Stage.started.label, "", "", reason.message]
  | .error fault =>
    about ++ ["failed", fault.stage.label, "", "", fault.error.message]

/-- The report of a batch as comma-separated values. -/
def Batch.csv (batch : Batch) : String :=
  Csv.table (reportHeading :: batch.entries.map BatchEntry.fields)

/-- Writes the report of a batch to a file. -/
def FileSystem.saveReport {κ : Type} (files : FileSystem κ) (path : Pathname)
    (batch : Batch) (now : Timestamp) : Except Error (FileSystem κ) :=
  (files.writeFile path (.data (Utf8.encode batch.csv) 0) now).mapError .csv

end AudioCatalog
