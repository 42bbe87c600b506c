import AudioCatalog.Catalog.Storage
import AudioCatalog.CommandLine.Options
import AudioCatalog.FileSystem.Expand
import AudioCatalog.Import.Replay
import AudioCatalog.Json.Sorted
import AudioCatalog.Metadata.Json
import AudioCatalog.Report.Batch

/-!
# Commands

A command works on the files and the catalog among them, and leaves a transcript: the
lines that it prints, those that it prints as errors, and its exit code.  Which decoder
it has is left open.  Files are shared out to the workers of a pool; with one worker,
which is what is done here, they are taken one after the other in the order in which
they are named or found.
-/

namespace AudioCatalog.CommandLine

/-- What a command prints and how it exits. -/
structure Transcript where
  output : List String
  errors : List String
  code : Nat
  deriving DecidableEq

namespace Transcript

/-- Lines as a text. -/
def textOf (lines : List String) : String :=
  String.join (lines.map (· ++ "\n"))

/-- The end of a command that cannot go on, after some lines. -/
def failed (output errors : List String) (error : Error) : Transcript :=
  ⟨output, errors ++ [s!"Error: {error.message}"], 2⟩

end Transcript

/-- How the commands import files with some decoder. -/
def importerOf (decoder : Decoder Catalog) (options : Options) : Importer :=
  ⟨decoder, Span.ofParts options.timeoutSeconds 0⟩

/-- Look-ups have connections of their own; how many makes no difference. -/
def readers : Nat := 1

/-- Works on the opened catalog and puts it back afterwards. -/
def withCatalog (options : Options) (files : FileSystem Catalog) (now : Timestamp)
    (body : World → World × Transcript) : FileSystem Catalog × Transcript :=
  match files.openCatalog options.catalog readers now with
  | (files, .error error) => (files, .failed [] [] error)
  | (files, .ok (storage, catalog)) =>
    let (world, transcript) := body ⟨catalog, files, fun _ => .pending, now⟩
    (world.files.closeCatalog storage world.catalog, transcript)

/-- Imports files one after the other. -/
def importAll (importer : Importer) (handling : Handling) :
    List Pathname → World → World × List Conclusion
  | [], world => (world, [])
  | path :: rest, world =>
    let (world, conclusion) := importer.run (.direct path handling none) world
    let (world, conclusions) := importAll importer handling rest world
    (world, conclusion :: conclusions)

/-- The line about a file that was imported or left alone. -/
def outcomeLine : Conclusion → Option String
  | .ok (.committed receipt) =>
    let manner := s!"({receipt.effect.label}, {receipt.verdict.label})"
    some s!"  {receipt.path.shown} -> {receipt.identity.label} {manner}"
  | .ok (.rejected path reason) => some s!"  {path.shown} skipped: {reason.message}"
  | .error _ => none

/-- The line about a file whose import failed. -/
def faultLine : Conclusion → Option String
  | .ok _ => none
  | .error fault => some s!"  {fault.message}"

/-- What is printed about an import of files into a catalog. -/
def importTranscript (catalog : Pathname) (conclusions : List Conclusion) : Transcript :=
  let errors := conclusions.filterMap faultLine
  let count := conclusions.length
  { output :=
      [s!"=== Importing into {catalog.shown} ===", s!"Found {count} files to import"]
        ++ conclusions.filterMap outcomeLine
        ++ ["", s!"=== Imported {count - errors.length} of {count} files ==="]
    errors := errors
    code := if errors = [] then 0 else 1 }

/-- Imports files and the audio files below directories. -/
def importFiles (decoder : Decoder Catalog) (options : Options) (paths : List Pathname)
    (handling : Handling) (world : World) : World × Transcript :=
  let (world, conclusions) :=
    importAll (importerOf decoder options) handling (world.files.expand paths) world
  (world, importTranscript options.catalog conclusions)

/-- Records tickets for files, up to the first that is refused. -/
def addTickets : List Pathname → World → World × List String × Option Error
  | [], world => (world, [], none)
  | path :: rest, world =>
    match world.catalog.addTicket world.files.currentPath path world.now with
    | .error error => (world, [], some error)
    | .ok (ticket, catalog) =>
      let (world, lines, error) := addTickets rest { world with catalog := catalog }
      (world, s!"  {path.shown} -> {ticket.id.label}" :: lines, error)

/-- Puts the import of files off. -/
def catalogFiles (paths : List Pathname) (world : World) : World × Transcript :=
  let files := world.files.expand paths
  match addTickets files world with
  | (world, lines, some error) => (world, .failed lines [] error)
  | (world, lines, none) =>
    let summary :=
      s!"Catalogued {files.length} files, {world.catalog.countPending} pending"
    (world, ⟨lines ++ [summary], [], 0⟩)

/-- What is printed about a replay before its report. -/
def replayTranscript (catalog : Pathname) (batch : Batch) : Transcript where
  output :=
    [s!"=== Replaying catalog {catalog.shown} ===",
      s!"Committed {batch.committed.length}, rejected {batch.rejected.length}, " ++
        s!"failed {batch.failedCount} of {batch.size} entries"]
  errors := batch.failed.map fun (ticket, fault) =>
    s!"  {ticket.id.label}: {fault.message}"
  code := if batch.failedCount = 0 then 0 else 1

/-- Imports the files of all pending tickets. -/
def replayTickets (decoder : Decoder Catalog) (options : Options) (handling : Handling)
    (report : Option Pathname) (world : World) : World × Transcript :=
  match (importerOf decoder options).replayPending handling world with
  | .error error =>
    (world, .failed [s!"=== Replaying catalog {options.catalog.shown} ==="] [] error)
  | .ok (world, batch) =>
    let printed := replayTranscript options.catalog batch
    match report with
    | none => (world, printed)
    | some path =>
      match world.files.saveReport path batch world.now with
      | .error error => (world, .failed printed.output printed.errors error)
      | .ok files =>
        ({ world with files := files },
          { printed with output := printed.output ++ [s!"Report saved to: {path.shown}"] })

/-- Tells whether the recording in a file is in the catalog. -/
def lookUp (decoder : Decoder Catalog) (options : Options) (path : Pathname)
    (careful : Bool) (world : World) : Transcript :=
  match (importerOf decoder options).find path careful world with
  | .error fault => ⟨[], [fault.message], 2⟩
  | .ok finding =>
    let wording := match finding.likeness? with
      | some .exact => "exact match"
      | some (.perceptual similarity) =>
        s!"perceptual match ({Binary64.toFixed 3 similarity})"
      | some (.ambiguous candidates) => s!"{candidates} ambiguous perceptual matches"
      | none => "not catalogued"
    ⟨[s!"{path.shown}: {wording}"], [], if finding.found then 0 else 1⟩

/-- The description of a decoded file. -/
def description (path : Pathname) (recording : Recording) : Json :=
  Json.sorted (.ofMembers
    [("path", .ofText path.shown),
      ("exact_digest", .ofText recording.stream.digest.hex),
      ("fingerprint_frames", match recording.fingerprint with
        | some words => .ofNat words.length
        | none => .null),
      ("metadata", recording.metadata.toJson)])

/-- Describes a file.  The catalog takes no part in it. -/
def describe (decoder : Decoder Catalog) (path : Pathname) (files : FileSystem Catalog) :
    Transcript :=
  match decoder path (files.read path) with
  | .answered recording => ⟨[(description path recording).pretty], [], 0⟩
  | .failed cause => .failed [] [] (.decode cause)
  | .stopped | .unending => ⟨[], [], 101⟩

/-- Runs the command of a command line at some time, with some decoder. -/
def execute (decoder : Decoder Catalog) (options : Options) (files : FileSystem Catalog)
    (now : Timestamp) : FileSystem Catalog × Transcript :=
  match options.command with
  | .importFiles paths handling =>
    withCatalog options files now (importFiles decoder options paths handling)
  | .catalogFiles paths => withCatalog options files now (catalogFiles paths)
  | .replay handling report =>
    withCatalog options files now (replayTickets decoder options handling report)
  | .lookUp path careful =>
    withCatalog options files now fun world =>
      (world, lookUp decoder options path careful world)
  | .describe path => (files, describe decoder path files)

end AudioCatalog.CommandLine
