import AudioCatalog.Catalog.Stored
import AudioCatalog.CommandLine.Parser
import AudioCatalog.CommandLine.Program
import AudioCatalog.CommandLine.Usage
import AudioCatalog.FileSystem.Changes

/-!
# The program

Reads the files that a command line is about into a file system, runs the command on it,
prints the transcript, and does to the files what the command has done to the file
system.  All decisions are those of the library; here is only what touches the machine.
-/

namespace AudioCatalog.Machine

/-- What was read so far: the files, and the directories of which all entries were
read. -/
structure Gathered where
  files : FileSystem Catalog
  listed : List Location

/-- Reading files. -/
abbrev Gather := StateT Gathered IO

/-- A location as the system wants it. -/
def nameOf (location : Location) : String :=
  (FileSystem.pathTo location).shown

/-- The location that an absolute path name without links leads to. -/
def locationOf (absolute : String) : Location :=
  ((Pathname.ofText absolute).segments.filter (· ≠ [])).reverse

/-- A time of the system in milliseconds. -/
def millisOf (time : IO.FS.SystemTime) : Timestamp :=
  time.sec * 1000 + Int.ofNat (time.nsec.toNat / 1000000)

/-- Records a node. -/
def record (location : Location) (node : Node Catalog) : Gather Unit :=
  modify fun state => { state with files := state.files.put location node }

mutual

/-- Reads what has a name in a directory, and gives the directory that it leads to, if it
does.  What cannot be read is left out, and so are links that lead nowhere. -/
partial def load (directory : Location) (name : Name) : Gather (Option Location) := do
  let location := name :: directory
  try
    let parent ← IO.FS.realPath (nameOf directory)
    let entry := parent / Utf8.decodeLossy name
    let data ← entry.symlinkMetadata
    match data.type with
    | .dir =>
      if ((← get).files.node? location).isNone then record location (.directory [])
      return some location
    | .file =>
      let bytes ← IO.FS.readBinFile entry
      record location (.file (Body.ofBytes bytes.toList) (millisOf data.modified))
      return none
    | .symlink =>
      let target := (← IO.FS.realPath entry).toString
      record location (.link (.ofText target))
      follow [] (locationOf target).reverse
    | .other =>
      record location .special
      return none
  catch _ => return none

/-- Reads what a path name leads through, and gives the directory that it leads to, if it
does. -/
partial def follow (directory : Location) : List Name → Gather (Option Location)
  | [] => return some directory
  | segment :: rest =>
    if segment = [] || segment = [Pathname.dot] then follow directory rest
    else if segment = [Pathname.dot, Pathname.dot] then follow directory.tail rest
    else do
      match ← load directory segment with
      | some inner => follow inner rest
      | none => return none

end

/-- Reads the audio files below a directory. -/
partial def loadBelow (directory : Location) : Gather Unit := do
  unless (← get).listed.contains directory do
    modify fun state => { state with listed := directory :: state.listed }
    let entries ← try (← IO.FS.realPath (nameOf directory)).readDir catch _ => pure #[]
    for entry in entries do
      let name := Utf8.encode entry.fileName
      let kind ← try pure (← entry.path.symlinkMetadata).type catch _ => pure .other
      if kind != .file || (FileSystem.pathTo (name :: directory)).namesAudio then
        match ← load directory name with
        | some inner => loadBelow inner
        | none => pure ()

/-- Reads what a path name leads to, and what is below it if `whole` is set. -/
def loadPath (whole : Bool) (path : Pathname) : Gather Unit := do
  let current := (← get).files.current
  match ← follow (if path.isAbsolute then [] else current) path.segments with
  | some directory => if whole then loadBelow directory
  | none => pure ()

/-- Reads what the elements of the name of a database lead through. -/
partial def loadElements (location : Location) : List Name → Gather Unit
  | [] => pure ()
  | name :: rest =>
    if name = [] || name = [Pathname.dot] then loadElements location rest
    else if name = [Pathname.dot, Pathname.dot] then loadElements location.tail rest
    else do
      match ← load location name with
      | some inner => loadElements inner rest
      | none => loadElements (name :: location) rest

/-- Reads the file of a catalog and the files beside it. -/
def loadCatalog (path : Pathname) : Gather Unit := do
  match DatabaseName.parse .create path with
  | .error _ => pure ()
  | .ok name =>
    let current := (← get).files.current
    loadElements (if name.file.isAbsolute then [] else current) name.file.segments
    match (← get).files.databaseLocation? name.file with
    | none => pure ()
    | some location =>
      for part in [FileSystem.journalOf location, FileSystem.logOf location,
          FileSystem.logIndexOf location] do
        match part with
        | name :: directory => discard (load directory name)
        | [] => pure ()

/-- Reads all that a command is about, with the files of pending tickets. -/
def loadFor (options : CommandLine.Options) : Gather Unit := do
  let current := (← get).files.current
  discard (follow [] current.reverse)
  loadCatalog options.catalog
  options.catalog.parent?.forM (loadPath false)
  match options.command with
  | .importFiles paths _ | .catalogFiles paths => paths.forM (loadPath true)
  | .lookUp path _ | .describe path => loadPath false path
  | .replay _ report =>
    report.forM (loadPath false)
    match (← get).files.storedCatalog? options.catalog with
    | none => pure ()
    | some catalog =>
      match catalog.pending with
      | .error _ => pure ()
      | .ok tickets => tickets.forM fun ticket => loadPath false ticket.path

/-- The time of day, which is when a new file is written. -/
def timeOfDay : IO Timestamp := do
  let (_, file) ← IO.FS.createTempFile
  let time := (← file.metadata).modified
  IO.FS.removeFile file
  return millisOf time

/-- Does to the files of the machine what was done to those that were read. -/
def perform : FileSystem.Change Catalog → IO Unit
  | .createDirectory location => IO.FS.createDirAll (nameOf location)
  | .write location body =>
    IO.FS.writeBinFile (nameOf location) (ByteArray.mk body.stored.toArray)
  | .remove location => IO.FS.removeFile (nameOf location)

/-- Prints a transcript. -/
def report (transcript : CommandLine.Transcript) : IO UInt32 := do
  IO.print (CommandLine.Transcript.textOf transcript.output)
  IO.eprint (CommandLine.Transcript.textOf transcript.errors)
  return UInt32.ofNat transcript.code

/-- Runs the command of a command line. -/
def run (options : CommandLine.Options) : IO UInt32 := do
  let current := (← IO.FS.realPath (← IO.currentDir)).toString
  let (_, gathered) ← (loadFor options).run ⟨⟨[], locationOf current⟩, []⟩
  let now ← timeOfDay
  let (files, transcript) := CommandLine.run options gathered.files now
  (gathered.files.changes files).forM perform
  report transcript

end AudioCatalog.Machine

/-- Runs the program. -/
def main (arguments : List String) : IO UInt32 :=
  match AudioCatalog.CommandLine.parse (arguments.map AudioCatalog.Utf8.encode) with
  | .error error => AudioCatalog.Machine.report error.transcript
  | .ok options => AudioCatalog.Machine.run options
