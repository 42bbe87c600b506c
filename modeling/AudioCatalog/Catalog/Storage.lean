import AudioCatalog.Catalog.DatabaseFile
import AudioCatalog.Catalog.DatabaseName

/-!
# Opening catalogs

Opening a catalog takes it out of its file, and closing puts it back.  The file and
the directories above it are made if they are missing; a file with other contents is
not a catalog, but an empty one becomes one.  A catalog that is not kept in a file
begins empty and ends with the connection.

Besides the connection that writes there can be others that only read and serve the
look-ups.  To them a private catalog is not visible.
-/

namespace AudioCatalog

/-- Where an open catalog is kept. -/
inductive Storage where
  /-- In a file, where locks of other connections count or do not. -/
  | file (location : Location) (guarded : Bool)
  /-- In memory, where all connections that use the name find it. -/
  | memory (name : Pathname)
  /-- In memory, for one connection. -/
  | exclusive
  deriving DecidableEq

/-- The catalog while another connection holds its lock, or after that.  A catalog that is
not in a file is not found by other programs, so they cannot lock it. -/
def Storage.lock (storage : Storage) (catalog : Catalog) (locked : Bool) : Catalog :=
  match storage with
  | file _ true => { catalog with locked := locked }
  | file _ false | memory _ | exclusive => catalog

namespace FileSystem

/-- Makes the directories above a file. -/
def createParents (files : FileSystem Catalog) (path : Pathname) :
    Except FileError (FileSystem Catalog) :=
  match path.parent? with
  | some parent => files.createDirectoryAll parent
  | none => .ok files

/-- What the file of a catalog holds. -/
inductive Holding where
  /-- Nothing, or there is no file; so little that it does not count. -/
  | nothing
  | catalog (catalog : Catalog) (pages : Nat)
  /-- Something else. -/
  | other
  /-- It is a directory, which can be opened for reading, but not be read as a file. -/
  | entries

/-- The size from which on the contents of a file count. -/
def leastSize : Nat := 2

/-- What the file of a database holds, unless it cannot be opened. -/
def holding? (files : FileSystem Catalog) (location : Location) (mode : OpenMode) :
    Option Holding :=
  match files.node? location with
  | some (.file (.database catalog pages) _) => some (.catalog catalog pages)
  | some (.file (.data bytes size) _) =>
    some (if max bytes.length size < leastSize then .nothing else .other)
  | some (.directory _) => if mode = .readOnly then some .entries else none
  | some (.link _) | some .special => none
  | none =>
    if mode = .create ∧ (files.directory? location.tail).isSome then some .nothing else none

/-- Puts a database into its file. -/
def save (files : FileSystem Catalog) (location : Location) (catalog : Catalog) (pages : Nat)
    (now : Timestamp) : FileSystem Catalog :=
  files.put location
    (.file (.database { catalog with access := .full, locked := false } pages) now)

/-- Makes the file of a database unless it is there. -/
def createFile (files : FileSystem Catalog) (location : Location) (now : Timestamp) :
    FileSystem Catalog :=
  if (files.node? location).isSome then files
  else files.put location (.file (.data [] 0) now)

/-- Makes a database in a file that holds nothing.  What is left beside the file is taken
out of the way first.  With a log, the file first gets a single page, which says that there
is one, and version zero; the tables come into the log.  Without one they come into the
file, by way of a journal. -/
def createDatabase (files : FileSystem Catalog) (location : Location) (logged : Bool)
    (now : Timestamp) : FileSystem Catalog × Except StoreFault Catalog :=
  let files := (files.createFile location now).clear (journalOf location)
  if files.logStays location then (files, .error .brokenPart)
  else
    let files := files.clear (logOf location)
    if !files.takesJournal location then (files, .error .cannotOpenPart)
    else
      let files := files.erase (journalOf location)
      let catalog := { Catalog.empty with logged := logged }
      if logged then
        let files := files.save location { catalog with version := 0 } 1 now
        match files.openLog location with
        | .error fault => (files, .error fault)
        | .ok (files, .full) => (files.save location catalog 1 now, .ok catalog)
        | .ok (files, _) => (files, .error .readOnly)
      else (files.save location catalog Catalog.pages now, .ok catalog)

/-- Looks at the files beside a database that was there before, makes them as its log
needs them, and says what can be done with it. -/
def prepareLog (files : FileSystem Catalog) (location : Location) (name : DatabaseName)
    (logged : Bool) : Except StoreFault (FileSystem Catalog × Access) := do
  let files ← files.finishJournal location
  if name.guarded then
    if !logged ∧ name.mode = .readOnly then throw .readOnly
    if !logged ∧ !files.takesJournal location then throw .cannotOpenPart
    let (files, access) ← files.openLog location
    return (files, if name.mode = .readOnly then .readOnly else access)
  else if logged ∨ files.occupied (logOf location) then throw .cannotOpenPart
  else return (files, if name.mode = .readOnly then .readOnly else .full)

/-- Opens a database that was there before.  One that is taken not to change is read as it
is in its file. -/
def openExisting (files : FileSystem Catalog) (location : Location) (name : DatabaseName)
    (catalog : Catalog) (pages : Nat) (now : Timestamp) :
    FileSystem Catalog × Except Error Catalog :=
  if name.frozen then (files, { catalog with access := .readOnly }.prepare)
  else match files.prepareLog location name catalog.logged with
    | .error fault => (files, .error (.store fault))
    | .ok (files, access) =>
      match { catalog with access := access, logged := name.guarded }.prepare with
      | .error error => (files, .error error)
      | .ok catalog => (files.save location catalog pages now, .ok catalog)

/-- What is found out about a file that holds something else. -/
def otherFault (files : FileSystem Catalog) (location : Location) (name : DatabaseName) :
    StoreFault :=
  if name.frozen then .notADatabase
  else match files.finishJournal location with
    | .error fault => fault
    | .ok files =>
      if !files.occupied (logOf location) then .notADatabase
      else if !name.guarded then .cannotOpenPart
      else match files.openLog location with
        | .error fault => fault
        | .ok _ => .notADatabase

/-- What is found out about a file that holds nothing and cannot be written. -/
def nothingFault (files : FileSystem Catalog) (location : Location) (name : DatabaseName) :
    StoreFault :=
  if !name.frozen ∧ files.logStays location then .brokenPart else .readOnly

/-- Opens the catalog in a file.  The file that it is to be like has to be there. -/
def openFile (files : FileSystem Catalog) (path : Pathname) (name : DatabaseName)
    (location : Location) (now : Timestamp) : FileSystem Catalog × Except Error Catalog :=
  if name.model.any fun model => (files.find model true).toOption.isNone then
    (files, .error (.store .brokenPart))
  else match files.holding? location name.mode with
    | none => (files, .error (.store (.cannotOpen path.shown)))
    | some .entries => (files, .error (.store .brokenPart))
    | some .other => (files, .error (.store (files.otherFault location name)))
    | some .nothing =>
      if name.mode = .readOnly ∨ name.frozen then
        (files.createFile location now, .error (.store (files.nothingFault location name)))
      else
        let (files, created) := files.createDatabase location name.guarded now
        (files, created.mapError .store)
    | some (.catalog catalog pages) => files.openExisting location name catalog pages now

/-- Opens the catalog that has a name with the connection that writes. -/
def connect (files : FileSystem Catalog) (path : Pathname) (name : DatabaseName)
    (now : Timestamp) : FileSystem Catalog × Except Error (Storage × Catalog) :=
  if name.isPrivate then
    (files,
      if name.mode = .readOnly ∨ name.frozen then .error (.store .readOnly)
      else if name.shared ∧ name.file.bytes ≠ [] then .ok (.memory name.file, .empty)
      else .ok (.exclusive, .empty))
  else match files.databaseLocation? name.file with
    | none => (files, .error (.store (.cannotOpen path.shown)))
    | some location =>
      let (files, opened) := files.openFile path name location now
      (files, opened.map fun catalog => (.file location name.guarded, catalog))

/-- Opens a number of connections that only read a catalog. -/
def addReaders (path : Pathname) (readers : Nat) (storage : Storage) (catalog : Catalog) :
    Except Error Catalog :=
  if readers = 0 then .ok catalog
  else match DatabaseName.parse .readOnly path with
    | .error fault => .error (.store fault)
    | .ok _ =>
      .ok (if storage = .exclusive then { catalog with access := .blind } else catalog)

/-- Puts an open catalog back, unless its file is gone or was replaced.  With that all
changes are in the file. -/
def closeCatalog (files : FileSystem Catalog) (storage : Storage) (catalog : Catalog) :
    FileSystem Catalog :=
  match storage with
  | .memory _ | .exclusive => files
  | .file location _ =>
    match files.node? location with
    | some (.file (.database ..) modified) =>
      files.save location catalog Catalog.pages modified
    | _ => files

/-- Opens the catalog at a path name.  The files are given also when that fails, since
some may have been made. -/
def openCatalog (files : FileSystem Catalog) (path : Pathname) (readers : Nat)
    (now : Timestamp) : FileSystem Catalog × Except Error (Storage × Catalog) :=
  match files.createParents path with
  | .error cause => (files, .error (.io cause))
  | .ok files =>
    let front := path.bytes.takeWhile (· ≠ 0)
    if front.length < path.bytes.length then
      (files, .error (.store (.nulInPath front.length)))
    else match DatabaseName.parse .create path with
      | .error fault => (files, .error (.store fault))
      | .ok name =>
        match files.connect path name now with
        | (files, .error error) => (files, .error error)
        | (files, .ok (storage, catalog)) =>
          match addReaders path readers storage catalog with
          | .error error => (files.closeCatalog storage catalog, .error error)
          | .ok catalog => (files, .ok (storage, catalog))

/-- The catalog in the file that a path name leads to, without opening it. -/
def storedCatalog? (files : FileSystem Catalog) (path : Pathname) : Option Catalog :=
  match DatabaseName.parse .create path with
  | .error _ => none
  | .ok name =>
    match (files.databaseLocation? name.file).bind (files.holding? · name.mode) with
    | some (.catalog catalog _) => some catalog
    | _ => none

end FileSystem

end AudioCatalog
