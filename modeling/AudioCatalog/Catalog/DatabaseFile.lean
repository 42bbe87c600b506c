import AudioCatalog.Catalog.Basic
import AudioCatalog.FileSystem.Basic

/-!
# Files of databases

How the name of a database leads to a file, and what the files beside it mean.  The
database resolves names itself: two dots take back the element in front of them whatever
it is, and links are followed one by one, up to two hundred and one of them.  A name
that was resolved has at most 504 bytes.

Beside a database there may be a journal, a log and an index of the log.  When a
database is opened they have to be plain files or missing; what they hold is out of date.
-/

namespace AudioCatalog.FileSystem

/-- The most links that the name of a database may lead through. -/
def databaseLinkLimit : Nat := 201

/-- The most bytes that the name of a database may have on the way. -/
def elementLimit : Nat := 511

/-- The most bytes that the name of a database may have in the end. -/
def databasePathLimit : Nat := 504

/-- The number of bytes of the path name of a location. -/
def lengthOf (location : Location) : Nat :=
  location.foldl (fun length name => length + 1 + name.length) 0

/-- What an element of the name of a database is. -/
inductive Element where
  | missing
  | plain
  | link (target : Pathname)
  /-- It cannot be looked at, since what is in front of it is not a directory or its name is
  too long. -/
  | hidden

/-- Looks at an element below a location. -/
def element (files : FileSystem Catalog) (location : Location) (name : Name) : Element :=
  if elementLimit < lengthOf (name :: location) then .hidden
  else match files.node? location with
    | none => .missing
    | some (.directory entries) =>
      if nameLimit < name.length then .hidden
      else match Directory.child? entries name with
        | none => .missing
        | some (.link target) => .link target
        | some _ => .plain
    | some _ => .hidden

/-- The location that elements lead to from a location. -/
def resolve (files : FileSystem Catalog) (links : Nat) (location : Location)
    (elements : List Name) : Option Location :=
  match elements with
  | [] => some location
  | name :: rest =>
    if name = [] || name = [Pathname.dot] then resolve files links location rest
    else if name = [Pathname.dot, Pathname.dot] then resolve files links location.tail rest
    else match files.element location name with
      | .hidden => none
      | .missing | .plain => resolve files links (name :: location) rest
      | .link target =>
        match links with
        | 0 => none
        | links + 1 =>
          resolve files links (if target.isAbsolute then [] else location)
            (target.segments ++ rest)
termination_by (links, elements.length)

/-- The location of the file that the name of a database leads to. -/
def databaseLocation? (files : FileSystem Catalog) (name : Pathname) : Option Location := do
  let start ←
    if name.isAbsolute then some []
    else if (files.directory? files.current).isSome then some files.current
    else none
  let location ← files.resolve databaseLinkLimit start name.segments
  if location = [] ∨ databasePathLimit < lengthOf location then none else some location

/-- The location of a file beside another one. -/
def beside (location : Location) (ending : String) : Location :=
  match location with
  | [] => []
  | name :: directory => (name ++ Utf8.encode ending) :: directory

/-- Where the journal of a database is. -/
def journalOf (location : Location) : Location :=
  beside location "-journal"

/-- Where the log of a database is. -/
def logOf (location : Location) : Location :=
  beside location "-wal"

/-- Where the index of the log of a database is. -/
def logIndexOf (location : Location) : Location :=
  beside location "-shm"

/-- What is in the way of opening a plain file. -/
inductive Obstacle where
  | directory
  | link
  deriving DecidableEq

/-- What is in the way of opening a plain file at a location. -/
def obstacle? (files : FileSystem Catalog) (location : Location) : Option Obstacle :=
  match files.node? location with
  | some (.directory _) => some .directory
  | some (.link _) => some .link
  | some (.file ..) | some .special | none => none

/-- Whether something that is not an empty file is at a location, or where a link there
leads to. -/
def occupied (files : FileSystem Catalog) (location : Location) : Bool :=
  match files.find (pathTo location) true with
  | .ok (_, .file body _) => 0 < body.size
  | .ok _ => true
  | .error _ => false

/-- Removes what is at a location unless it is a directory or does not count. -/
def clear (files : FileSystem Catalog) (location : Location) : FileSystem Catalog :=
  if files.occupied location && files.obstacle? location ≠ some .directory then
    files.erase location
  else files

/-- Looks at the journal beside a database that was there before.  One that begins with a
zero byte was finished; any other is played back, which removes it. -/
def finishJournal (files : FileSystem Catalog) (location : Location) :
    Except StoreFault (FileSystem Catalog) :=
  if !files.occupied (journalOf location) then .ok files
  else match files.node? (journalOf location) with
    | some (.directory _) => .error .brokenPart
    | some (.file body _) =>
      .ok (if body.take 1 = [0] then files else files.erase (journalOf location))
    | _ => .error .cannotOpenPart

/-- Whether the log beside a new database cannot be taken out of the way. -/
def logStays (files : FileSystem Catalog) (location : Location) : Bool :=
  files.occupied (logOf location) && files.obstacle? (logOf location) = some .directory

/-- Whether a journal can be made beside a new database. -/
def takesJournal (files : FileSystem Catalog) (location : Location) : Bool :=
  ((journalOf location).headD []).length ≤ nameLimit
    && (files.obstacle? (journalOf location)).isNone

/-- Opens the log and its index, and says what that allows: with a directory in the place
of the index there can be no writing. -/
def openLog (files : FileSystem Catalog) (location : Location) :
    Except StoreFault (FileSystem Catalog × Access) :=
  if (files.obstacle? (logOf location)).isSome then .error .cannotOpenPart
  else match files.obstacle? (logIndexOf location) with
    | some .directory => .ok (files, .readOnly)
    | some .link => .error .cannotOpenPart
    | none => .ok ((files.erase (logOf location)).erase (logIndexOf location), .full)

end AudioCatalog.FileSystem
