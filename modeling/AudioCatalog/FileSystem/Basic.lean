import AudioCatalog.FileSystem.Error
import AudioCatalog.FileSystem.Tree

/-!
# File systems

A file system is a root directory and the directory that relative path names start from.
`locate` follows a path name through directories and symbolic links with the limits of
the operating system: 255 bytes for a name, 4095 for a path name, and forty links.

The directory that relative path names start from can be removed.  It is empty then, has
no location any more, and nothing can be made in it.
-/

namespace AudioCatalog

/-- A root directory, and where relative path names start from. -/
structure FileSystem (κ : Type) where
  root : Directory κ
  current : Location

/-- Where a path name leads.  The flag tells whether slashes followed the last name that
was looked up. -/
inductive Place (κ : Type) where
  | present (location : Location) (node : Node κ) (trailing : Bool)
  /-- The directory is there, but it has no such name. -/
  | absent (directory : Location) (name : Name) (trailing : Bool)

namespace FileSystem

variable {κ : Type}

/-- The most bytes of a name. -/
def nameLimit : Nat := 255

/-- The most bytes of a path name. -/
def pathLimit : Nat := 4095

/-- The most links that one path name may lead through. -/
def linkLimit : Nat := 40

/-- The node at a location. -/
def node? (fs : FileSystem κ) (location : Location) : Option (Node κ) :=
  fs.root.node? location

/-- The directory at a location.  There is none if it was removed. -/
def directory? (fs : FileSystem κ) (location : Location) : Option (Directory κ) :=
  (fs.node? location).bind Node.entries?

/-- All nodes below the root, directories before what they hold. -/
def nodes (fs : FileSystem κ) : List (Location × Node κ) :=
  (Node.directory fs.root).descendants []

/-- The path name of a location, from the root. -/
def pathTo (location : Location) : Pathname :=
  location.foldr (fun name path => path.child name) ⟨[Pathname.slash]⟩

/-- The path name of the directory that relative path names start from. -/
def currentPath (fs : FileSystem κ) : Except FileError Pathname :=
  match fs.directory? fs.current with
  | some _ => .ok (pathTo fs.current)
  | none => .error .notFound

/-- Follows segments from a directory, of which the entries are given unless it was
removed.  The last segment is followed through a link only if `follow` is set or a slash
comes after it. -/
def walk (fs : FileSystem κ) (follow : Bool) (links : Nat) (location : Location)
    (here : Option (Directory κ)) (segments : List Name) : Except FileError (Place κ) :=
  match segments with
  | [] => .ok (.present location (.directory (here.getD [])) false)
  | segment :: rest =>
    if segment = [] || segment = [Pathname.dot] then
      walk fs follow links location here rest
    else if segment = [Pathname.dot, Pathname.dot] then
      walk fs follow links location.tail (fs.directory? location.tail) rest
    else
      let last := rest.all (· = [])
      match here with
      | none => .error .notFound
      | some entries =>
        if segment.length > nameLimit then .error .nameTooLong
        else match entries.child? segment with
        | none =>
          if last then .ok (.absent location segment (!rest.isEmpty)) else .error .notFound
        | some (.directory inner) =>
          walk fs follow links (segment :: location) (some inner) rest
        | some (.link target) =>
          if rest = [] && !follow then
            .ok (.present (segment :: location) (.link target) false)
          else match links with
            | 0 => .error .tooManyLinks
            | links + 1 =>
              if target.isAbsolute then
                walk fs follow links [] (some fs.root) (target.segments ++ rest)
              else walk fs follow links location here (target.segments ++ rest)
        | some node =>
          if last then .ok (.present (segment :: location) node (!rest.isEmpty))
          else .error .notADirectory
termination_by (links, segments.length)

/-- Where a path name leads. -/
def locate (fs : FileSystem κ) (path : Pathname) (follow : Bool) :
    Except FileError (Place κ) :=
  if path.bytes.contains 0 then .error .nulInName
  else if path.bytes = [] then .error .notFound
  else if path.bytes.length > pathLimit then .error .nameTooLong
  else if path.isAbsolute then fs.walk follow linkLimit [] (some fs.root) path.segments
  else fs.walk follow linkLimit fs.current (fs.directory? fs.current) path.segments

/-- What a path name leads to, if something is there.  Only a directory may have slashes
behind its name. -/
def find (fs : FileSystem κ) (path : Pathname) (follow : Bool) :
    Except FileError (Location × Node κ) :=
  match fs.locate path follow with
  | .error e => .error e
  | .ok (.absent ..) => .error .notFound
  | .ok (.present location node trailing) =>
    if trailing && !node.isDirectory then .error .notADirectory else .ok (location, node)

/-- What a path name leads to through all links. -/
def open? (fs : FileSystem κ) (path : Pathname) : Except FileError (Node κ) :=
  (fs.find path true).map (·.2)

/-- Whether a path name leads to a directory. -/
def isDirectory (fs : FileSystem κ) (path : Pathname) : Bool :=
  match fs.open? path with
  | .ok node => node.isDirectory
  | .error _ => false

/-- The bytes of a regular file; a directory can be opened but not read. -/
def read (fs : FileSystem κ) (path : Pathname) : Except FileError (Body κ) :=
  match fs.open? path with
  | .error e => .error e
  | .ok (.file body _) => .ok body
  | .ok (.directory _) => .error .isADirectory
  | .ok (.link _) | .ok .special => .ok (.data [] 0)

/-- Puts a node at a location, over the one that is there. -/
def put (fs : FileSystem κ) (location : Location) (node : Node κ) : FileSystem κ :=
  { fs with root := fs.root.alter location fun _ => some node }

/-- The location of a directory that was removed: no name is empty, so nothing is ever
found there. -/
def removed (location : Location) : Location :=
  [] :: location.tail

/-- Removes the node at a location and all below it. -/
def erase (fs : FileSystem κ) (location : Location) : FileSystem κ where
  root := fs.root.alter location fun _ => none
  current := if location.isSuffixOf fs.current then removed fs.current else fs.current

/-- Removes the name that a path ends in.  A link is removed, not followed, and a
directory is not removed.  Slashes at the end are for directories only. -/
def unlink (fs : FileSystem κ) (path : Pathname) : Except FileError (FileSystem κ) :=
  if path.bytes.length > pathLimit then .error .nameTooLong
  else match fs.find path.trimmed false with
    | .error e => .error e
    | .ok (_, .directory _) => .error .isADirectory
    | .ok (location, _) =>
      if path.trimmed = path then .ok (fs.erase location) else .error .notADirectory

/-- Removes an imported file.  One that is already gone counts as removed. -/
def removeImported (fs : FileSystem κ) (path : Pathname) :
    Except FileError (FileSystem κ) :=
  match fs.unlink path with
  | .error .notFound => .ok fs
  | result => result

/-- Creates a regular file or replaces the contents of one, through all links. -/
def writeFile (fs : FileSystem κ) (path : Pathname) (body : Body κ) (modified : Int) :
    Except FileError (FileSystem κ) :=
  match fs.locate path true with
  | .error e => .error e
  | .ok (.absent _ _ true) | .ok (.present _ _ true) => .error .isADirectory
  | .ok (.present _ (.directory _) false) => .error .isADirectory
  | .ok (.absent directory name false) =>
    .ok (fs.put (name :: directory) (.file body modified))
  | .ok (.present location _ false) => .ok (fs.put location (.file body modified))

/-- Creates one directory, if nothing has its name. -/
def createDirectory (fs : FileSystem κ) (path : Pathname) : Except FileError (FileSystem κ) :=
  if path.bytes.length > pathLimit then .error .nameTooLong
  else match fs.locate path.trimmed false with
    | .error e => .error e
    | .ok (.present ..) => .error .alreadyExists
    | .ok (.absent directory name _) => .ok (fs.put (name :: directory) (.directory []))

/-- Creates a directory and those above it that are missing.  `depth` bounds how many
levels are looked at. -/
def createDirectories (fs : FileSystem κ) (depth : Nat) (path : Pathname) :
    Except FileError (FileSystem κ) :=
  if path.bytes = [] then .ok fs
  else match fs.createDirectory path with
    | .ok fs => .ok fs
    | .error .notFound =>
      match depth, path.parent? with
      | depth + 1, some parent =>
        match fs.createDirectories depth parent with
        | .error e => .error e
        | .ok fs =>
          match fs.createDirectory path with
          | .ok fs => .ok fs
          | .error e => if fs.isDirectory path then .ok fs else .error e
      | _, _ => .error .notFound
    | .error e => if fs.isDirectory path then .ok fs else .error e

/-- Creates a directory with all those above it. -/
def createDirectoryAll (fs : FileSystem κ) (path : Pathname) :
    Except FileError (FileSystem κ) :=
  fs.createDirectories path.bytes.length path

end FileSystem

end AudioCatalog
