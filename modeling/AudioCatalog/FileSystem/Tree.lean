import AudioCatalog.Pathname

/-!
# Directory trees

A directory holds nodes under names, and some of the nodes are directories again.  A
location is the list of the names that lead to a node, the innermost first, so that the
tail of a location is where its directory is.  `Directory.node?` looks a location up
and `Directory.alter` changes what is there.

The type `κ` is what a database file holds.  A file with other contents is a byte
string, of which a long tail of zeros is only counted.
-/

namespace AudioCatalog

/-- One name in a directory. -/
abbrev Name := List UInt8

/-- The names that lead from the root to a node, the innermost first. -/
abbrev Location := List Name

/-- The contents of a file. -/
inductive Body (κ : Type) where
  /-- Bytes, filled up with zeros to a size that is not smaller. -/
  | data (bytes : List UInt8) (size : Nat)
  /-- A database, of which a number of pages are in the file. -/
  | database (content : κ) (pages : Nat)

/-- What has a name in a directory. -/
inductive Node (κ : Type) where
  | directory (entries : List (Name × Node κ))
  /-- A regular file, with its modification time in milliseconds since the epoch. -/
  | file (body : Body κ) (modified : Int)
  | link (target : Pathname)
  /-- Something else, such as a device. -/
  | special

/-- The names in a directory with their nodes, in the order in which they were made. -/
abbrev Directory (κ : Type) := List (Name × Node κ)

namespace Body

/-- The number of bytes of a page of a database. -/
def pageSize : Nat := 4096

/-- The length of a file. -/
def size {κ : Type} : Body κ → Nat
  | data bytes size => max bytes.length size
  | database _ pages => pages * pageSize

/-- The first `count` bytes of a file, or fewer if it is shorter. -/
def take {κ : Type} (count : Nat) : Body κ → List UInt8
  | data bytes size =>
    let front := bytes.take count
    front ++ List.replicate (min count size - front.length) 0
  | database .. => []

/-- All bytes of a file. -/
def toList {κ : Type} (body : Body κ) : List UInt8 :=
  body.take body.size

end Body

namespace Node

variable {κ : Type}

/-- The entries of a directory. -/
def entries? : Node κ → Option (Directory κ)
  | directory entries => some entries
  | _ => none

/-- Whether a node is a directory. -/
def isDirectory (node : Node κ) : Bool :=
  node.entries?.isSome

end Node

namespace Directory

variable {κ : Type}

/-- The node with a name. -/
def child? (directory : Directory κ) (name : Name) : Option (Node κ) :=
  (directory.find? fun entry => entry.1 = name).map (·.2)

/-- Changes what has a name: a node that was not there comes last, and one that is there
keeps its position or goes. -/
def alterChild (name : Name) (change : Option (Node κ) → Option (Node κ)) :
    Directory κ → Directory κ
  | [] => ((change none).map fun node => (name, node)).toList
  | (other, node) :: rest =>
    if other = name then ((change (some node)).map fun node => (name, node)).toList ++ rest
    else (other, node) :: alterChild name change rest

/-- What was put under a name is found there. -/
theorem child?_alterChild_put (directory : Directory κ) (name : Name) (node : Node κ) :
    child? (alterChild name (fun _ => some node) directory) name = some node := by
  fun_induction alterChild name (fun _ => some node) directory with
  | case1 => simp [child?]
  | case2 => simp [child?]
  | case3 other present rest other_ne ih =>
    simp only [child?, List.find?_cons, other_ne, decide_false]
    exact ih

/-- Changing what has a name changes no other name. -/
theorem child?_alterChild_of_ne (directory : Directory κ) (name other : Name)
    (change : Option (Node κ) → Option (Node κ)) (ne : name ≠ other) :
    child? (alterChild name change directory) other = child? directory other := by
  fun_induction alterChild name change directory with
  | case1 => cases change none <;> simp [child?, ne]
  | case2 node rest => cases change (some node) <;> simp [child?, ne]
  | case3 present node rest present_ne ih =>
    simp only [child?, List.find?_cons]
    by_cases same : present = other
    · simp [same]
    · simp only [same, decide_false]
      exact ih

/-- The node that some names lead to, the outermost first. -/
def descend? (directory : Directory κ) : List Name → Option (Node κ)
  | [] => some (.directory directory)
  | [name] => child? directory name
  | name :: rest =>
    match child? directory name with
    | some (.directory inner) => descend? inner rest
    | _ => none

/-- Changes what some names lead to, the outermost first.  Nothing changes if a directory
on the way is missing. -/
def descendAlter (change : Option (Node κ) → Option (Node κ)) :
    List Name → Directory κ → Directory κ
  | [], directory => directory
  | [name], directory => alterChild name change directory
  | name :: rest, directory =>
    alterChild name (fun
      | some (.directory inner) => some (.directory (descendAlter change rest inner))
      | other => other) directory

/-- The node at a location. -/
def node? (directory : Directory κ) (location : Location) : Option (Node κ) :=
  descend? directory location.reverse

/-- Changes what is at a location. -/
def alter (directory : Directory κ) (location : Location)
    (change : Option (Node κ) → Option (Node κ)) : Directory κ :=
  descendAlter change location.reverse directory

end Directory

mutual

/-- What is below a node that is at a location, directories before what they hold. -/
def Node.descendants {κ : Type} (location : Location) : Node κ → List (Location × Node κ)
  | .directory entries => entryDescendants location entries
  | .file .. | .link _ | .special => []

/-- The entries of a directory that is at a location, and what is below them. -/
def entryDescendants {κ : Type} (location : Location) :
    List (Name × Node κ) → List (Location × Node κ)
  | [] => []
  | (name, node) :: rest =>
    (name :: location, node) :: node.descendants (name :: location)
      ++ entryDescendants location rest

end

end AudioCatalog
