import AudioCatalog.FileSystem.Basic

/-!
# Changes between file systems

What has to be done to turn one file system into a later state of itself.  A file counts
as written if it was not there before or its modification time is another one.
-/

namespace AudioCatalog.FileSystem

variable {κ : Type}

/-- One thing to be done. -/
inductive Change (κ : Type) where
  | createDirectory (location : Location)
  | write (location : Location) (body : Body κ)
  | remove (location : Location)

/-- The modification time of the file at a location, if one is there. -/
def modified? (fs : FileSystem κ) (location : Location) : Option Int :=
  match fs.node? location with
  | some (.file _ modified) => some modified
  | _ => none

/-- The change that a node is the result of. -/
def changeTo (before : FileSystem κ) (location : Location) : Node κ → Option (Change κ)
  | .directory _ =>
    if (before.node? location).isNone then some (.createDirectory location) else none
  | .file body modified =>
    if before.modified? location = some modified then none else some (.write location body)
  | .link _ | .special => none

/-- What has to be done, in this order: directories are made before what they hold. -/
def changes (before after : FileSystem κ) : List (Change κ) :=
  (after.nodes.filterMap fun (location, node) => before.changeTo location node)
    ++ before.nodes.filterMap fun (location, _) =>
      if (after.node? location).isNone then some (.remove location) else none

end AudioCatalog.FileSystem
