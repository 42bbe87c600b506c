import AudioCatalog.Catalog.Tickets
import AudioCatalog.FileSystem.Basic
import AudioCatalog.Import.Conclusion
import AudioCatalog.Import.Token

/-!
# The world of an import

What an import can see and change: the catalog, the files, the cancel tokens by name,
and the time of day.  Files are admitted by what can be said of them before they are
decoded.
-/

namespace AudioCatalog

/-- All that imports can see and change. -/
structure World where
  catalog : Catalog
  files : FileSystem Catalog
  tokens : String → CancelToken
  now : Timestamp

/-- The world with another state of one token. -/
def World.setToken (world : World) (name : String) (token : CancelToken) : World :=
  { world with tokens := fun other => if other = name then token else world.tokens other }

/-- What is noted of a file before it is decoded; the time of its last change is in
milliseconds. -/
structure FileFacts where
  size : Nat
  modified : Int
  deriving DecidableEq

/-- Notes the facts of a file, or says why it is left alone. -/
def Node.admit {κ : Type} : Node κ → Except Rejection FileFacts
  | file body modified =>
    if body.size = 0 then .error .emptyFile else .ok ⟨body.size, modified⟩
  | directory _ | link _ | special => .error .notRegular

/-- Looks at a file without decoding it.  A path name that is not text is refused
first, since the catalog could not store it. -/
def World.admit (world : World) (path : Pathname) :
    Except Error (Except Rejection FileFacts) :=
  if path.text?.isNone then .error (.badPath (.notText path.shown))
  else match world.files.open? path with
    | .error cause => .error (.io cause)
    | .ok node => .ok node.admit

/-- What the catalog notes of a file that is imported now.  Times before the epoch count
as the epoch. -/
def Source.ofFile (path : Pathname) (facts : FileFacts) (kept : Bool)
    (route : Route) (now : Timestamp) : Source where
  path := path
  modified := Int.ofNat (facts.modified.toNat / 1000)
  size := UInt64.ofNat facts.size
  importedAt := now
  kept := kept
  route := route

end AudioCatalog
