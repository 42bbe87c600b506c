import AudioCatalog.Text.Lowercase
import AudioCatalog.Text.Utf8

/-!
# Path names

A path name is a byte string; it need not be text.  Its components are what is
between slashes: empty ones and single dots do not count, except for a dot at the
very front.  Two names that agree in their components are equivalent, though the
file system may treat them differently.
-/

namespace AudioCatalog

/-- A path name as the caller wrote it. -/
structure Pathname where
  bytes : List UInt8
  deriving DecidableEq

namespace Pathname

/-- The byte between components. -/
def slash : UInt8 := 47

/-- The byte of a full stop. -/
def dot : UInt8 := 46

/-- One part of a path name. -/
inductive Component where
  | root
  | current
  | parent
  | normal (name : List UInt8)
  deriving DecidableEq

/-- The path name with the given text. -/
def ofText (text : String) : Pathname :=
  ⟨Utf8.encode text⟩

/-- The text of a path name, unless it is not well formed. -/
def text? (path : Pathname) : Option String :=
  Utf8.decode? path.bytes

/-- The path name as it is shown; what is not text becomes a replacement character. -/
def shown (path : Pathname) : String :=
  Utf8.decodeLossy path.bytes

/-- The stretches between slashes, with the empty ones. -/
def splitBytes : List UInt8 → List (List UInt8)
  | [] => [[]]
  | byte :: rest =>
    if byte = slash then [] :: splitBytes rest
    else match splitBytes rest with
      | [] => [[byte]]
      | segment :: segments => (byte :: segment) :: segments

/-- The stretches between slashes, with the empty ones. -/
def segments (path : Pathname) : List (List UInt8) :=
  splitBytes path.bytes

/-- Stretches with slashes between them. -/
def ofSegments (segments : List (List UInt8)) : Pathname :=
  ⟨(List.intersperse [slash] segments).flatten⟩

/-- The name without slashes at its end, unless there is nothing else. -/
def trimmed (path : Pathname) : Pathname :=
  match path.bytes.reverse.dropWhile (· = slash) with
  | [] => path
  | kept => ⟨kept.reverse⟩

/-- Whether the name starts at the root. -/
def isAbsolute (path : Pathname) : Bool :=
  path.bytes.head? = some slash

/-- The component that a segment stands for inside a name, if any. -/
def component? (segment : List UInt8) : Option Component :=
  if segment = [] || segment = [dot] then none
  else if segment = [dot, dot] then some .parent
  else some (.normal segment)

/-- The components of a name. -/
def components (path : Pathname) : List Component :=
  let inner := path.segments.filterMap component?
  if path.isAbsolute then .root :: inner
  else if path.segments.head? = some [dot] then .current :: inner
  else inner

/-- Whether two names agree in their components. -/
def equivalent (a b : Pathname) : Bool :=
  a.components = b.components

/-- The last component, if it names something. -/
def fileName? (path : Pathname) : Option (List UInt8) :=
  match path.components.getLast? with
  | some (.normal name) => some name
  | _ => none

/-- What follows the last full stop of a name, unless the name has none or only one
at its very front. -/
def extensionOf? (name : List UInt8) : Option (List UInt8) :=
  let tail := name.reverse.takeWhile (· != dot)
  if tail.length + 1 < name.length then some tail.reverse else none

/-- The extension as lower-case text. -/
def extension? (path : Pathname) : Option String :=
  (path.fileName?.bind extensionOf?).bind fun bytes => (Utf8.decode? bytes).map lowercase

/-- The extensions of audio files. -/
def knownExtensions : List String :=
  ["mp3", "wav", "flac"]

/-- Whether the name has the extension of an audio file, in any letter case. -/
def namesAudio (path : Pathname) : Bool :=
  match path.extension? with
  | some extension => knownExtensions.contains extension
  | none => false

/-- A name inside a directory. -/
def child (directory : Pathname) (name : List UInt8) : Pathname :=
  if directory.bytes = [] || directory.bytes.getLast? = some slash then
    ⟨directory.bytes ++ name⟩
  else ⟨directory.bytes ++ slash :: name⟩

/-- The name without its last component, unless that is the root or nothing. -/
def parent? (path : Pathname) : Option Pathname :=
  let write : Component → List UInt8
    | .root => []
    | .current => [dot]
    | .parent => [dot, dot]
    | .normal name => name
  match path.components.reverse with
  | [] => none
  | .root :: _ => none
  | _ :: before =>
    match before.reverse with
    | [.root] => some ⟨[slash]⟩
    | kept => some (ofSegments (kept.map write))

end Pathname

end AudioCatalog
