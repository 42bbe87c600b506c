import AudioCatalog.Digest.Basic
import AudioCatalog.FileSystem.Basic

/-!
# Expanding directories into audio files

An input that is a directory stands for the audio files below it, found through
links to files and directories.  A link that leads back to a directory the walk is
inside of is left out, and so are links that lead nowhere and directories that
cannot be opened because their path name is too long or leads through too many
links.  Any other input stands for itself.

A walk meets the files below a directory in the order in which the system gives out the
entries, which is not laid down.  Here they are sorted by name, as one order among all.
-/

namespace AudioCatalog.FileSystem

variable {κ : Type}

/-- The path names of the audio files below a directory.  `above` are the directories
that the walk is inside of; `depth` bounds the nesting. -/
def audioFiles (fs : FileSystem κ) (depth : Nat) (above : List Location)
    (directory : Pathname) : List Pathname :=
  match depth with
  | 0 => []
  | depth + 1 =>
    match fs.find directory true with
    | .ok (location, .directory entries) =>
      entries.flatMap fun (name, node) =>
        let path := directory.child name
        match node with
        | .directory _ => fs.audioFiles depth (location :: above) path
        | .file .. => if path.namesAudio then [path] else []
        | .special => []
        | .link _ =>
          match fs.find path true with
          | .ok (target, .directory _) =>
            if target = location || above.contains target then []
            else fs.audioFiles depth (location :: above) path
          | .ok (_, .file ..) => if path.namesAudio then [path] else []
          | _ => []
    | _ => []

/-- The order that stands for that of the walk: the names as they are shown, byte by
byte. -/
def listedBefore (a b : Pathname) : Bool :=
  compareBytes (Utf8.encode a.shown) (Utf8.encode b.shown) != .gt

/-- The files that one input stands for.  Those below a directory are sorted, where a walk
leaves them in the order of the entries. -/
def expandInput (fs : FileSystem κ) (input : Pathname) : List Pathname :=
  if fs.isDirectory input then
    (fs.audioFiles (pathLimit + 1) [] input).mergeSort listedBefore
  else [input]

/-- The files that a list of inputs stands for, input by input. -/
def expand (fs : FileSystem κ) (inputs : List Pathname) : List Pathname :=
  inputs.flatMap fs.expandInput

end AudioCatalog.FileSystem
