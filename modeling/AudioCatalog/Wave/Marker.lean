import AudioCatalog.Wave.Chunk
import AudioCatalog.Wave.TagBlock

/-!
# Where a container begins

A container begins with a marker, which may stand anywhere in the first part of a file.
Two bytes that could begin a marker have to be followed by enough bytes to tell which.
A block of tags before the container is left out, and the search starts afresh behind it.
-/

namespace AudioCatalog.Wave

/-- What a marker announces. -/
inductive Announced where
  /-- A container that may hold waves. -/
  | container
  /-- A block of tags, with something else behind it. -/
  | tagBlock
  /-- A container of another kind. -/
  | foreign
  deriving DecidableEq

/-- The markers, and what they announce. -/
def markers : List (List UInt8 × Announced) := [
  (tag "RIFF", .container), (tag "ID3", .tagBlock), (tag "fLaC", .foreign),
  (tag "OggS", .foreign), ([0x1A, 0x45, 0xDF, 0xA3], .foreign),
  ([0xFF, 0xFA], .foreign), ([0xFF, 0xFB], .foreign), ([0xFF, 0xF2], .foreign),
  ([0xFF, 0xF3], .foreign), ([0xFF, 0xE2], .foreign), ([0xFF, 0xE3], .foreign)]

/-- How many bytes are searched for the first two of a marker. -/
def searchLimit : Nat := 1048576

/-- How many bytes there have to be from the beginning of a marker. -/
def markerWindow : Nat := 16

/-- Whether a marker could begin with two bytes. -/
def couldBegin (first second : UInt8) : Bool :=
  markers.any fun (marker, _) => marker.take 2 == [first, second]

/-- Finds the first marker among the places at which up to `places` pairs of bytes begin.
Gives what it announces and what follows it. -/
def findMarker (places : Nat) (bytes : List UInt8) :
    Except WaveFault (Announced × List UInt8) :=
  match places, bytes with
  | places + 1, first :: second :: rest =>
    if couldBegin first second then
      let window := first :: second :: rest.take (markerWindow - 2)
      if window.length < markerWindow then .error .endOfStream
      else
        match markers.find? fun (marker, _) => marker.isPrefixOf window with
        | some (marker, announced) =>
          .ok (announced, (first :: second :: rest).drop marker.length)
        | none => findMarker places (second :: rest)
    else findMarker places (second :: rest)
  | _, _ => .error .noMarker

/-- Finds the first container, and gives what follows its marker.  `blocks` bounds the
number of blocks of tags before it. -/
def findContainer (blocks : Nat) (bytes : List UInt8) : Except WaveFault (List UInt8) := do
  match ← findMarker (searchLimit - 1) bytes with
  | (.container, rest) => return rest
  | (.foreign, _) => throw .endOfStream
  | (.tagBlock, rest) =>
    match blocks with
    | 0 => throw .noMarker
    | blocks + 1 =>
      let ((), rest) ← skipTagBlock.run rest
      findContainer blocks rest

end AudioCatalog.Wave
