import AudioCatalog.Text.Utf8
import AudioCatalog.Wave.Bytes

/-!
# Chunks

A container is a sequence of chunks, each with a tag of four bytes and a length.  A
chunk of odd length is followed by one byte of padding.  A cursor counts how much of
the container its chunks have claimed; what their readers really took can differ.
-/

namespace AudioCatalog.Wave

/-- The four bytes of a tag. -/
abbrev Tag := List UInt8

/-- The tag with the given letters. -/
def tag (letters : String) : Tag :=
  Utf8.encode letters

/-- The heading of a chunk. -/
structure ChunkHeading where
  tag : Tag
  length : Nat

/-- A position inside a container of `length` bytes, of which `claimed` belong to the
chunks so far. -/
structure ChunkCursor where
  length : Nat
  claimed : Nat

/-- The length that stands for a container whose end was not known when it was
written. -/
def unknownLength : Nat := 4294967295

namespace ChunkCursor

/-- The first position in a container. -/
def start (length : Nat) : ChunkCursor :=
  ⟨length, 0⟩

/-- Leaves out the padding behind a chunk of odd length. -/
def align (cursor : ChunkCursor) : Reader ChunkCursor := do
  if cursor.claimed % 2 = 0 then return cursor
  skipBytes 1
  return { cursor with claimed := cursor.claimed + 1 }

/-- Reads the next heading, if there is room for one. -/
def next (cursor : ChunkCursor) : Reader (Option ChunkHeading × ChunkCursor) := do
  let cursor ← cursor.align
  if cursor.length < cursor.claimed + 8 then return (none, cursor)
  let tag ← readBytes 4
  let length ← readNumber 4
  let claimed := cursor.claimed + 8
  if cursor.length - claimed < length
      ∧ ¬(cursor.length = unknownLength ∧ length = unknownLength) then
    throw .chunkTooLong
  return (some ⟨tag, length⟩,
    { cursor with claimed := min (claimed + length) unknownLength })

/-- Leaves out what is not claimed yet, and the padding of the container itself. -/
def finish (cursor : ChunkCursor) : Reader Unit := do
  skipBytes (cursor.length - cursor.claimed)
  skipBytes (cursor.length % 2)

end ChunkCursor

end AudioCatalog.Wave
