import AudioCatalog.Metadata.TagMap
import AudioCatalog.Wave.Format
import AudioCatalog.Wave.Marker

/-!
# Wave files

A wave file is a container whose chunks say how the samples are written, name tags, and
end in the samples themselves.  The samples are read in packets, the last of which is
cut where the file ends.
-/

namespace AudioCatalog

/-- A wave file up to its samples.  `data` is what follows the heading of the data chunk,
which claims `dataLength` bytes of it. -/
structure WaveFile where
  format : WaveFormat
  tags : TagMap
  dataLength : Nat
  data : List UInt8

namespace Wave

/-- Reads the entries of a list of tags, of which there are at most `limit`. -/
def readTags (limit : Nat) (cursor : ChunkCursor) (tags : TagMap) : Reader TagMap := do
  match limit with
  | 0 => return tags
  | limit + 1 =>
    match ← cursor.next with
    | (none, cursor) =>
      cursor.finish
      return tags
    | (some chunk, cursor) =>
      let value ← readBytes chunk.length
      readTags limit cursor
        (tags.insert (Utf8.decodeLossy chunk.tag) (Utf8.decodeLossy value))

/-- What the chunks before the samples say.  There are no tags before the first list of
them. -/
structure WaveHeading where
  format : Option WaveFormat
  tags : Option TagMap

/-- Reads a list chunk.  Only the first list of tags counts; other lists are left out. -/
def readList (heading : WaveHeading) (length : Nat) : Reader WaveHeading := do
  if length < 4 then throw .listTooShort
  let form ← readBytes 4
  let cursor := ChunkCursor.start (length - 4)
  if form = tag "INFO" then
    let tags ← readTags length cursor .empty
    return { heading with tags := some (heading.tags.getD tags) }
  else
    cursor.finish
    return heading

/-- Reads chunks up to the data chunk and gives the length of that.  `limit` bounds the
number of chunks. -/
def readChunks (limit : Nat) (cursor : ChunkCursor) (heading : WaveHeading) :
    Reader (WaveHeading × Nat) := do
  match limit with
  | 0 => throw .noData
  | limit + 1 =>
    match ← cursor.next with
    | (none, _) => throw .noData
    | (some chunk, cursor) =>
      if chunk.tag = tag "data" then return (heading, chunk.length)
      else if chunk.tag = tag "fmt " then
        let format ← readFormat chunk.length
        readChunks limit cursor { heading with format := some (format.replacing heading.format) }
      else if chunk.tag = tag "fact" then
        if chunk.length ≠ 4 then throw .factLength
        skipBytes 4
        readChunks limit cursor heading
      else if chunk.tag = tag "LIST" then
        let heading ← readList heading chunk.length
        readChunks limit cursor heading
      else
        skipBytes chunk.length
        readChunks limit cursor heading

/-- Reads a container up to its samples. -/
def readContainer : Reader (WaveHeading × Nat) := do
  let length ← readNumber 4
  let form ← readBytes 4
  if form ≠ tag "WAVE" then throw .otherForm
  readChunks (← get).length (.start length) ⟨none, none⟩

end Wave

namespace WaveFile

/-- Reads a wave file up to its samples. -/
def parse (bytes : List UInt8) : Except WaveFault WaveFile := do
  let container ← Wave.findContainer bytes.length bytes
  let ((heading, dataLength), data) ← Wave.readContainer.run container
  match heading.format with
  | none => throw .noFormat
  | some format => return ⟨format, heading.tags.getD .empty, dataLength, data⟩

/-- How many frames the file claims to have. -/
def frameCount (file : WaveFile) : Nat :=
  file.dataLength / file.format.blockAlign

/-- The most blocks and the most frames of a packet. -/
def packetLimit : Nat := 1152

/-- The packets of some blocks: pieces of at most `packetLimit` blocks, as far as there
are bytes. -/
def packets (blockAlign blocks : Nat) (bytes : List UInt8) : List (List UInt8) :=
  if blocks = 0 ∨ bytes = [] then []
  else
    let size := min blocks packetLimit * blockAlign
    bytes.take size :: packets blockAlign (blocks - packetLimit) (bytes.drop size)
termination_by blocks
decreasing_by
  simp only [packetLimit]
  omega

/-- The samples of a packet: those of its whole frames. -/
def decodePacket (format : WaveFormat) (packet : List UInt8) : List Int32 :=
  let frames := min (packet.length / format.frameBytes) packetLimit
  format.sampleFormat.samples (frames * format.channels) packet

/-- The samples of the file, packet by packet. -/
def decode (file : WaveFile) : Except WaveFault (List (List Int32)) :=
  if file.format.channels = 0 then .error .noChannels
  else if file.format.blockAlign = 0 then .error .blockSize
  else
    let decoded := (packets file.format.blockAlign file.frameCount file.data).map
      (decodePacket file.format)
    if decoded.all List.isEmpty then .error .noFrames else .ok decoded

end WaveFile

end AudioCatalog
