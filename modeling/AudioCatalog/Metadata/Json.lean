import AudioCatalog.Json.Reader
import AudioCatalog.Json.Writer
import AudioCatalog.Metadata.Basic

/-!
# Metadata as JSON

The catalog stores metadata as a JSON object.  An absent optional field and an empty
map of tags are left out; the list of streams is always there.  Reading ignores
members of other names, refuses a name given twice, and also takes an array of the
fields in their order, of which defaulted ones may be missing at the end.
-/

namespace AudioCatalog

/-- Fields of an object by position: those that are there, in the order of the
names. -/
abbrev Fields := List (Option Json)

namespace Fields

/-- The members of an object that have one of the names, or the items of an array in
their place.  A repeated name, a name without a text, and too many items are
refused. -/
def ofJson? (names : List String) : Json → Option Fields
  | .object members => do
    let named ← members.mapM fun (name, value) => name.map (·, value)
    names.mapM fun name =>
      match named.filter (·.1 = name) with
      | [] => some none
      | [(_, value)] => some (some value)
      | _ => none
  | .array items =>
    if items.length ≤ names.length then
      some (items.map some ++ List.replicate (names.length - items.length) none)
    else none
  | _ => none

/-- A field that has to be there. -/
def required? {α : Type} (read : Json → Option α) (fields : Fields) (position : Nat) :
    Option α :=
  (fields.getD position none).bind read

/-- A field that may be missing or null. -/
def optional? {α : Type} (read : Json → Option α) (fields : Fields) (position : Nat) :
    Option (Option α) :=
  match fields.getD position none with
  | none => some none
  | some .null => some none
  | some value => (read value).map some

/-- A field with a default, which stands for a missing one but not for null. -/
def defaulted? {α : Type} (read : Json → Option α) (default : α) (fields : Fields)
    (position : Nat) : Option α :=
  match fields.getD position none with
  | none => some default
  | some value => read value

end Fields

/-- An unsigned number of 16 bits. -/
def Json.uint16? (value : Json) : Option UInt16 :=
  (value.natUpTo? 65535).map UInt16.ofNat

/-- An unsigned number of 32 bits. -/
def Json.uint32? (value : Json) : Option UInt32 :=
  (value.natUpTo? 4294967295).map UInt32.ofNat

/-- An unsigned number of 64 bits. -/
def Json.uint64? (value : Json) : Option UInt64 :=
  (value.natUpTo? 18446744073709551615).map UInt64.ofNat

/-- The items of an array, each read the same way. -/
def Json.list? {α : Type} (read : Json → Option α) : Json → Option (List α)
  | .array items => items.mapM read
  | _ => none

namespace TagMap

/-- Tags from an object of texts; the last value of a name counts. -/
def ofJson? : Json → Option TagMap
  | .object members => do
    let entries ← members.mapM fun (name, value) => do
      return (← name, ← value.text?)
    return ofList entries
  | _ => none

/-- Tags as an object in the order of the names. -/
def toJson (tags : TagMap) : Json :=
  .ofMembers (tags.entries.map fun (name, value) => (name, .ofText value))

/-- The member that holds tags, unless there are none. -/
def members (tags : TagMap) : List (String × Json) :=
  if tags.isEmpty then [] else [("tags", tags.toJson)]

end TagMap

/-- The member of an optional field, unless it is absent. -/
def optionalMember {α : Type} (name : String) (write : α → Json) :
    Option α → List (String × Json)
  | none => []
  | some value => [(name, write value)]

namespace TimeBase

/-- The names of the fields in their order. -/
def fieldNames : List String :=
  ["numer", "denom"]

/-- Reads a time base; both numbers are taken as they are. -/
def ofJson? (value : Json) : Option TimeBase := do
  let fields ← Fields.ofJson? fieldNames value
  return ⟨← fields.required? Json.uint32? 0, ← fields.required? Json.uint32? 1⟩

/-- A time base as an object. -/
def toJson (base : TimeBase) : Json :=
  .ofMembers [("numer", .ofNat base.numer.toNat), ("denom", .ofNat base.denom.toNat)]

end TimeBase

namespace StreamFacts

/-- The names of the fields in their order. -/
def fieldNames : List String :=
  ["index", "codec_type", "codec_name", "sample_rate", "channels", "bits_per_sample",
    "bit_rate", "frames", "time_base", "tags"]

/-- Reads a stream. -/
def ofJson? (value : Json) : Option StreamFacts := do
  let fields ← Fields.ofJson? fieldNames value
  return {
    index := ← fields.required? Json.uint32? 0
    codecType := ← fields.required? Json.text? 1
    codecName := ← fields.required? Json.text? 2
    sampleRate := ← fields.optional? Json.uint32? 3
    channels := ← fields.optional? Json.uint16? 4
    bitsPerSample := ← fields.optional? Json.uint32? 5
    bitRate := ← fields.optional? Json.uint32? 6
    frames := ← fields.optional? Json.uint64? 7
    timeBase := ← fields.optional? TimeBase.ofJson? 8
    tags := ← fields.defaulted? TagMap.ofJson? .empty 9 }

/-- A stream as an object. -/
def toJson (stream : StreamFacts) : Json :=
  .ofMembers (
    [("index", .ofNat stream.index.toNat),
      ("codec_type", .ofText stream.codecType),
      ("codec_name", .ofText stream.codecName)]
    ++ optionalMember "sample_rate" (fun n => .ofNat n.toNat) stream.sampleRate
    ++ optionalMember "channels" (fun n => .ofNat n.toNat) stream.channels
    ++ optionalMember "bits_per_sample" (fun n => .ofNat n.toNat) stream.bitsPerSample
    ++ optionalMember "bit_rate" (fun n => .ofNat n.toNat) stream.bitRate
    ++ optionalMember "frames" (fun n => .ofNat n.toNat) stream.frames
    ++ optionalMember "time_base" TimeBase.toJson stream.timeBase
    ++ stream.tags.members)

end StreamFacts

namespace Metadata

/-- The names of the fields in their order. -/
def fieldNames : List String :=
  ["format_name", "format_long_name", "duration_ms", "bit_rate", "tags", "streams"]

/-- Reads metadata from a value. -/
def ofJson? (value : Json) : Option Metadata := do
  let fields ← Fields.ofJson? fieldNames value
  return {
    formatName := ← fields.required? Json.text? 0
    formatLongName := ← fields.optional? Json.text? 1
    durationMillis := ← fields.optional? Json.uint64? 2
    bitRate := ← fields.optional? Json.uint32? 3
    tags := ← fields.defaulted? TagMap.ofJson? .empty 4
    streams := ← fields.defaulted? (Json.list? StreamFacts.ofJson?) [] 5 }

/-- Metadata as an object. -/
def toJson (m : Metadata) : Json :=
  .ofMembers (
    [("format_name", .ofText m.formatName)]
    ++ optionalMember "format_long_name" .ofText m.formatLongName
    ++ optionalMember "duration_ms" (fun n => .ofNat n.toNat) m.durationMillis
    ++ optionalMember "bit_rate" (fun n => .ofNat n.toNat) m.bitRate
    ++ m.tags.members
    ++ [("streams", .array (m.streams.map StreamFacts.toJson))])

/-- Reads metadata from a JSON text. -/
def parse? (text : String) : Option Metadata :=
  (Json.parse? text).bind ofJson?

/-- The JSON text of metadata. -/
def print (m : Metadata) : String :=
  m.toJson.compact

end Metadata

end AudioCatalog
