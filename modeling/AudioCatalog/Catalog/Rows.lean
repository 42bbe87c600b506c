import AudioCatalog.Catalog.Cell
import AudioCatalog.Catalog.Entry
import AudioCatalog.Catalog.Table
import AudioCatalog.Metadata.Json

/-!
# Rows of the database

How entries are laid out in cells, and how they are read back.  Reading takes the
columns in a fixed order and reports the first fault.
-/

namespace AudioCatalog

/-- The stored form of an identity. -/
structure IdentityRow where
  digest : Cell
  bucket : Cell
  frames : Cell
  vector : Cell
  metadata : Cell
  createdAt : Cell
  deriving DecidableEq

/-- The stored form of a source, with the number of its identity. -/
structure SourceRow where
  identity : Cell
  path : Cell
  modified : Cell
  size : Cell
  importedAt : Cell
  kept : Cell
  route : Cell
  deriving DecidableEq

/-- The stored form of a ticket, with the number of the identity it was resolved to. -/
structure TicketRow where
  path : Cell
  requestedAt : Cell
  resolvedAt : Cell
  resolvedIdentity : Cell
  deriving DecidableEq

/-- What stands in a message for the reason why a text is not metadata. -/
def unreadableMetadata : String := "<json>"

/-- A size as a signed number of 64 bits, which the database stores. -/
def storedSize (size : UInt64) : Int :=
  let n := Int.ofNat size.toNat
  if n < 9223372036854775808 then n else n - 18446744073709551616

/-- The size that a stored number stands for. -/
def sizeOfStored (stored : Int) : UInt64 :=
  UInt64.ofNat (stored % 18446744073709551616).toNat

namespace IdentityRow

/-- The row of an identity that is new. -/
def ofDraft (draft : Draft) (now : Timestamp) : IdentityRow where
  digest := .blob draft.digest.bytes
  bucket := match draft.key with
    | some key => .integer (Int.ofNat key.bucket)
    | none => .null
  frames := match draft.key with
    | some key => .integer (Int.ofNat key.frames)
    | none => .null
  vector := match draft.key with
    | some key => .blob key.stored
    | none => .null
  metadata := .text draft.metadata.print
  createdAt := .integer now

/-- The acoustic key of a row.  A row without vector or frame count has none. -/
def key? (row : IdentityRow) : Except StoreFault (Option AcousticKey) := do
  let frames ← row.frames.toUInt32? ⟨3, "acoustic_frames"⟩
  let vector ← row.vector.toBytes? ⟨4, "acoustic_vector"⟩
  match vector, frames with
  | some bytes, some frames =>
    match AcousticKey.ofStored? bytes frames with
    | some key => return some key
    | none =>
      .error (.malformed .blob ⟨4, "acoustic_vector"⟩ "malformed acoustic vector")
  | _, _ => return none

/-- Reads a row; the sources are found elsewhere. -/
def read (id : Int) (row : IdentityRow) : Except StoreFault Identity := do
  let bytes ← row.digest.toBytes ⟨1, "exact_digest"⟩
  match Digest.ofBytes? bytes with
  | none =>
    .error (.malformed .blob ⟨1, "exact_digest"⟩ "exact digest has the wrong length")
  | some digest =>
    let key ← row.key?
    let text ← row.metadata.toText ⟨5, "metadata"⟩
    match Metadata.parse? text with
    | none => .error (.malformed .text ⟨5, "metadata"⟩ unreadableMetadata)
    | some metadata =>
      let created ← row.createdAt.toInt ⟨6, "created_at"⟩
      return {
        id := ⟨id⟩
        digest := digest
        key := key
        metadata := metadata
        createdAt := Timestamp.ofStored created
        sources := [] }

end IdentityRow

namespace SourceRow

/-- The row of a source whose path name is the given text. -/
def ofSource (identity : IdentityId) (path : String) (source : Source) :
    SourceRow where
  identity := .integer identity.value
  path := .text path
  modified := .integer source.modified
  size := .integer (storedSize source.size)
  importedAt := .integer source.importedAt
  kept := .integer (if source.kept then 1 else 0)
  route := .text source.route.label

/-- Reads a row. -/
def read (row : SourceRow) : Except StoreFault Source := do
  let label ← row.route.toText ⟨5, "import_mode"⟩
  match Route.ofLabel? label with
  | none => .error (.malformed .text ⟨5, "import_mode"⟩ "unknown import mode")
  | some route =>
    let path ← row.path.toText ⟨0, "path"⟩
    let modified ← row.modified.toInt ⟨1, "mtime"⟩
    let size ← row.size.toInt ⟨2, "size"⟩
    let importedAt ← row.importedAt.toInt ⟨3, "imported_at"⟩
    let kept ← row.kept.toInt ⟨4, "kept_original"⟩
    return {
      path := .ofText path
      modified := modified
      size := sizeOfStored size
      importedAt := Timestamp.ofStored importedAt
      kept := kept ≠ 0
      route := route }

/-- Whether two rows stand for the same source of the same identity, by the text of
the path name. -/
def sameKey (a b : SourceRow) : Bool :=
  a.identity = b.identity && a.path = b.path && a.modified = b.modified && a.size = b.size

end SourceRow

namespace TicketRow

/-- The row of a new ticket. -/
def ofPath (path : String) (now : Timestamp) : TicketRow where
  path := .text path
  requestedAt := .integer now
  resolvedAt := .null
  resolvedIdentity := .null

/-- Reads a row. -/
def read (id : Int) (row : TicketRow) : Except StoreFault Ticket := do
  let path ← row.path.toText ⟨1, "path"⟩
  let requestedAt ← row.requestedAt.toInt ⟨2, "requested_at"⟩
  let resolvedAt ← row.resolvedAt.toInt? ⟨3, "resolved_at"⟩
  return {
    id := ⟨id⟩
    path := .ofText path
    requestedAt := Timestamp.ofStored requestedAt
    resolvedAt := resolvedAt.map Timestamp.ofStored }

end TicketRow

end AudioCatalog
