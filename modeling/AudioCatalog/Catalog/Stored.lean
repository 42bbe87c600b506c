import AudioCatalog.Catalog.Basic
import AudioCatalog.FileSystem.Basic
import AudioCatalog.Json.Reader
import AudioCatalog.Json.Writer
import AudioCatalog.Text.Hex

/-!
# The stored form of a catalog

A catalog is kept in a file as a line that names the format, followed by one JSON value:
the version and the three tables, each as the last number given out and its rows, each
row as its number and its cells.  Whether the catalog is locked is not stored.
-/

namespace AudioCatalog

/-- An integer in decimal. -/
def Json.ofInt (n : Int) : Json :=
  .number (toString n)

/-- The value of a number that is written as an integer. -/
def Json.int? : Json → Option Int
  | .number token =>
    let (negative, digits) := match token.toList with
      | '-' :: digits => (true, digits)
      | digits => (false, digits)
    if digits ≠ [] && digits.all Char.isDigit then
      let size : Int := digits.foldl (fun n c => 10 * n + (c.toNat - 48)) 0
      some (if negative then -size else size)
    else none
  | _ => none

namespace Cell

/-- A cell as JSON: real numbers by numerator and denominator, bytes in hexadecimal, and
everything else as it is. -/
def toJson : Cell → Json
  | null => .null
  | integer value => .ofInt value
  | real value => .array [.ofInt value.num, .ofNat value.den]
  | text value => .ofText value
  | blob bytes => .ofMembers [("hex", .ofText (Hex.encode bytes))]

/-- Reads a cell. -/
def ofJson? : Json → Option Cell
  | .null => some null
  | .number token => (Json.number token).int?.map integer
  | .array [numerator, denominator] => do
    let numerator ← numerator.int?
    let denominator ← denominator.int?
    return real (mkRat numerator denominator.toNat)
  | .text value => value.map text
  | .object [(some "hex", .text (some digits))] => (Hex.decode? digits).map blob
  | _ => none

end Cell

namespace IdentityRow

/-- The cells in the order of the columns. -/
def cells (row : IdentityRow) : List Cell :=
  [row.digest, row.bucket, row.frames, row.vector, row.metadata, row.createdAt]

/-- The row with the given cells. -/
def ofCells? : List Cell → Option IdentityRow
  | [digest, bucket, frames, vector, metadata, createdAt] =>
    some ⟨digest, bucket, frames, vector, metadata, createdAt⟩
  | _ => none

end IdentityRow

namespace SourceRow

/-- The cells in the order of the columns. -/
def cells (row : SourceRow) : List Cell :=
  [row.identity, row.path, row.modified, row.size, row.importedAt, row.kept, row.route]

/-- The row with the given cells. -/
def ofCells? : List Cell → Option SourceRow
  | [identity, path, modified, size, importedAt, kept, route] =>
    some ⟨identity, path, modified, size, importedAt, kept, route⟩
  | _ => none

end SourceRow

namespace TicketRow

/-- The cells in the order of the columns. -/
def cells (row : TicketRow) : List Cell :=
  [row.path, row.requestedAt, row.resolvedAt, row.resolvedIdentity]

/-- The row with the given cells. -/
def ofCells? : List Cell → Option TicketRow
  | [path, requestedAt, resolvedAt, resolvedIdentity] =>
    some ⟨path, requestedAt, resolvedAt, resolvedIdentity⟩
  | _ => none

end TicketRow

namespace Table

variable {ρ : Type}

/-- A table as JSON. -/
def toJson (cells : ρ → List Cell) (table : Table ρ) : Json :=
  .array (.ofInt table.lastId :: table.rows.map fun (id, row) =>
    .array (.ofInt id :: (cells row).map Cell.toJson))

/-- Reads a table. -/
def ofJson? (ofCells? : List Cell → Option ρ) : Json → Option (Table ρ)
  | .array (last :: rows) => do
    let lastId ← last.int?
    let rows ← rows.mapM fun
      | .array (id :: cells) => do
        let id ← id.int?
        let row ← ofCells? (← cells.mapM Cell.ofJson?)
        return (id, row)
      | _ => none
    ofRows? rows lastId
  | _ => none

end Table

namespace Catalog

/-- The line that names the format. -/
def formatLine : List UInt8 :=
  Utf8.encode "audio catalog\n"

/-- The bytes of a catalog. -/
def stored (catalog : Catalog) : List UInt8 :=
  formatLine ++ Utf8.encode (Json.compact (.array [
    .ofInt catalog.version,
    .bool catalog.logged,
    catalog.identities.toJson IdentityRow.cells,
    catalog.sources.toJson SourceRow.cells,
    catalog.tickets.toJson TicketRow.cells]))

/-- The catalog that some bytes stand for, if they do. -/
def ofStored? (bytes : List UInt8) : Option Catalog := do
  if bytes.take formatLine.length ≠ formatLine then failure
  match Json.parse? (← Utf8.decode? (bytes.drop formatLine.length)) with
  | some (.array [version, .bool logged, identities, sources, tickets]) =>
    return {
      version := ← version.int?
      logged := logged
      identities := ← Table.ofJson? IdentityRow.ofCells? identities
      sources := ← Table.ofJson? SourceRow.ofCells? sources
      tickets := ← Table.ofJson? TicketRow.ofCells? tickets
      access := .full
      locked := false }
  | _ => none

end Catalog

/-- The contents of a file that holds some bytes. -/
def Body.ofBytes (bytes : List UInt8) : Body Catalog :=
  match Catalog.ofStored? bytes with
  | some catalog => .database catalog Catalog.pages
  | none => .data bytes 0

/-- The bytes that a file holds. -/
def Body.stored : Body Catalog → List UInt8
  | .data bytes size => (Body.data bytes size : Body Catalog).toList
  | .database catalog _ => catalog.stored

end AudioCatalog
