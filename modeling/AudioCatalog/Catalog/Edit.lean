import AudioCatalog.Catalog.Basic

/-!
# Direct edits of stored rows

Operations on single cells and rows, as another program with access to the database
could perform them.  They go around the rules that commits follow, so the catalog
afterwards may hold rows that cannot be read.
-/

namespace AudioCatalog

/-- The tables by name. -/
inductive TableName where
  | identities
  | sources
  | tickets

/-- The table with a stored name. -/
def TableName.ofLabel? (label : String) : Option TableName :=
  if label = "identities" then some identities
  else if label = "source_references" then some sources
  else if label = "catalog_tickets" then some tickets
  else none

namespace IdentityRow

/-- The row with one cell replaced. -/
def setCell (row : IdentityRow) (column : String) (value : Cell) : IdentityRow :=
  match column with
  | "exact_digest" => { row with digest := value.converted .blob }
  | "acoustic_bucket" => { row with bucket := value.converted .integer }
  | "acoustic_frames" => { row with frames := value.converted .integer }
  | "acoustic_vector" => { row with vector := value.converted .blob }
  | "metadata" => { row with metadata := value.converted .text }
  | "created_at" => { row with createdAt := value.converted .integer }
  | _ => row

end IdentityRow

namespace SourceRow

/-- The row with one cell replaced. -/
def setCell (row : SourceRow) (column : String) (value : Cell) : SourceRow :=
  match column with
  | "identity_id" => { row with identity := value.converted .integer }
  | "path" => { row with path := value.converted .text }
  | "mtime" => { row with modified := value.converted .integer }
  | "size" => { row with size := value.converted .integer }
  | "imported_at" => { row with importedAt := value.converted .integer }
  | "kept_original" => { row with kept := value.converted .integer }
  | "import_mode" => { row with route := value.converted .text }
  | _ => row

end SourceRow

namespace TicketRow

/-- The row with one cell replaced. -/
def setCell (row : TicketRow) (column : String) (value : Cell) : TicketRow :=
  match column with
  | "path" => { row with path := value.converted .text }
  | "requested_at" => { row with requestedAt := value.converted .integer }
  | "resolved_at" => { row with resolvedAt := value.converted .integer }
  | "resolved_identity" => { row with resolvedIdentity := value.converted .integer }
  | _ => row

end TicketRow

/-- The row number that a value stands for. -/
def Cell.rowId? (value : Cell) : Option Int :=
  match value.converted .integer with
  | .integer id => some id
  | _ => none

/-- The table in which a row has another number. -/
def Table.withId {ρ : Type} (table : Table ρ) (id : Int) (value : Cell) : Table ρ :=
  (value.rowId?.bind (table.renumber? id)).getD table

namespace Catalog

/-- How many rows of a table have a number: one or none. -/
def countRows (catalog : Catalog) (table : TableName) (id : Int) : Nat :=
  match table with
  | .identities => if (catalog.identities.row? id).isSome then 1 else 0
  | .sources => if (catalog.sources.row? id).isSome then 1 else 0
  | .tickets => if (catalog.tickets.row? id).isSome then 1 else 0

/-- Sets the version, for which there are 32 bits.  A number outside their range counts
as zero. -/
def setVersion (catalog : Catalog) (version : Int) : Catalog :=
  { catalog with
    version := if -2147483648 ≤ version ∧ version ≤ 2147483647 then version else 0 }

/-- The name of the column that holds the row number. -/
def idColumn : String := "id"

/-- A table with one cell replaced: the row number, which nothing that refers to the row
follows, or another one. -/
def setIn {ρ : Type} (setCell : ρ → String → Cell → ρ) (column : String) (id : Int)
    (value : Cell) (table : Table ρ) : Table ρ :=
  if column = idColumn then table.withId id value
  else table.modify id (setCell · column value)

/-- Replaces one cell; the number of rows changed comes first. -/
def setCell (catalog : Catalog) (table : TableName) (column : String) (id : Int)
    (value : Cell) : Nat × Catalog :=
  (catalog.countRows table id,
    match table with
    | .identities => { catalog with
        identities := setIn IdentityRow.setCell column id value catalog.identities }
    | .sources => { catalog with
        sources := setIn SourceRow.setCell column id value catalog.sources }
    | .tickets => { catalog with
        tickets := setIn TicketRow.setCell column id value catalog.tickets })

/-- Deletes one row and nothing that refers to it; the number of rows deleted comes
first. -/
def deleteRow (catalog : Catalog) (table : TableName) (id : Int) : Nat × Catalog :=
  (catalog.countRows table id,
    match table with
    | .identities => { catalog with identities := catalog.identities.erase id }
    | .sources => { catalog with sources := catalog.sources.erase id }
    | .tickets => { catalog with tickets := catalog.tickets.erase id })

end Catalog

end AudioCatalog
