/-!
# Faults of the catalog database

Why the database behind a catalog could not be opened, read or written, and how each
fault is worded.
-/

namespace AudioCatalog

/-- The storage classes of a cell. -/
inductive StorageClass where
  | null
  | integer
  | real
  | text
  | blob
  deriving DecidableEq

/-- The name of a storage class in messages. -/
def StorageClass.label : StorageClass → String
  | null => "Null"
  | integer => "Integer"
  | real => "Real"
  | text => "Text"
  | blob => "Blob"

/-- A column of a query, by position and name. -/
structure Column where
  index : Nat
  name : String
  deriving DecidableEq

/-- What is wrong with the database. -/
inductive StoreFault where
  /-- Another connection is writing. -/
  | locked
  /-- There is no way to the file that a name leads to. -/
  | cannotOpen (shown : String)
  /-- A file that belongs to the database cannot be opened. -/
  | cannotOpenPart
  /-- A file that belongs to the database cannot be read or removed. -/
  | brokenPart
  /-- Writing is not allowed. -/
  | readOnly
  /-- The greatest row number is in use. -/
  | full
  | noTable (name : String)
  /-- The name asks for a machine that is not this one. -/
  | foreignAuthority (shown : String)
  /-- The name asks for a mode that does not exist; which kind of mode is said first. -/
  | unknownMode (kind shown : String)
  /-- The name asks for more access than is allowed. -/
  | forbiddenMode (shown : String)
  /-- The name asks for a file layer that does not exist. -/
  | unknownLayer (shown : String)
  /-- The path name of the file holds a zero byte. -/
  | nulInPath (position : Nat)
  | notADatabase
  /-- A cell holds another class of value than the column should. -/
  | wrongClass (found : StorageClass) (column : Column)
  /-- A number does not fit the range that the column is read with. -/
  | outOfRange (value : Int) (column : Column)
  /-- A value of the right class makes no sense. -/
  | malformed (found : StorageClass) (column : Column) (reason : String)
  /-- A fault that is known by its wording only. -/
  | other (text : String)
  deriving DecidableEq

/-- The wording of a fault. -/
def StoreFault.message : StoreFault → String
  | locked => "database is locked"
  | cannotOpen shown => s!"unable to open database file: {shown}"
  | cannotOpenPart => "unable to open database file"
  | brokenPart => "disk I/O error"
  | readOnly => "attempt to write a readonly database"
  | full => "database or disk is full"
  | noTable name => s!"no such table: {name}"
  | foreignAuthority shown => s!"invalid uri authority: {shown}"
  | unknownMode kind shown => s!"no such {kind} mode: {shown}"
  | forbiddenMode shown => s!"access mode not allowed: {shown}"
  | unknownLayer shown => s!"no such vfs: {shown}"
  | nulInPath position => s!"nul byte found in provided data at position: {position}"
  | notADatabase => "file is not a database"
  | wrongClass found column =>
    s!"Invalid column type {found.label} at index: {column.index}, name: {column.name}"
  | outOfRange value column => s!"Integer {value} out of range at index {column.index}"
  | malformed found column reason =>
    s!"Conversion error from type {found.label} at index: {column.index}, {reason}"
  | other text => text

end AudioCatalog
