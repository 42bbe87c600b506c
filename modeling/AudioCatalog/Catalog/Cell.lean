import AudioCatalog.Catalog.Fault
import AudioCatalog.Catalog.Numeral

/-!
# Cells

A cell of the database holds a value of one of five classes.  A column prefers a
class: a value put into it is converted if that loses nothing, and kept as it is
otherwise.  Reading a column expects a class and a range; anything else is a fault.
-/

namespace AudioCatalog

/-- The value of a cell.  A real number is one of the binary64 format. -/
inductive Cell where
  | null
  | integer (value : Int)
  | real (value : Rat)
  | text (value : String)
  | blob (bytes : List UInt8)
  deriving DecidableEq

/-- The class that a column prefers. -/
inductive Affinity where
  | integer
  | text
  | blob
  deriving DecidableEq

namespace Cell

/-- The class of a value. -/
def storageClass : Cell → StorageClass
  | null => .null
  | integer _ => .integer
  | real _ => .real
  | text _ => .text
  | blob _ => .blob

/-- A real number as an integer if it is one and has less than 64 bits, and else as a real
number. -/
def ofReal (value : Rat) : Cell :=
  if value.den = 1 && value.num.natAbs < 9223372036854775808 then integer value.num
  else real value

/-- The number that a text stands for, if it is a numeral. -/
def ofNumeral? (value : String) : Option Cell :=
  (Numeral.read? value).map fun
    | .integer value => integer value
    | .real value => ofReal value

/-- The value as a column keeps it. -/
def converted (affinity : Affinity) (cell : Cell) : Cell :=
  match affinity, cell with
  | .integer, real value => ofReal value
  | .integer, text value => (ofNumeral? value).getD (text value)
  | .text, integer value => text (toString value)
  | .text, real value => text (Numeral.write value)
  | _, cell => cell

/-- Whether a cell holds a number from `low` to `high`. -/
def isBetween (low high : Int) : Cell → Bool
  | integer value => low ≤ value && value ≤ high
  | real value => (low : Rat) ≤ value && value ≤ high
  | _ => false

/-- The fault of finding a value of another class. -/
def wrongClass {α : Type} (cell : Cell) (column : Column) : Except StoreFault α :=
  .error (.wrongClass cell.storageClass column)

/-- Reads an integer. -/
def toInt (column : Column) : Cell → Except StoreFault Int
  | integer value => .ok value
  | cell => cell.wrongClass column

/-- Reads an integer of 32 bits without sign, which may be missing. -/
def toUInt32? (column : Column) : Cell → Except StoreFault (Option UInt32)
  | null => .ok none
  | integer value =>
    if 0 ≤ value ∧ value < 4294967296 then .ok (some (UInt32.ofNat value.toNat))
    else .error (.outOfRange value column)
  | cell => cell.wrongClass column

/-- Reads an integer that may be missing. -/
def toInt? (column : Column) : Cell → Except StoreFault (Option Int)
  | null => .ok none
  | integer value => .ok (some value)
  | cell => cell.wrongClass column

/-- Reads a text. -/
def toText (column : Column) : Cell → Except StoreFault String
  | text value => .ok value
  | cell => cell.wrongClass column

/-- Reads bytes. -/
def toBytes (column : Column) : Cell → Except StoreFault (List UInt8)
  | blob bytes => .ok bytes
  | cell => cell.wrongClass column

/-- Reads bytes that may be missing. -/
def toBytes? (column : Column) : Cell → Except StoreFault (Option (List UInt8))
  | null => .ok none
  | blob bytes => .ok (some bytes)
  | cell => cell.wrongClass column

end Cell

end AudioCatalog
