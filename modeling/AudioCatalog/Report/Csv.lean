/-!
# Comma-separated values

A table of texts as lines of fields between commas.  A field that holds a comma, a
quote or a line end is put between quotes, and each quote in it is written twice.
-/

namespace AudioCatalog.Csv

/-- Whether a field with this character has to be put between quotes. -/
def needsQuotes (c : Char) : Bool :=
  c = ',' || c = '"' || c = '\r' || c = '\n'

/-- The characters of a field with every quote doubled. -/
def doubled : List Char → List Char
  | [] => []
  | c :: rest => if c = '"' then '"' :: '"' :: doubled rest else c :: doubled rest

/-- The written form of a field. -/
def field (chars : List Char) : List Char :=
  if chars.any needsQuotes then '"' :: (doubled chars ++ ['"']) else chars

/-- The written form of a record without its line end. -/
def fields : List (List Char) → List Char
  | [] => []
  | [only] => field only
  | first :: rest => field first ++ ',' :: fields rest

/-- The written form of a record. -/
def record (texts : List String) : List Char :=
  fields (texts.map String.toList) ++ ['\n']

/-- The written form of a table. -/
def table (records : List (List String)) : String :=
  String.ofList (records.flatMap record)

end AudioCatalog.Csv
