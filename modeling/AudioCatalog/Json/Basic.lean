/-!
# JSON values

A value is kept as it was written where that can matter later: a number is its
token, and a string literal whose escapes name an unpaired surrogate is well
formed but has no text.  Members of an object keep their order and repetitions.
-/

namespace AudioCatalog

/-- A JSON value. -/
inductive Json where
  | null
  | bool (value : Bool)
  /-- A number by its token. -/
  | number (token : String)
  /-- A string literal, with its text if it has one. -/
  | text (value : Option String)
  | array (items : List Json)
  | object (members : List (Option String × Json))

namespace Json

/-- The string value with the given text. -/
def ofText (value : String) : Json :=
  text (some value)

/-- A natural number in decimal. -/
def ofNat (n : Nat) : Json :=
  number (toString n)

/-- An object whose names are texts. -/
def ofMembers (members : List (String × Json)) : Json :=
  object (members.map fun (name, value) => (some name, value))

/-- The text of a string value. -/
def text? : Json → Option String
  | text value => value
  | _ => none

/-- The value of a number that is written with digits only and is at most `limit`. -/
def natUpTo? (limit : Nat) : Json → Option Nat
  | number token =>
    let digits := token.toList
    if digits.all Char.isDigit then
      let value := digits.foldl (fun n c => 10 * n + (c.toNat - 48)) 0
      if value ≤ limit then some value else none
    else none
  | _ => none

end Json

end AudioCatalog
