import AudioCatalog.Json.Basic
import AudioCatalog.Json.Literal

/-!
# Writing JSON

`compact` puts nothing between tokens; `pretty` puts each item and member on a line
of its own, indented by two blanks per level, and leaves empty arrays and objects on
one line.  A string without a text, which no value made by this library has, is
written as an empty literal.
-/

namespace AudioCatalog.Json

/-- Joins pieces with a separator. -/
def joined (separator : List Char) : List (List Char) → List Char
  | [] => []
  | [piece] => piece
  | piece :: rest => piece ++ separator ++ joined separator rest

/-- The characters of a literal. -/
def literalChars (value : Option String) : List Char :=
  JsonLiteral.write ((value.getD "").toList)

mutual

/-- The characters of the compact form. -/
def compactChars : Json → List Char
  | null => ['n', 'u', 'l', 'l']
  | bool true => ['t', 'r', 'u', 'e']
  | bool false => ['f', 'a', 'l', 's', 'e']
  | number token => token.toList
  | text value => literalChars value
  | array items => '[' :: (joined [','] (compactItems items) ++ [']'])
  | object members => '\x7b' :: (joined [','] (compactMembers members) ++ ['\x7d'])

/-- The compact forms of the items of an array. -/
def compactItems : List Json → List (List Char)
  | [] => []
  | item :: rest => compactChars item :: compactItems rest

/-- The compact forms of the members of an object. -/
def compactMembers : List (Option String × Json) → List (List Char)
  | [] => []
  | (name, value) :: rest =>
    (literalChars name ++ ':' :: compactChars value) :: compactMembers rest

end

/-- A line break and the indentation of a level. -/
def newline (level : Nat) : List Char :=
  '\n' :: List.replicate (2 * level) ' '

mutual

/-- The characters of the indented form at a level. -/
def prettyChars (level : Nat) : Json → List Char
  | array (item :: rest) =>
    '[' :: (newline (level + 1)
      ++ joined (',' :: newline (level + 1)) (prettyItems (level + 1) (item :: rest))
      ++ newline level ++ [']'])
  | object (member :: rest) =>
    '\x7b' :: (newline (level + 1)
      ++ joined (',' :: newline (level + 1)) (prettyMembers (level + 1) (member :: rest))
      ++ newline level ++ ['\x7d'])
  | null => ['n', 'u', 'l', 'l']
  | bool value => compactChars (bool value)
  | number token => token.toList
  | text value => literalChars value
  | array [] => ['[', ']']
  | object [] => ['\x7b', '\x7d']

/-- The indented forms of the items of an array. -/
def prettyItems (level : Nat) : List Json → List (List Char)
  | [] => []
  | item :: rest => prettyChars level item :: prettyItems level rest

/-- The indented forms of the members of an object. -/
def prettyMembers (level : Nat) : List (Option String × Json) → List (List Char)
  | [] => []
  | (name, value) :: rest =>
    (literalChars name ++ ':' :: ' ' :: prettyChars level value) :: prettyMembers level rest

end

/-- The compact text of a value. -/
def compact (value : Json) : String :=
  String.ofList value.compactChars

/-- The indented text of a value. -/
def pretty (value : Json) : String :=
  String.ofList (value.prettyChars 0)

end AudioCatalog.Json
