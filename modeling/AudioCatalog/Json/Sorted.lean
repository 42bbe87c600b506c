import AudioCatalog.Json.Basic

/-!
# JSON with sorted members

The members of every object in the order of their names.  Members of one name stay in
their order.
-/

namespace AudioCatalog.Json

/-- Whether a member may stand before another one. -/
def sortsBefore (a b : Option String × Json) : Bool :=
  !decide (b.1.getD "" < a.1.getD "")

mutual

/-- The value with the members of all objects sorted. -/
def sorted : Json → Json
  | array items => array (sortedItems items)
  | object members => object ((sortedMembers members).mergeSort sortsBefore)
  | null => null
  | bool value => bool value
  | number token => number token
  | text value => text value

/-- The items of an array, each sorted. -/
def sortedItems : List Json → List Json
  | [] => []
  | item :: rest => sorted item :: sortedItems rest

/-- The members of an object with sorted values. -/
def sortedMembers : List (Option String × Json) → List (Option String × Json)
  | [] => []
  | (name, value) :: rest => (name, sorted value) :: sortedMembers rest

end

end AudioCatalog.Json
