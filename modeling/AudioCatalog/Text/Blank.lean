/-!
# Blank characters

The characters with the Unicode property `White_Space`.  A path that holds
nothing else counts as empty.
-/

namespace AudioCatalog

/-- Whether a character has the property `White_Space`. -/
def isBlank (c : Char) : Bool :=
  let n := c.toNat
  (9 ≤ n && n ≤ 13) || n == 0x20 || n == 0x85 || n == 0xA0 || n == 0x1680
    || (0x2000 ≤ n && n ≤ 0x200A) || n == 0x2028 || n == 0x2029 || n == 0x202F
    || n == 0x205F || n == 0x3000

/-- Whether a text consists of blank characters only, as the empty text does. -/
def isBlankText (text : String) : Bool :=
  text.toList.all isBlank

end AudioCatalog
