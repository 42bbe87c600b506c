/-!
# Code point ranges

A property of characters is listed as the ranges of code points that have it,
in increasing order.  `Ranges.contains` looks a code point up in such a list.
-/

namespace AudioCatalog

/-- Inclusive ranges of code points. -/
abbrev Ranges := List (Nat × Nat)

/-- Whether a code point lies in one of the ranges. -/
def Ranges.contains (ranges : Ranges) (codePoint : Nat) : Bool :=
  ranges.any fun (first, last) => first ≤ codePoint && codePoint ≤ last

end AudioCatalog
