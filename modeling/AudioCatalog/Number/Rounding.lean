/-!
# Rounding a rational number to an integer

Three rules, which differ in what happens to a number between two integers:
`halfEven` and `halfAway` take the nearer one and disagree about a number just in
the middle, `truncate` takes the one closer to zero.  `pow2` supplies the exact
scale factors, and `clamp` bounds the result.
-/

namespace AudioCatalog

/-- Two to an integer power, exactly. -/
def pow2 : Int → Rat
  | .ofNat n => mkRat (Int.ofNat (Nat.pow 2 n)) 1
  | .negSucc n => mkRat 1 (Nat.pow 2 (n + 1))

/-- The absolute value of a rational number. -/
def magnitude (q : Rat) : Rat :=
  if q < 0 then -q else q

namespace Rounding

/-- The nearest integer; a number in the middle goes to the even neighbour. -/
def halfEven (q : Rat) : Int :=
  let below := q.floor
  let excess := q - below
  if excess < mkRat 1 2 then below
  else if mkRat 1 2 < excess then below + 1
  else if below % 2 = 0 then below
  else below + 1

/-- The nearest integer; a number in the middle goes away from zero. -/
def halfAway (q : Rat) : Int :=
  if q < 0 then -(mkRat 1 2 - q).floor else (q + mkRat 1 2).floor

/-- The integer part: the nearest integer that is not further from zero. -/
def truncate (q : Rat) : Int :=
  if q < 0 then -(-q).floor else q.floor

/-- The integer of an interval closest to `n`. -/
def clamp (low high n : Int) : Int :=
  if n < low then low else if high < n then high else n

end Rounding

end AudioCatalog
