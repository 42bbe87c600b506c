import AudioCatalog.Number.Binary64

/-!
# Numbers in two words

A number in two words is the sum of two binary64 numbers, the second of which continues
the digits of the first.  Multiplying such numbers by powers of ten carries enough
digits for going from decimal to binary and back: `ofDecimal` finds the binary64 number
for a significand and an exponent, and `decimal` finds seventeen or more digits of one.
Both differ from exact arithmetic in rare last digits, since each product is rounded.
-/

namespace AudioCatalog

/-- The sum of two binary64 numbers. -/
structure DoubleWord where
  high : Rat
  low : Rat

namespace DoubleWord

/-- The upper half of the digits of a binary64 number. -/
def upperHalf (q : Rat) : Rat :=
  if q = 0 then 0
  else
    let unit := pow2 (Binary64.lastPlace q + 26)
    Rounding.truncate (q / unit) * unit

/-- The product of two binary64 numbers and what its rounding leaves out. -/
def product (x y : Rat) : DoubleWord :=
  let x1 := upperHalf x
  let x2 := x - x1
  let y1 := upperHalf y
  let y2 := y - y1
  let outer := Binary64.round (x1 * y1)
  let middle := Binary64.round (Binary64.round (x1 * y2) + Binary64.round (x2 * y1))
  let high := Binary64.round (outer + middle)
  let left := Binary64.round (Binary64.round (outer - high) + middle)
  ⟨high, Binary64.round (left + Binary64.round (x2 * y2))⟩

/-- The product of two numbers. -/
def mul (x y : DoubleWord) : DoubleWord :=
  let main := product x.high y.high
  let cross := Binary64.round (Binary64.round (x.high * y.low) + Binary64.round (x.low * y.high))
  let rest := Binary64.round (cross + main.low)
  let high := Binary64.round (main.high + rest)
  ⟨high, Binary64.round (Binary64.round (main.high - high) + rest)⟩

/-- Ten to an integer power, exactly. -/
def pow10 : Int → Rat
  | .ofNat n => mkRat (Int.ofNat (Nat.pow 10 n)) 1
  | .negSucc n => mkRat 1 (Nat.pow 10 (n + 1))

/-- The number in two words that is closest to a power of ten. -/
def tenTo (exponent : Int) : DoubleWord :=
  let high := Binary64.round (pow10 exponent)
  ⟨high, Binary64.round (pow10 exponent - high)⟩

/-- The largest binary64 number below two to the 64th. -/
def wordLimit : Nat := 18446744073709549568

/-- A number of 64 bits. -/
def ofNat (n : Nat) : DoubleWord :=
  let high := Binary64.round (mkRat (Int.ofNat n) 1)
  ⟨high, if high ≤ mkRat (Int.ofNat wordLimit) 1 then mkRat (Int.ofNat n) 1 - high else 0⟩

/-- The number times a power of ten, in steps of a hundred, ten and one. -/
def scale (x : DoubleWord) (exponent : Int) : DoubleWord :=
  let unit : Int := if exponent < 0 then -1 else 1
  let size := exponent.natAbs
  let times (x : DoubleWord) (count step : Nat) : DoubleWord :=
    Nat.repeat (fun x => x.mul (tenTo (unit * Int.ofNat step))) count x
  times (times (times x (size / 100) 100) (size % 100 / 10) 10) (size % 10) 1

/-- Moves powers of ten from an exponent into a significand that has room for them. -/
def absorb : Nat → Nat → Nat × Nat
  | significand, 0 => (significand, 0)
  | significand, exponent + 1 =>
    if significand < (18446744073709551615 - 2047) / 10 then
      absorb (10 * significand) exponent
    else (significand, exponent + 1)

/-- Cancels powers of ten in a significand against those of a denominator. -/
def cancel : Nat → Nat → Nat × Nat
  | significand, 0 => (significand, 0)
  | significand, exponent + 1 =>
    if significand % 10 = 0 then cancel (significand / 10) exponent
    else (significand, exponent + 1)

/-- The binary64 number for a significand of 64 bits times a power of ten. -/
def ofDecimal (significand : Nat) (exponent : Int) : Rat :=
  let (significand, exponent) : Nat × Int :=
    if 0 ≤ exponent then
      let (significand, exponent) := absorb significand exponent.toNat
      (significand, Int.ofNat exponent)
    else
      let (significand, exponent) := cancel significand (-exponent).toNat
      (significand, -Int.ofNat exponent)
  if exponent = 0 then Binary64.round (mkRat (Int.ofNat significand) 1)
  else
    let scaled := (ofNat significand).scale exponent
    Binary64.round (scaled.high + scaled.low)

/-- Multiplies by a power of ten, at most ten times, as long as a condition holds of the
first word, and counts the exponent back. -/
def scaleWhile (condition : Rat → Bool) (step : Int) (state : DoubleWord × Int) :
    DoubleWord × Int :=
  Nat.repeat (fun (x, exponent) =>
    if condition x.high then (x.mul (tenTo step), exponent - step) else (x, exponent)) 10 state

/-- A bound of the range that digits are taken in, which is ten times as large as another
such bound: the last binary64 number below two to the 63rd, moved by a power of ten. -/
def bound (exponent : Int) : Rat :=
  Binary64.round (mkRat 9223372036854774784 1 * pow10 exponent)

/-- The least number that eighteen digits are taken of. -/
def leastScaled : Rat :=
  Binary64.round (mkRat 922337203685477478 1)

/-- The digits of a positive binary64 number as a natural number, and the exponent of the
power of ten that they are to be multiplied by. -/
def decimal (q : Rat) : Nat × Int :=
  let start : DoubleWord × Int := (⟨q, 0⟩, 0)
  let (x, exponent) :=
    if bound 0 < q then
      scaleWhile (bound 0 < ·) (-1)
        (scaleWhile (bound 10 < ·) (-10) (scaleWhile (bound 100 < ·) (-100) start))
    else
      scaleWhile (· < leastScaled) 1
        (scaleWhile (· < bound (-11)) 10 (scaleWhile (· < bound (-101)) 100 start))
  ((Rounding.truncate x.high + Rounding.truncate x.low).toNat, exponent)

end DoubleWord

end AudioCatalog
