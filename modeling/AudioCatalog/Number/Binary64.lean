import AudioCatalog.Number.Rounding

/-!
# Binary floating-point numbers of 64 bits

A number is represented by its exact rational value, and an operation of the
format is the rational operation followed by `round`: 53 significant bits, the
nearest such number, the even one in the middle, and a fixed grid below the
smallest normal number.  Results here stay far below the largest finite number,
so overflow is not modelled.  `bits` is the interchange encoding.
-/

namespace AudioCatalog.Binary64

/-- The exponent of the largest power of two not above a positive number. -/
def log2 (q : Rat) : Int :=
  let guess : Int := Int.ofNat q.num.natAbs.log2 - Int.ofNat q.den.log2
  if pow2 guess ≤ q then guess else guess - 1

/-- The exponent of the last place that the format keeps of a nonzero number. -/
def lastPlace (q : Rat) : Int :=
  max (log2 (magnitude q) - 52) (-1074)

/-- The number of the format nearest to `q`. -/
def round (q : Rat) : Rat :=
  if q = 0 then 0
  else
    let unit := pow2 (lastPlace q)
    Rounding.halfEven (q / unit) * unit

/-- The encoding of a number of the format that is not negative. -/
def bits (q : Rat) : UInt64 :=
  if q = 0 then 0
  else
    let place := lastPlace q
    let significand := (q / pow2 place).floor
    UInt64.ofNat ((place + 1074) * 4503599627370496 + significand).toNat

/-- The sixteen hexadecimal digits of the encoding. -/
def hex (q : Rat) : String :=
  let digits := Nat.toDigits 16 (bits q).toNat
  String.ofList (List.replicate (16 - digits.length) '0' ++ digits)

/-- The decimal text of a number that is not negative, with the given number of
places; a number in the middle goes to the even last digit. -/
def toFixed (places : Nat) (q : Rat) : String :=
  let scale := Nat.pow 10 places
  let scaled := (Rounding.halfEven (q * Int.ofNat scale)).toNat
  let fraction := Nat.toDigits 10 (scaled % scale)
  String.ofList (Nat.toDigits 10 (scaled / scale) ++ '.' ::
    (List.replicate (places - fraction.length) '0' ++ fraction))

end AudioCatalog.Binary64
