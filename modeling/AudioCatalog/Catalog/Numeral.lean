import AudioCatalog.Number.DoubleWord

/-!
# Numerals of the database

How a text is read as a number where a column prefers numbers, and how a real number is
written where a column prefers text.  A numeral may have blanks around it, a sign, a
point and an exponent.  Only the first nineteen or twenty digits count; those behind
them are replaced by zeros.  A written number has at most fifteen digits.
-/

namespace AudioCatalog.Numeral

/-- What a numeral stands for: an integer if it is written with digits only, and else a
significand times a power of ten. -/
inductive Value where
  | integer (value : Int)
  | real (value : Rat)

/-- Whether an integer fits into 64 bits with a sign. -/
def fits (value : Int) : Bool :=
  -9223372036854775808 ≤ value && value ≤ 9223372036854775807

/-- The blanks that may stand around a numeral. -/
def isSpace (c : Char) : Bool :=
  c = ' ' || (9 ≤ c.toNat && c.toNat ≤ 13)

/-- The number that some digits stand for. -/
def ofDigits (digits : List Char) : Nat :=
  digits.foldl (fun n c => 10 * n + (c.toNat - 48)) 0

/-- A significand that is not smaller takes no further digit. -/
def significandLimit : Nat := 1844674407370955160

/-- Takes digits in front of the point.  Each that the significand has no room for counts
into the exponent. -/
def takeWhole (significand : Nat) (exponent : Int) : List Char → Nat × Int
  | [] => (significand, exponent)
  | c :: rest =>
    if significand < significandLimit then
      takeWhole (10 * significand + (c.toNat - 48)) exponent rest
    else takeWhole significand (exponent + 1) rest

/-- Takes digits behind the point.  Those that the significand has no room for are left
out. -/
def takeFraction (significand : Nat) (exponent : Int) : List Char → Nat × Int
  | [] => (significand, exponent)
  | c :: rest =>
    if significand < significandLimit then
      takeFraction (10 * significand + (c.toNat - 48)) (exponent - 1) rest
    else takeFraction significand exponent rest

/-- The exponent that stands for all that have too many digits. -/
def longExponent : Nat := 10000

/-- The size of an exponent: once it has reached ten thousand, each further digit sets it to
just that. -/
def exponentSize (digits : List Char) : Nat :=
  digits.foldl
    (fun n c => if n < longExponent then 10 * n + (c.toNat - 48) else longExponent) 0

/-- The largest exponent that is told from others: beyond it every number is too large or
too small for the format. -/
def exponentLimit : Nat := 1000

/-- The exponent at the end of a numeral, if that is all there is. -/
def exponent? : List Char → Option Int
  | [] => some 0
  | mark :: rest =>
    let (negative, digits) := match rest with
      | '-' :: digits => (true, digits)
      | '+' :: digits => (false, digits)
      | digits => (false, digits)
    if (mark = 'e' || mark = 'E') && digits ≠ [] && digits.all Char.isDigit then
      let size := Int.ofNat (exponentSize digits)
      some (if negative then -size else size)
    else none

/-- A signed number. -/
def signed (negative : Bool) (size : Rat) : Rat :=
  if negative then -size else size

/-- The number that a text stands for.  An integer that needs more than 64 bits counts as
a real number. -/
def read? (text : String) : Option Value :=
  let chars := ((text.toList.dropWhile isSpace).reverse.dropWhile isSpace).reverse
  let (negative, chars) := match chars with
    | '-' :: rest => (true, rest)
    | '+' :: rest => (false, rest)
    | rest => (false, rest)
  let whole := chars.takeWhile Char.isDigit
  let (fraction, rest) := match chars.dropWhile Char.isDigit with
    | '.' :: rest => (rest.takeWhile Char.isDigit, rest.dropWhile Char.isDigit)
    | rest => ([], rest)
  if whole ++ fraction = [] then none
  else (exponent? rest).map fun exponent =>
    let size := Int.ofNat (ofDigits whole)
    let value := if negative then -size else size
    if whole = chars && fits value then .integer value
    else
      let (significand, shift) := takeWhole 0 0 whole
      let (significand, shift) := takeFraction significand shift fraction
      let limit := Int.ofNat exponentLimit
      .real (signed negative
        (DoubleWord.ofDecimal significand (Rounding.clamp (-limit) limit (shift + exponent))))

/-- The most digits of a number that is written. -/
def digitLimit : Nat := 15

/-- The digits of a natural number, without zeros at the end. -/
def significantDigits (n : Nat) : List Char :=
  ((Nat.toDigits 10 n).reverse.dropWhile (· = '0')).reverse

/-- The digits of a positive number, without zeros at the end, and how many of them stand
in front of the point. -/
def digitsOf (q : Rat) : List Char × Int :=
  let (value, exponent) := DoubleWord.decimal q
  let count := (Nat.toDigits 10 value).length
  let cut := Nat.pow 10 (count - digitLimit)
  let kept := value / cut + (if count > digitLimit ∧ 5 * cut ≤ 10 * (value % cut) then 1 else 0)
  let carried := (Nat.toDigits 10 kept).length - min count digitLimit
  (significantDigits kept, Int.ofNat (count + carried) + exponent)

/-- The digits in front of a point and behind it; where there is none a zero is written. -/
def pointed (front behind : List Char) : List Char :=
  let shown (digits : List Char) := if digits = [] then ['0'] else digits
  shown front ++ '.' :: shown behind

/-- An exponent with its sign and at least two digits. -/
def exponentText (exponent : Int) : List Char :=
  let digits := Nat.toDigits 10 exponent.natAbs
  'e' :: (if exponent < 0 then '-' else '+') ::
    (List.replicate (2 - digits.length) '0' ++ digits)

/-- The text of a positive number.  It has an exponent if it is smaller than a
ten-thousandth or has more digits in front of the point than are written. -/
def writePositive (q : Rat) : List Char :=
  let (digits, front) := digitsOf q
  if front < -3 ∨ Int.ofNat digitLimit < front then
    pointed (digits.take 1) (digits.drop 1) ++ exponentText (front - 1)
  else if 0 < front then
    let padded := digits ++ List.replicate (front.toNat - digits.length) '0'
    pointed (padded.take front.toNat) (padded.drop front.toNat)
  else pointed [] (List.replicate (-front).toNat '0' ++ digits)

/-- The text of a number; at least one digit is behind the point. -/
def write (q : Rat) : String :=
  String.ofList (
    if q = 0 then pointed [] []
    else if q < 0 then '-' :: writePositive (-q)
    else writePositive q)

end AudioCatalog.Numeral
