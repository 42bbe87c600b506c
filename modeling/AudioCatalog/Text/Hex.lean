/-!
# Hexadecimal text of byte strings

`encode` writes two lower-case digits per byte.  `decode?` reads digits of either
case and refuses an odd number of them, so it accepts every text that `encode`
writes and the upper-case spellings beside it.
-/

namespace AudioCatalog.Hex

/-- The lower-case digit of a value below sixteen. -/
def digit (value : Nat) : Char :=
  Char.ofNat (if value < 10 then 48 + value else 87 + value)

/-- The value of a digit in either case. -/
def value? (c : Char) : Option Nat :=
  let n := c.toNat
  if 48 ≤ n ∧ n ≤ 57 then some (n - 48)
  else if 97 ≤ n ∧ n ≤ 102 then some (n - 87)
  else if 65 ≤ n ∧ n ≤ 70 then some (n - 55)
  else none

/-- The digits of a byte string, the high half of each byte first. -/
def digits : List UInt8 → List Char
  | [] => []
  | byte :: rest => digit (byte.toNat / 16) :: digit (byte.toNat % 16) :: digits rest

/-- The lower-case hexadecimal text of a byte string. -/
def encode (bytes : List UInt8) : String :=
  String.ofList (digits bytes)

/-- The bytes that pairs of digits stand for. -/
def ofDigits? : List Char → Option (List UInt8)
  | [] => some []
  | [_] => none
  | high :: low :: rest => do
    let h ← value? high
    let l ← value? low
    let bytes ← ofDigits? rest
    return UInt8.ofNat (16 * h + l) :: bytes

/-- Reads hexadecimal text; anything but pairs of digits is refused. -/
def decode? (text : String) : Option (List UInt8) :=
  ofDigits? text.toList

/-- The digits of a number without leading zeros, for text that shows a code point. -/
def natDigits (n : Nat) : List Char :=
  Nat.toDigits 16 n

end AudioCatalog.Hex
