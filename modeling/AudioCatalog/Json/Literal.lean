import AudioCatalog.Text.Hex

/-!
# String literals of JSON

Inside the quotes a character stands for itself, except that quotes, backslashes
and control characters are escaped.  An escape by number names a UTF-16 unit, so
text outside the basic plane takes two of them; `textOf?` joins such pairs and has
no answer for a unit that is left alone.
-/

namespace AudioCatalog.JsonLiteral

/-- A piece of a literal: a character, or a UTF-16 unit given by number. -/
inductive Piece where
  | char (c : Char)
  | unit (code : Nat)

/-- The value of four hexadecimal digits, and what follows them. -/
def unit? : List Char → Option (Nat × List Char)
  | a :: b :: c :: d :: rest => do
    let a ← Hex.value? a
    let b ← Hex.value? b
    let c ← Hex.value? c
    let d ← Hex.value? d
    return (((a * 16 + b) * 16 + c) * 16 + d, rest)
  | _ => none

/-- The character that an escape by letter names. -/
def named? : Char → Option Char
  | '"' => some '"'
  | '\\' => some '\\'
  | '/' => some '/'
  | 'b' => some '\x08'
  | 'f' => some '\x0c'
  | 'n' => some '\n'
  | 'r' => some '\r'
  | 't' => some '\t'
  | _ => none

/-- The pieces up to the closing quote, and what follows it. -/
def pieces? : Nat → List Char → Option (List Piece × List Char)
  | 0, _ => none
  | _ + 1, [] => none
  | _ + 1, '"' :: rest => some ([], rest)
  | fuel + 1, '\\' :: 'u' :: rest => do
    let (code, rest) ← unit? rest
    let (pieces, rest) ← pieces? fuel rest
    return (.unit code :: pieces, rest)
  | fuel + 1, '\\' :: c :: rest => do
    let c ← named? c
    let (pieces, rest) ← pieces? fuel rest
    return (.char c :: pieces, rest)
  | fuel + 1, c :: rest =>
    if c = '\\' || c.toNat < 32 then none
    else do
      let (pieces, rest) ← pieces? fuel rest
      return (.char c :: pieces, rest)

/-- The text of the pieces, unless a surrogate is unpaired. -/
def textOf? : List Piece → Option (List Char)
  | [] => some []
  | .char c :: rest => (textOf? rest).map (c :: ·)
  | .unit high :: rest =>
    if 0xDC00 ≤ high ∧ high ≤ 0xDFFF then none
    else if 0xD800 ≤ high ∧ high ≤ 0xDBFF then
      match rest with
      | .unit low :: rest =>
        if 0xDC00 ≤ low ∧ low ≤ 0xDFFF then
          (textOf? rest).map
            (Char.ofNat (0x10000 + (high - 0xD800) * 0x400 + (low - 0xDC00)) :: ·)
        else none
      | _ => none
    else (textOf? rest).map (Char.ofNat high :: ·)

/-- Two lower-case digits. -/
def twoDigits (n : Nat) : List Char :=
  [Hex.digit (n / 16), Hex.digit (n % 16)]

/-- How a character is written inside the quotes. -/
def escape (c : Char) : List Char :=
  if c = '"' then ['\\', '"']
  else if c = '\\' then ['\\', '\\']
  else if c = '\x08' then ['\\', 'b']
  else if c = '\x0c' then ['\\', 'f']
  else if c = '\n' then ['\\', 'n']
  else if c = '\r' then ['\\', 'r']
  else if c = '\t' then ['\\', 't']
  else if c.toNat < 32 then '\\' :: 'u' :: '0' :: '0' :: twoDigits c.toNat
  else [c]

/-- The literal of a text, with its quotes. -/
def write (text : List Char) : List Char :=
  '"' :: (text.flatMap escape ++ ['"'])

end AudioCatalog.JsonLiteral
