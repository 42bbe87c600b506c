/-!
# UTF-8

`pieces` splits a byte string into the scalar values it encodes and the maximal
broken stretches between them.  `decode?` accepts a string without a broken
stretch; `decodeLossy` shows each broken stretch as one replacement character.
A broken stretch is the longest front of a well-formed sequence that stands
there, or a single byte that can begin none.
-/

namespace AudioCatalog.Utf8

/-- Encodes text. -/
def encode (text : String) : List UInt8 :=
  text.toList.flatMap String.utf8EncodeChar

/-- A byte that continues a sequence without further condition. -/
def isContinuation (byte : UInt8) : Bool :=
  0x80 ≤ byte && byte ≤ 0xBF

/-- Whether `second` may follow `lead`.  The four special leads exclude overlong
forms, surrogates and values past the last code point. -/
def isSecond (lead second : UInt8) : Bool :=
  if lead = 0xE0 then 0xA0 ≤ second && second ≤ 0xBF
  else if lead = 0xED then 0x80 ≤ second && second ≤ 0x9F
  else if lead = 0xF0 then 0x90 ≤ second && second ≤ 0xBF
  else if lead = 0xF4 then 0x80 ≤ second && second ≤ 0x8F
  else isContinuation second

/-- The six low bits that a continuation byte carries. -/
def payload (byte : UInt8) : Nat :=
  byte.toNat % 64

/-- The scalar values of a byte string in order, with `none` for each maximal
broken stretch. -/
def pieces : List UInt8 → List (Option Char)
  | [] => []
  | lead :: rest =>
    if lead < 0x80 then some (Char.ofNat lead.toNat) :: pieces rest
    else if lead < 0xC2 || 0xF4 < lead then none :: pieces rest
    else match rest with
      | [] => [none]
      | second :: afterSecond =>
        if !isSecond lead second then none :: pieces (second :: afterSecond)
        else if lead < 0xE0 then
          some (Char.ofNat (lead.toNat % 32 * 64 + payload second)) :: pieces afterSecond
        else match afterSecond with
          | [] => [none]
          | third :: afterThird =>
            if !isContinuation third then none :: pieces (third :: afterThird)
            else if lead < 0xF0 then
              some (Char.ofNat
                ((lead.toNat % 16 * 64 + payload second) * 64 + payload third))
                :: pieces afterThird
            else match afterThird with
              | [] => [none]
              | fourth :: afterFourth =>
                if !isContinuation fourth then none :: pieces (fourth :: afterFourth)
                else
                  some (Char.ofNat
                    (((lead.toNat % 8 * 64 + payload second) * 64 + payload third) * 64
                      + payload fourth))
                    :: pieces afterFourth

/-- The text that a well-formed byte string encodes. -/
def decode? (bytes : List UInt8) : Option String :=
  ((pieces bytes).mapM id).map String.ofList

/-- The text of a byte string, with U+FFFD for each broken stretch. -/
def decodeLossy (bytes : List UInt8) : String :=
  String.ofList ((pieces bytes).map (·.getD '\uFFFD'))

end AudioCatalog.Utf8
