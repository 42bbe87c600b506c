import AudioCatalog.Number.Rounding

/-!
# Values of floating-point bit patterns

A pattern is read as sign, biased exponent and fraction.  All finite patterns
have an exact rational value; the two zeros share one.
-/

namespace AudioCatalog

/-- The field widths of a binary interchange format. -/
structure FloatFormat where
  fractionBits : Nat
  exponentBits : Nat

/-- The format of 32 bits. -/
def FloatFormat.binary32 : FloatFormat := ⟨23, 8⟩

/-- The format of 64 bits. -/
def FloatFormat.binary64 : FloatFormat := ⟨52, 11⟩

/-- What a bit pattern stands for. -/
inductive FloatValue where
  | nan
  | infinite (negative : Bool)
  | finite (value : Rat)

/-- The value of a bit pattern. -/
def FloatFormat.decode (format : FloatFormat) (pattern : Nat) : FloatValue :=
  let fractions := Nat.pow 2 format.fractionBits
  let exponents := Nat.pow 2 format.exponentBits
  let fraction := pattern % fractions
  let exponent := pattern / fractions % exponents
  let negative := pattern / (fractions * exponents) % 2 == 1
  let least : Int := 2 - Int.ofNat (exponents / 2) - Int.ofNat format.fractionBits
  if exponent = exponents - 1 then
    if fraction = 0 then .infinite negative else .nan
  else
    let size :=
      if exponent = 0 then Int.ofNat fraction * pow2 least
      else Int.ofNat (fractions + fraction) * pow2 (least + Int.ofNat exponent - 1)
    .finite (if negative then -size else size)

end AudioCatalog
