/-!
# Little-endian numbers

Fixed-width numbers as byte strings with the lowest byte first.  Reading a number
takes whatever bytes are there, so a caller checks the length first.
-/

namespace AudioCatalog

/-- The two bytes of a 16-bit number. -/
def littleEndian16 (n : UInt16) : List UInt8 :=
  [n.toUInt8, (n >>> 8).toUInt8]

/-- The four bytes of a 32-bit number. -/
def littleEndian32 (n : UInt32) : List UInt8 :=
  [n.toUInt8, (n >>> 8).toUInt8, (n >>> 16).toUInt8, (n >>> 24).toUInt8]

/-- The number that a byte string of any length stands for. -/
def ofLittleEndian : List UInt8 → Nat
  | [] => 0
  | byte :: rest => byte.toNat + 256 * ofLittleEndian rest

/-- The 32-bit numbers that complete groups of four bytes stand for. -/
def littleEndianWords : List UInt8 → List UInt32
  | b0 :: b1 :: b2 :: b3 :: rest =>
    UInt32.ofNat (ofLittleEndian [b0, b1, b2, b3]) :: littleEndianWords rest
  | _ => []

theorem length_littleEndianWords (bytes : List UInt8) :
    (littleEndianWords bytes).length = bytes.length / 4 := by
  fun_induction littleEndianWords bytes with
  | case1 b0 b1 b2 b3 rest ih => simp only [List.length_cons, ih]; omega
  | case2 bytes short =>
    match bytes, short with
    | [], _ | [_], _ | [_, _], _ | [_, _, _], _ => simp
    | b0 :: b1 :: b2 :: b3 :: rest, short => exact (short b0 b1 b2 b3 rest rfl).elim

end AudioCatalog
