/-!
# SHA-256

The hash of the Secure Hash Standard over byte lists.  `Hasher` takes a message
in pieces of any length: `start`, any number of `update`, then `finish`.  `hash`
does the same for a message that is there as a whole.
-/

namespace AudioCatalog.Sha256

/-- The eight words of the chaining value. -/
structure Chain where
  a : UInt32
  b : UInt32
  c : UInt32
  d : UInt32
  e : UInt32
  f : UInt32
  g : UInt32
  h : UInt32
  deriving DecidableEq

/-- The chaining value before the first block. -/
def Chain.initial : Chain :=
  ⟨0x6a09e667, 0xbb67ae85, 0x3c6ef372, 0xa54ff53a,
    0x510e527f, 0x9b05688c, 0x1f83d9ab, 0x5be0cd19⟩

/-- Word by word sum. -/
def Chain.add (x y : Chain) : Chain :=
  ⟨x.a + y.a, x.b + y.b, x.c + y.c, x.d + y.d, x.e + y.e, x.f + y.f, x.g + y.g, x.h + y.h⟩

/-- The additive constants of the sixty-four rounds. -/
def constants : List UInt32 := [
  0x428a2f98, 0x71374491, 0xb5c0fbcf, 0xe9b5dba5, 0x3956c25b, 0x59f111f1, 0x923f82a4, 0xab1c5ed5,
  0xd807aa98, 0x12835b01, 0x243185be, 0x550c7dc3, 0x72be5d74, 0x80deb1fe, 0x9bdc06a7, 0xc19bf174,
  0xe49b69c1, 0xefbe4786, 0x0fc19dc6, 0x240ca1cc, 0x2de92c6f, 0x4a7484aa, 0x5cb0a9dc, 0x76f988da,
  0x983e5152, 0xa831c66d, 0xb00327c8, 0xbf597fc7, 0xc6e00bf3, 0xd5a79147, 0x06ca6351, 0x14292967,
  0x27b70a85, 0x2e1b2138, 0x4d2c6dfc, 0x53380d13, 0x650a7354, 0x766a0abb, 0x81c2c92e, 0x92722c85,
  0xa2bfe8a1, 0xa81a664b, 0xc24b8b70, 0xc76c51a3, 0xd192e819, 0xd6990624, 0xf40e3585, 0x106aa070,
  0x19a4c116, 0x1e376c08, 0x2748774c, 0x34b0bcb5, 0x391c0cb3, 0x4ed8aa4a, 0x5b9cca4f, 0x682e6ff3,
  0x748f82ee, 0x78a5636f, 0x84c87814, 0x8cc70208, 0x90befffa, 0xa4506ceb, 0xbef9a3f7, 0xc67178f2]

/-- Rotation of a word to the right. -/
def rotate (x : UInt32) (n : UInt32) : UInt32 :=
  (x >>> n) ||| (x <<< (32 - n))

/-- One round: mixes a constant and a word of the schedule into the eight words. -/
def step (s : Chain) (mixed : UInt32 × UInt32) : Chain :=
  let sum1 := rotate s.e 6 ^^^ rotate s.e 11 ^^^ rotate s.e 25
  let choice := (s.e &&& s.f) ^^^ ((s.e ^^^ 0xffffffff) &&& s.g)
  let t1 := s.h + sum1 + choice + mixed.1 + mixed.2
  let sum0 := rotate s.a 2 ^^^ rotate s.a 13 ^^^ rotate s.a 22
  let majority := (s.a &&& s.b) ^^^ (s.a &&& s.c) ^^^ (s.b &&& s.c)
  ⟨t1 + (sum0 + majority), s.a, s.b, s.c, s.d + t1, s.e, s.f, s.g⟩

/-- Adds the next word to the message schedule. -/
def extend (w : Array UInt32) : Array UInt32 :=
  let n := w.size
  let w2 := w.getD (n - 2) 0
  let w15 := w.getD (n - 15) 0
  w.push ((rotate w2 17 ^^^ rotate w2 19 ^^^ (w2 >>> 10)) + w.getD (n - 7) 0
    + (rotate w15 7 ^^^ rotate w15 18 ^^^ (w15 >>> 3)) + w.getD (n - 16) 0)

/-- The big-endian words of a block. -/
def words : List UInt8 → List UInt32
  | b0 :: b1 :: b2 :: b3 :: rest =>
    ((b0.toUInt32 <<< 24) ||| (b1.toUInt32 <<< 16) ||| (b2.toUInt32 <<< 8) ||| b3.toUInt32)
      :: words rest
  | _ => []

/-- The compression function, on a block of sixty-four bytes. -/
def compress (chain : Chain) (block : List UInt8) : Chain :=
  let schedule := Nat.repeat extend 48 (words block).toArray
  chain.add ((constants.zip schedule.toList).foldl step chain)

/-- Compresses the complete blocks at the front; what is left is shorter than a
block. -/
def absorb (chain : Chain) (bytes : List UInt8) : Chain × List UInt8 :=
  if (bytes.drop 63).isEmpty then (chain, bytes)
  else absorb (compress chain (bytes.take 64)) (bytes.drop 64)
termination_by bytes.length
decreasing_by
  rename_i more
  simp only [List.isEmpty_iff, List.drop_eq_nil_iff] at more
  simp only [List.length_drop]
  omega

/-- The big-endian bytes of a word. -/
def wordBytes (w : UInt32) : List UInt8 :=
  [(w >>> 24).toUInt8, (w >>> 16).toUInt8, (w >>> 8).toUInt8, w.toUInt8]

/-- The bytes of the chaining value. -/
def Chain.bytes (s : Chain) : List UInt8 :=
  wordBytes s.a ++ wordBytes s.b ++ wordBytes s.c ++ wordBytes s.d
    ++ wordBytes s.e ++ wordBytes s.f ++ wordBytes s.g ++ wordBytes s.h

theorem Chain.length_bytes (s : Chain) : s.bytes.length = 32 := by
  simp [Chain.bytes, wordBytes]

/-- What follows a message of the given length: a one bit, zeros up to eight bytes
before the end of a block, and the length in bits. -/
def padding (length : Nat) : List UInt8 :=
  let zeros := (119 - length % 64) % 64
  let bits := length * 8
  0x80 :: (List.replicate zeros (0 : UInt8)
    ++ [56, 48, 40, 32, 24, 16, 8, 0].map fun shift => UInt8.ofNat (bits >>> shift))

/-- A hash in progress: the chaining value after the complete blocks, the bytes of
the incomplete one, and the length so far. -/
structure Hasher where
  chain : Chain
  pending : List UInt8
  length : Nat

/-- A hash of nothing yet. -/
def Hasher.start : Hasher :=
  ⟨Chain.initial, [], 0⟩

/-- Takes the next bytes of the message. -/
def Hasher.update (hasher : Hasher) (bytes : List UInt8) : Hasher :=
  let (chain, pending) := absorb hasher.chain (hasher.pending ++ bytes)
  ⟨chain, pending, hasher.length + bytes.length⟩

/-- The chaining value after the padding. -/
def Hasher.finish (hasher : Hasher) : Chain :=
  (absorb hasher.chain (hasher.pending ++ padding hasher.length)).1

/-- The hash of a whole message, as a chaining value. -/
def hash (message : List UInt8) : Chain :=
  (absorb Chain.initial (message ++ padding message.length)).1

end AudioCatalog.Sha256
