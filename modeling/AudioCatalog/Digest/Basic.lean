import AudioCatalog.Text.Hex
import AudioCatalog.Digest.Sha256

/-!
# Exact digests

An exact digest is thirty-two bytes that name one decoded recording.  Digests are
ordered by their bytes, the first difference deciding, and shown in lower-case
hexadecimal.
-/

namespace AudioCatalog

/-- Thirty-two bytes that name the content of a recording. -/
structure Digest where
  bytes : List UInt8
  length_eq : bytes.length = 32
  deriving DecidableEq

/-- Compares byte strings by their first difference; a proper beginning comes first. -/
def compareBytes : List UInt8 → List UInt8 → Ordering
  | [], [] => .eq
  | [], _ :: _ => .lt
  | _ :: _, [] => .gt
  | a :: as, b :: bs =>
    if a < b then .lt else if b < a then .gt else compareBytes as bs

namespace Digest

/-- The digest with the given bytes, if there are thirty-two of them. -/
def ofBytes? (bytes : List UInt8) : Option Digest :=
  if h : bytes.length = 32 then some ⟨bytes, h⟩ else none

/-- The digest that a finished hash amounts to. -/
def ofChain (chain : Sha256.Chain) : Digest :=
  ⟨chain.bytes, chain.length_bytes⟩

/-- Reads sixty-four hexadecimal digits of either case. -/
def ofHex? (text : String) : Option Digest :=
  (Hex.decode? text).bind ofBytes?

/-- The sixty-four lower-case digits of a digest. -/
def hex (digest : Digest) : String :=
  Hex.encode digest.bytes

/-- The short form that tells digests apart in a diagnostic: the first twelve digits. -/
def brief (digest : Digest) : String :=
  s!"ExactDigest({Hex.encode (digest.bytes.take 6)})"

/-- The order of digests. -/
protected def compare (a b : Digest) : Ordering :=
  compareBytes a.bytes b.bytes

end Digest

end AudioCatalog
