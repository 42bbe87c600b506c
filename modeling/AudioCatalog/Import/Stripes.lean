import AudioCatalog.Digest.Basic
import AudioCatalog.Number.LittleEndian

/-!
# Lock stripes

Imports that run side by side take turns if their digests share a stripe, so imports
of one recording always do.
-/

namespace AudioCatalog

/-- Locks that digests share; there is at least one. -/
structure LockStripes where
  count : Nat
  count_pos : 0 < count

namespace LockStripes

/-- The wanted number of stripes, or one. -/
def ofCount (count : Nat) : LockStripes :=
  ⟨max 1 count, by omega⟩

/-- The stripe of a digest. -/
def stripeOf (stripes : LockStripes) (digest : Digest) : Nat :=
  ofLittleEndian (digest.bytes.take 8) % stripes.count

end LockStripes

end AudioCatalog
