import AudioCatalog.Import.Conclusion
import AudioCatalog.Import.World

/-!
# Phases of an import

An import passes through phases, each of which does one thing to the world at once.
`Phase.remaining` counts the steps that are left.
-/

namespace AudioCatalog

/-- What is known of a file after decoding. -/
structure Decoded where
  facts : FileFacts
  metadata : Metadata
  digest : Digest
  key : Option AcousticKey
  deriving DecidableEq

/-- How far an import has got. -/
inductive Phase where
  | starting
  | admitted (facts : FileFacts)
  | fingerprinted (decoded : Decoded)
  | resolved (decoded : Decoded) (resolution : Resolution)
  /-- The import can no longer be cancelled. -/
  | claimed (decoded : Decoded) (resolution : Resolution)
  /-- The commit failed and the claim is still to be given back. -/
  | rolledBack (error : Error)
  /-- The commit is done and the file still to be dealt with. -/
  | committed (receipt : Receipt)
  | finished (conclusion : Conclusion)

namespace Phase

/-- The most steps that are still to be taken. -/
def remaining : Phase → Nat
  | starting => 6
  | admitted _ => 5
  | fingerprinted _ => 4
  | resolved .. => 3
  | claimed .. => 2
  | rolledBack _ | committed _ => 1
  | finished _ => 0

/-- How the import ended, if it has. -/
def conclusion? : Phase → Option Conclusion
  | finished conclusion => some conclusion
  | _ => none

theorem remaining_pos {phase : Phase} (unfinished : phase.conclusion? = none) :
    0 < phase.remaining := by
  cases phase <;> simp_all [conclusion?, remaining]

/-- The stage that begins with a phase, if one does. -/
def stage? : Phase → Option Stage
  | starting => some .started
  | fingerprinted _ => some .fingerprinted
  | resolved .. => some .resolved
  | committed _ => some .committed
  | admitted _ | claimed .. | rolledBack _ | finished _ => none

/-- The digest whose lock an import holds in a phase: from the look-up to the end of
the commit. -/
def lockedDigest? : Phase → Option Digest
  | resolved decoded _ | claimed decoded _ => some decoded.digest
  | starting | admitted _ | fingerprinted _ | rolledBack _ | committed _ | finished _ => none

end Phase

end AudioCatalog
