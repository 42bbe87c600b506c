import AudioCatalog.Acoustic.Similarity
import AudioCatalog.Catalog.Ids
import AudioCatalog.Digest.Basic

/-!
# Identifying a recording

A recording is the same as a catalogued one when the digests agree.  In careful
mode a recording with an unknown digest is also compared by its acoustic key, and
the verdict says whether one catalogued identity leads clearly, several are too
close to call, or none comes near.  The catalog is seen through `Lookup`,
which may fail.
-/

namespace AudioCatalog

/-- What has to be known of a catalogued identity to identify a recording. -/
structure Known where
  id : IdentityId
  digest : Digest
  key : Option AcousticKey
  deriving DecidableEq

/-- Read access to a catalog.  `byBucket` takes the first and last bucket of a
range. -/
structure Lookup (ε : Type) where
  byDigest : Digest → Except ε (Option Known)
  byBucket : Nat × Nat → Except ε (List Known)

/-- A catalogued identity that sounds similar enough. -/
structure Candidate where
  id : IdentityId
  digest : Digest
  similarity : Rat
  deriving DecidableEq

/-- What became of comparing a recording with the catalog. -/
inductive Verdict where
  /-- Nothing in the catalog matches. -/
  | new
  /-- The digest is that of an identity. -/
  | exact (id : IdentityId)
  /-- One identity sounds alike and leads clearly. -/
  | perceptual (id : IdentityId) (similarity : Rat)
  /-- Several identities sound alike; the best comes first, and the lower digest of
  equally good ones. -/
  | ambiguous (candidates : List Candidate)
  deriving DecidableEq

namespace Verdict

/-- The identity that the recording belongs to; an ambiguous one belongs to none. -/
def matched : Verdict → Option IdentityId
  | exact id => some id
  | perceptual id _ => some id
  | new | ambiguous _ => none

/-- The word for the kind of verdict. -/
def label : Verdict → String
  | new => "new"
  | exact _ => "exact"
  | perceptual _ _ => "perceptual"
  | ambiguous _ => "ambiguous"

end Verdict

/-- A verdict, and whether a careful comparison was asked for but impossible because
the recording has no acoustic key. -/
structure Resolution where
  verdict : Verdict
  digestOnly : Bool
  deriving DecidableEq

namespace Resolution

/-- The order of candidates: higher similarity first, then the lower digest. -/
def precedes (a b : Candidate) : Bool :=
  if a.similarity = b.similarity then a.digest.compare b.digest != .gt
  else b.similarity < a.similarity

/-- Drops a candidate that directly follows one of the same identity. -/
def dropRepeats (last : Option IdentityId) : List Candidate → List Candidate
  | [] => []
  | candidate :: rest =>
    if last = some candidate.id then dropRepeats last rest
    else candidate :: dropRepeats (some candidate.id) rest

/-- The verdict over the accepted candidates, in any order. -/
def verdictOf (accepted : List Candidate) : Verdict :=
  match dropRepeats none (accepted.mergeSort precedes) with
  | [] => .new
  | [only] => .perceptual only.id only.similarity
  | best :: second :: rest =>
    if clearLead ≤ Binary64.round (best.similarity - second.similarity) then
      .perceptual best.id best.similarity
    else
      let bound := Binary64.round (best.similarity - clearLead)
      .ambiguous ((best :: second :: rest).filter fun c => bound < c.similarity)

/-- The candidate that an identity makes for a key, if it is similar enough. -/
def candidate? (key : AcousticKey) (known : Known) : Option Candidate :=
  known.key.bind fun other =>
    let score := key.similarity other
    if matchThreshold ≤ score then some ⟨known.id, known.digest, score⟩ else none

end Resolution

/-- Compares a recording with a catalog. -/
def identify {ε : Type} (digest : Digest) (key : Option AcousticKey) (lookup : Lookup ε)
    (careful : Bool) : Except ε Resolution := do
  match ← lookup.byDigest digest with
  | some known => return ⟨.exact known.id, false⟩
  | none =>
    if !careful then return ⟨.new, false⟩
    match key with
    | none => return ⟨.new, true⟩
    | some key =>
      let known ← lookup.byBucket key.nearbyBuckets
      return ⟨Resolution.verdictOf (known.filterMap (Resolution.candidate? key)), false⟩

end AudioCatalog
