import AudioCatalog.Catalog.Entry
import AudioCatalog.Error

/-!
# How imports end

An import ends in one of three ways: it is committed, the file is rejected and left
alone, or it fails at a stage.  Looking for a recording in the catalog ends in a
finding or the same kind of failure.
-/

namespace AudioCatalog

/-- The stages that an import passes through. -/
inductive Stage where
  | started
  | fingerprinted
  | resolved
  | committed
  deriving DecidableEq

/-- The word for a stage. -/
def Stage.label : Stage → String
  | started => "started"
  | fingerprinted => "fingerprinted"
  | resolved => "resolved"
  | committed => "committed"

/-- Why a file is left alone. -/
inductive Rejection where
  | notRegular
  | emptyFile
  /-- A reason that is known by its wording only. -/
  | other (text : String)
  deriving DecidableEq

/-- The wording of a rejection. -/
def Rejection.message : Rejection → String
  | notRegular => "not a regular file"
  | emptyFile => "file is empty"
  | other text => text

/-- What a commit did. -/
inductive CommitEffect where
  /-- A new identity was made. -/
  | inserted
  /-- A source was added to an identity. -/
  | attached
  deriving DecidableEq

/-- The word for an effect. -/
def CommitEffect.label : CommitEffect → String
  | inserted => "inserted"
  | attached => "attached"

/-- What deserves attention about a committed import. -/
inductive Remark where
  /-- Several identities were too close to call, so the recording became a new one. -/
  | ambiguous (ids : List IdentityId)
  /-- The recording had no acoustic key, so only its digest was compared. -/
  | digestOnly
  /-- The import is committed but the file is still there. -/
  | notRemoved (cause : FileError)
  deriving DecidableEq

/-- An import that is in the catalog. -/
structure Receipt where
  path : Pathname
  identity : IdentityId
  digest : Digest
  verdict : Verdict
  effect : CommitEffect
  fileRemoved : Bool
  remarks : List Remark
  deriving DecidableEq

/-- How an import ends that does not fail. -/
inductive Outcome where
  | committed (receipt : Receipt)
  | rejected (path : Pathname) (reason : Rejection)
  deriving DecidableEq

/-- A failed import: the file, the stage that was not passed, and the cause. -/
structure ImportFault where
  path : Pathname
  stage : Stage
  error : Error

/-- The wording of a failure. -/
def ImportFault.message (fault : ImportFault) : String :=
  s!"import of {fault.path.shown} failed at stage {fault.stage.label}: {fault.error.message}"

/-- How an import ends. -/
abbrev Conclusion := Except ImportFault Outcome

/-- In which way a recording is in the catalog. -/
inductive Likeness where
  | exact
  | perceptual (similarity : Rat)
  | ambiguous (candidates : Nat)
  deriving DecidableEq

/-- Whether a recording is in the catalog. -/
structure Finding where
  path : Pathname
  digest : Digest
  resolution : Resolution
  deriving DecidableEq

namespace Finding

/-- In which way the recording is in the catalog, if it is. -/
def likeness? (finding : Finding) : Option Likeness :=
  match finding.resolution.verdict with
  | .new => none
  | .exact _ => some .exact
  | .perceptual _ similarity => some (.perceptual similarity)
  | .ambiguous candidates => some (.ambiguous candidates.length)

/-- Whether the recording is in the catalog, in any way. -/
def found (finding : Finding) : Bool :=
  finding.likeness?.isSome

end Finding

end AudioCatalog
