import AudioCatalog.Import.Decoder
import AudioCatalog.Import.Job
import AudioCatalog.Import.Phase

/-!
# Running an import

An import looks at the file, decodes it, compares it with the catalog, claims the commit
point of its token, commits, and removes the file.  Nothing is written before the
commit, and the file goes only after it.  `Importer.advance` is one step, `Importer.drive`
takes all of them and lets an observer act on the world between any two.
-/

namespace AudioCatalog

/-- How imports are done: who decodes, and how long that may take. -/
structure Importer where
  decoder : Decoder Catalog
  timeout : Span

/-- The remarks that a resolution gives rise to. -/
def Resolution.remarks (resolution : Resolution) : List Remark :=
  (if resolution.digestOnly then [.digestOnly] else []) ++
    match resolution.verdict with
    | .ambiguous candidates => [.ambiguous (candidates.map (·.id))]
    | .new | .exact _ | .perceptual .. => []

namespace ImportJob

/-- The end of an import that fails. -/
def failed (job : ImportJob) (stage : Stage) (error : Error) : Phase :=
  .finished (.error ⟨job.path, stage, error⟩)

/-- Whether the token of an import was cancelled. -/
def wasCancelled (job : ImportJob) (world : World) : Bool :=
  match job.token with
  | some name => world.tokens name = .cancelled
  | none => false

/-- Looks at the file. -/
def start (job : ImportJob) (world : World) : Phase :=
  match world.admit job.path with
  | .error error => job.failed .started error
  | .ok (.error reason) => .finished (.ok (.rejected job.path reason))
  | .ok (.ok facts) => .admitted facts

/-- Compares a decoded file with the catalog, unless the import was cancelled. -/
def compare (job : ImportJob) (world : World) (decoded : Decoded) : Phase :=
  if job.wasCancelled world then job.failed .fingerprinted .cancelled
  else
    match identify decoded.digest decoded.key world.catalog.lookup job.handling.careful with
    | .error error => job.failed .resolved error
    | .ok resolution => .resolved decoded resolution

/-- Claims the commit point of the token, if there is one. -/
def claim (job : ImportJob) (world : World) (decoded : Decoded) (resolution : Resolution) :
    World × Phase :=
  match job.token with
  | none => (world, .claimed decoded resolution)
  | some name =>
    match (world.tokens name).claim with
    | some token => (world.setToken name token, .claimed decoded resolution)
    | none => (world, job.failed .resolved .cancelled)

/-- Gives the claim on the commit point back. -/
def release (job : ImportJob) (world : World) : World :=
  match job.token with
  | none => world
  | some name => world.setToken name (world.tokens name).release

/-- Writes the import to the catalog: as a source of the identity it belongs to, or
else as an identity of its own. -/
def write (job : ImportJob) (world : World) (decoded : Decoded) (resolution : Resolution) :
    Except Error (IdentityId × CommitEffect × Catalog) :=
  let source :=
    Source.ofFile job.path decoded.facts job.handling.keepFile job.route world.now
  match resolution.verdict.matched with
  | some id =>
    (world.catalog.addSource id source (some decoded.metadata) job.ticket world.now).map
      fun catalog => (id, .attached, catalog)
  | none =>
    (world.catalog.addIdentity ⟨decoded.digest, decoded.key, decoded.metadata⟩ source
      job.ticket world.now).map fun (id, catalog) => (id, .inserted, catalog)

/-- Commits the import. -/
def commit (job : ImportJob) (world : World) (decoded : Decoded) (resolution : Resolution) :
    World × Phase :=
  match job.write world decoded resolution with
  | .error error => (world, .rolledBack error)
  | .ok (id, effect, catalog) =>
    ({ world with catalog := catalog }, .committed {
      path := job.path
      identity := id
      digest := decoded.digest
      verdict := resolution.verdict
      effect := effect
      fileRemoved := false
      remarks := resolution.remarks })

/-- Removes the imported file, unless it is to be kept. -/
def clear (job : ImportJob) (world : World) (receipt : Receipt) : World × Phase :=
  if job.handling.keepFile then (world, .finished (.ok (.committed receipt)))
  else match world.files.removeImported job.path with
    | .ok files =>
      ({ world with files := files },
        .finished (.ok (.committed { receipt with fileRemoved := true })))
    | .error cause =>
      (world, .finished (.ok (.committed { receipt with
        remarks := receipt.remarks ++ [.notRemoved cause] })))

end ImportJob

namespace Importer

/-- Decodes a file that was admitted. -/
def decode (importer : Importer) (world : World) (path : Pathname) (facts : FileFacts) :
    Except DecodeFault Decoded :=
  let analysis := importer.decoder path (world.files.read path)
  (analysis.within importer.timeout).map fun recording => {
    facts := facts
    metadata := recording.metadata
    digest := recording.stream.digest
    key := recording.fingerprint.bind AcousticKey.ofFingerprint? }

/-- Decodes the file of an import, unless it was cancelled. -/
def examine (importer : Importer) (job : ImportJob) (world : World) (facts : FileFacts) :
    Phase :=
  if job.wasCancelled world then job.failed .started .cancelled
  else match importer.decode world job.path facts with
    | .error cause => job.failed .fingerprinted (.decode cause)
    | .ok decoded => .fingerprinted decoded

/-- One step of an import. -/
def advance (importer : Importer) (job : ImportJob) (world : World) : Phase → World × Phase
  | .starting => (world, job.start world)
  | .admitted facts => (world, importer.examine job world facts)
  | .fingerprinted decoded => (world, job.compare world decoded)
  | .resolved decoded resolution => job.claim world decoded resolution
  | .claimed decoded resolution => job.commit world decoded resolution
  | .rolledBack error => (job.release world, job.failed .committed error)
  | .committed receipt => job.clear world receipt
  | .finished conclusion => (world, .finished conclusion)

/-- A step brings an unfinished import closer to its end. -/
theorem remaining_advance_lt (importer : Importer) (job : ImportJob) (world : World)
    (phase : Phase) (unfinished : 0 < phase.remaining) :
    (importer.advance job world phase).2.remaining < phase.remaining := by
  cases phase with
  | starting =>
    simp only [advance, ImportJob.start, ImportJob.failed]
    split <;> simp [Phase.remaining]
  | admitted facts =>
    simp only [advance, examine, ImportJob.failed]
    repeat' split
    all_goals simp [Phase.remaining]
  | fingerprinted decoded =>
    simp only [advance, ImportJob.compare, ImportJob.failed]
    repeat' split
    all_goals simp [Phase.remaining]
  | resolved decoded resolution =>
    simp only [advance, ImportJob.claim, ImportJob.failed]
    repeat' split
    all_goals simp [Phase.remaining]
  | claimed decoded resolution =>
    simp only [advance, ImportJob.commit]
    repeat' split
    all_goals simp [Phase.remaining]
  | rolledBack error => simp [advance, ImportJob.failed, Phase.remaining]
  | committed receipt =>
    simp only [advance, ImportJob.clear]
    repeat' split
    all_goals simp [Phase.remaining]
  | finished conclusion => simp [Phase.remaining] at unfinished

/-- Takes all steps of an import that has got to a phase.  The observer sees every
phase as it is entered, and may act on the world and on a state of its own. -/
def drive {σ : Type} (importer : Importer) (job : ImportJob)
    (observe : Phase → World × σ → World × σ) (state : World × σ) (phase : Phase) :
    (World × σ) × Conclusion :=
  match _ : phase.conclusion? with
  | some conclusion => (state, conclusion)
  | none =>
    let seen := observe phase state
    let next := importer.advance job seen.1 phase
    drive importer job observe (next.1, seen.2) next.2
termination_by phase.remaining
decreasing_by exact remaining_advance_lt importer job _ phase (Phase.remaining_pos ‹_›)

/-- Does an import. -/
def run (importer : Importer) (job : ImportJob) (world : World) : World × Conclusion :=
  let ended := importer.drive job (fun _ state => state) (world, ()) .starting
  (ended.1.1, ended.2)

/-- Looks for the recording in a file in the catalog.  Nothing is written and no token
is looked at; a file that an import would reject has no recording. -/
def find (importer : Importer) (path : Pathname) (careful : Bool) (world : World) :
    Except ImportFault Finding :=
  match world.admit path with
  | .error error => .error ⟨path, .started, error⟩
  | .ok (.error reason) =>
    .error ⟨path, .started, .badPath (.refused path.shown reason.message)⟩
  | .ok (.ok facts) =>
    match importer.decode world path facts with
    | .error cause => .error ⟨path, .fingerprinted, .decode cause⟩
    | .ok decoded =>
      match identify decoded.digest decoded.key world.catalog.lookup careful with
      | .error error => .error ⟨path, .resolved, error⟩
      | .ok resolution => .ok ⟨path, decoded.digest, resolution⟩

end Importer

end AudioCatalog
