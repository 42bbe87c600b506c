import AudioCatalog.Import.Batch
import AudioCatalog.Import.Run

/-!
# Replaying tickets

A replay imports the files of all tickets that are pending when it begins.  Each ticket is
resolved by the commit of its own import; one whose file is rejected or fails stays pending.

The imports are shared out to the workers of a pool, which do them side by side, and the batch
has the results in the order of the tickets.  A program that runs takes one of the ways in which
the workers' steps can come, and `replayInTurn` takes the one of a single worker: the tickets one
after the other, in the order of their numbers.  What holds in all ways is said of
`Importer.pool`, of which this is one (`Importer.exists_completes_replayAlone`).
-/

namespace AudioCatalog.Importer

/-- Imports the files of some tickets with one worker.  The observer is told which file it
sees. -/
def replayInTurn {σ : Type} (importer : Importer) (handling : Handling)
    (observe : Pathname → Phase → World × σ → World × σ) :
    List Ticket → World × σ → (World × σ) × List BatchEntry
  | [], state => (state, [])
  | ticket :: rest, state =>
    let (state, conclusion) :=
      importer.drive (.replay ticket handling none) (observe ticket.path) state .starting
    let (state, entries) := replayInTurn importer handling observe rest state
    (state, ⟨ticket, conclusion⟩ :: entries)

/-- Imports the files of all pending tickets with one worker and an observer. -/
def replayPendingObserved {σ : Type} (importer : Importer) (handling : Handling)
    (observe : Pathname → Phase → World × σ → World × σ) (state : World × σ) :
    Except Error ((World × σ) × Batch) := do
  let tickets ← state.1.catalog.pending
  let (state, entries) := importer.replayInTurn handling observe tickets state
  return (state, ⟨entries⟩)

/-- Imports the files of all pending tickets with one worker. -/
def replayPending (importer : Importer) (handling : Handling) (world : World) :
    Except Error (World × Batch) :=
  (importer.replayPendingObserved handling (fun _ _ state => state) (world, ())).map
    fun (state, batch) => (state.1, batch)

end AudioCatalog.Importer
