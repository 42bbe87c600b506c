import AudioCatalog.Import.Conclusion

/-!
# Batches

A batch is a list of tickets and of how their imports ended.  A failed ticket does not
fail the batch; `demandComplete` is for callers who want it to.
-/

namespace AudioCatalog

/-- A ticket and how its import ended. -/
structure BatchEntry where
  ticket : Ticket
  conclusion : Conclusion

/-- Tickets that were replayed together, in their order. -/
structure Batch where
  entries : List BatchEntry

namespace Batch

/-- The number of tickets. -/
def size (batch : Batch) : Nat :=
  batch.entries.length

/-- The committed tickets with their imports. -/
def committed (batch : Batch) : List (Ticket × Receipt) :=
  batch.entries.filterMap fun entry =>
    match entry.conclusion with
    | .ok (.committed receipt) => some (entry.ticket, receipt)
    | _ => none

/-- The tickets whose file was rejected. -/
def rejected (batch : Batch) : List Ticket :=
  batch.entries.filterMap fun entry =>
    match entry.conclusion with
    | .ok (.rejected ..) => some entry.ticket
    | _ => none

/-- The failed tickets with their faults. -/
def failed (batch : Batch) : List (Ticket × ImportFault) :=
  batch.entries.filterMap fun entry =>
    match entry.conclusion with
    | .error fault => some (entry.ticket, fault)
    | .ok _ => none

/-- The number of failed tickets. -/
def failedCount (batch : Batch) : Nat :=
  batch.failed.length

/-- Turns failed tickets into an error of the batch. -/
def demandComplete (batch : Batch) : Except Error Unit :=
  if 0 < batch.failedCount then
    .error (.incompleteBatch batch.failedCount batch.size)
  else .ok ()

end Batch

end AudioCatalog
