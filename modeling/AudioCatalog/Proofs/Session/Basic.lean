import AudioCatalog.Import.Replay
import AudioCatalog.Proofs.Import.Course
import AudioCatalog.Proofs.Session.Reopening

/-!
# Sessions

A session works with one catalog: it asks things of the catalog while that is open, closes
it and opens it again.  Between any two of its steps, and between the steps of its imports,
others may act: they change files, tokens and the time of day, and hold the lock of the
database or let go of it.  They do not write to the catalog, and while it is closed they
leave its file in place.
-/

namespace AudioCatalog

/-! ## Others -/

/-- Whether others can have made the second world of the first one.  Of the catalog they
change nothing but the lock. -/
def World.LeftAlone (world next : World) : Prop :=
  ∃ locked, next.catalog = { world.catalog with locked := locked }

/-- What others do as an import enters its phases. -/
structure Others where
  act : Phase → World → World
  leave : ∀ (phase : Phase) (world : World), world.LeftAlone (act phase world)

/-- Nobody else does anything. -/
def Others.none : Others :=
  ⟨fun _ world => world, fun _ world => ⟨world.catalog.locked, rfl⟩⟩

/-- Does an import while others act. -/
def Importer.runAmong (importer : Importer) (job : ImportJob) (others : Others) (world : World) :
    World × Conclusion :=
  let ended :=
    importer.drive job (fun phase state => (others.act phase state.1, ())) (world, ()) .starting
  (ended.1.1, ended.2)

/-- Imports the files of all pending tickets while others act. -/
def Importer.replayAmong (importer : Importer) (handling : Handling) (others : Pathname → Others)
    (world : World) : Except Error (World × Batch) :=
  (importer.replayPendingObserved handling
    (fun path phase state => ((others path).act phase state.1, ())) (world, ())).map
      fun (state, batch) => (state.1, batch)

/-! ## Calls -/

/-- What can be asked of an open catalog. -/
inductive Call where
  | insert (draft : Draft) (source : Source)
  | attach (id : IdentityId) (source : Source)
  | run (importer : Importer) (job : ImportJob) (others : Others)
  | find (importer : Importer) (path : Pathname) (careful : Bool)
  | addTicket (path : Pathname)
  | resolve (id : TicketId)
  | replayPending (importer : Importer) (handling : Handling) (others : Pathname → Others)

/-- What comes back from a call. -/
inductive Answer where
  | inserted (result : Except Error Identity)
  | attached (result : Except Error Unit)
  | ran (conclusion : Conclusion)
  | found (result : Except ImportFault Finding)
  | ticketed (result : Except Error Ticket)
  | resolved (result : Except Error Bool)
  | replayed (result : Except Error Batch)

/-- The world and the answer after a transaction, which changes nothing if it fails. -/
def World.wrote {α : Type} (world : World) (answer : Except Error α → Answer) :
    Except Error (α × Catalog) → World × Answer
  | .ok (value, catalog) => ({ world with catalog := catalog }, answer (.ok value))
  | .error error => (world, answer (.error error))

/-- Answers a call, and gives the world after it. -/
def World.call (world : World) : Call → World × Answer
  | .insert draft source => world.wrote .inserted (world.catalog.insert draft source world.now)
  | .attach id source =>
    world.wrote .attached
      ((world.catalog.attach id source world.now).map fun catalog => ((), catalog))
  | .run importer job others =>
    let (world, conclusion) := importer.runAmong job others world
    (world, .ran conclusion)
  | .find importer path careful => (world, .found (importer.find path careful world))
  | .addTicket path =>
    world.wrote .ticketed (world.catalog.addTicket world.files.currentPath path world.now)
  | .resolve id => world.wrote .resolved (world.catalog.resolve id world.now)
  | .replayPending importer handling others =>
    match importer.replayAmong handling others world with
    | .ok (world, batch) => (world, .replayed (.ok batch))
    | .error error => (world, .replayed (.error error))

/-- The world after some calls, one after the other, and their answers. -/
def World.callAll (world : World) : List Call → World × List Answer
  | [] => (world, [])
  | call :: calls =>
    let rest := (world.call call).1.callAll calls
    (rest.1, (world.call call).2 :: rest.2)

/-! ## Numbers given out -/

/-- The number that an import gave to a new identity, if it made one. -/
def Conclusion.assigned (conclusion : Conclusion) : List IdentityId :=
  match conclusion.receipt? with
  | some receipt => if receipt.effect = .inserted then [receipt.identity] else []
  | none => []

namespace Answer

/-- The numbers that a call gave to new identities, in their order. -/
def identities : Answer → List IdentityId
  | inserted (.ok identity) => [identity.id]
  | ran conclusion => conclusion.assigned
  | replayed (.ok batch) => batch.entries.flatMap fun entry => entry.conclusion.assigned
  | _ => []

/-- The number that a call gave to a new ticket, if it made one. -/
def tickets : Answer → List TicketId
  | ticketed (.ok ticket) => [ticket.id]
  | _ => []

end Answer

/-! ## Sessions -/

/-- Where a session stands: with its catalog open, or with the catalog closed and in the
file at a location. -/
inductive Session where
  | opened (storage : Storage) (world : World)
  | closed (location : Location) (files : FileSystem Catalog)

namespace Session

/-- Whether the catalog of a session has the tables of a catalog. -/
def Holds : Session → Catalog → Prop
  | opened _ world, catalog => world.catalog.SameTables catalog
  | closed location files, catalog => files.Stores location catalog

/-- One step of a session, and the answer if the step is a call. -/
inductive Step : Session → Option Answer → Session → Prop
  | call {storage : Storage} {world : World} (call : Call) :
      Step (opened storage world) (some (world.call call).2) (opened storage (world.call call).1)
  /-- Others act while the catalog is open. -/
  | meanwhile {storage : Storage} {world next : World} (left : world.LeftAlone next) :
      Step (opened storage world) none (opened storage next)
  /-- The catalog is put back into its file, which has to be in place. -/
  | close {location : Location} {guarded : Bool} {world : World} {stored : Catalog}
      (inPlace : world.files.Stores location stored) :
      Step (opened (.file location guarded) world) none
        (closed location (world.files.closeCatalog (.file location guarded) world.catalog))
  /-- Others act while the catalog is closed, and leave its file alone. -/
  | rest {location : Location} {files next : FileSystem Catalog}
      (kept : ∀ catalog, files.Stores location catalog → next.Stores location catalog) :
      Step (closed location files) none (closed location next)
  /-- An attempt to open the catalog fails. -/
  | refuse {location : Location} {files next : FileSystem Catalog} {path : Pathname}
      {readers : Nat} {now : Timestamp} {error : Error}
      (leads : files.LeadsOnlyTo path location)
      (refused : files.openCatalog path readers now = (next, .error error)) :
      Step (closed location files) none (closed location next)
  /-- The catalog is opened again. -/
  | reopen {location : Location} {files next : FileSystem Catalog} {path : Pathname}
      {readers : Nat} {guarded : Bool} {catalog : Catalog} (tokens : String → CancelToken)
      (now : Timestamp) (leads : files.LeadsOnlyTo path location)
      (reopened : files.openCatalog path readers now =
        (next, .ok (.file location guarded, catalog))) :
      Step (closed location files) none
        (opened (.file location guarded) ⟨catalog, next, tokens, now⟩)

/-- Any number of steps, with the answers to the calls among them in their order. -/
inductive Run : Session → List Answer → Session → Prop
  | start (session : Session) : Run session [] session
  | step {first second third : Session} {answers : List Answer} {answer : Option Answer}
      (before : Run first answers second) (last : Step second answer third) :
      Run first (answers ++ answer.toList) third

/-- Calls that are made one after the other are steps of a session. -/
theorem Run.callAll {first : Session} {before : List Answer} {storage : Storage} {world : World}
    (hrun : Run first before (opened storage world)) (calls : List Call) :
    Run first (before ++ (world.callAll calls).2) (opened storage (world.callAll calls).1) := by
  induction calls generalizing before world with
  | nil =>
      rw [World.callAll, List.append_nil]
      exact hrun
  | cons call calls ih =>
      have hrest := ih (hrun.step (.call call))
      rw [List.append_assoc] at hrest
      exact hrest

/-- Whether a session has just begun, with a catalog that never had an entry. -/
def Fresh : Session → Prop
  | opened _ world => world.catalog.SameTables .empty
  | closed .. => False

end Session

end AudioCatalog
