import AudioCatalog.Proofs.Catalog.Soundness
import AudioCatalog.Proofs.Session.Basic

/-!
# Consistent sessions

Whatever is asked in a session, and whether it succeeds or fails, the tables of its catalog
fit together, and the numbers given out to identities and to tickets increase.
-/

namespace AudioCatalog

namespace Catalog

/-- Whether a catalog is sound and has, beyond the numbers that another one has, those of
some new identities and tickets, which come last. -/
structure Grows (catalog next : Catalog) (identities : List IdentityId) (tickets : List TicketId) :
    Prop where
  sound : next.Sound
  identities : next.identities.rows.map (·.1) =
    catalog.identities.rows.map (·.1) ++ identities.map (·.value)
  tickets : next.tickets.rows.map (·.1) = catalog.tickets.rows.map (·.1) ++ tickets.map (·.value)

variable {catalog next last : Catalog}

theorem Grows.refl (hsound : catalog.Sound) : catalog.Grows catalog [] [] :=
  ⟨hsound, (List.append_nil _).symm, (List.append_nil _).symm⟩

theorem Grows.trans {firstIds secondIds : List IdentityId}
    {firstTickets secondTickets : List TicketId}
    (hfirst : catalog.Grows next firstIds firstTickets)
    (hsecond : next.Grows last secondIds secondTickets) :
    catalog.Grows last (firstIds ++ secondIds) (firstTickets ++ secondTickets) where
  sound := hsecond.sound
  identities := by
    rw [hsecond.identities, hfirst.identities, List.append_assoc, List.map_append]
  tickets := by
    rw [hsecond.tickets, hfirst.tickets, List.append_assoc, List.map_append]

theorem Grows.sameTables {identities : List IdentityId} {tickets : List TicketId}
    (hgrows : catalog.Grows next identities tickets) (hsame : last.SameTables next) :
    catalog.Grows last identities tickets where
  sound := hgrows.sound.congr hsame.identities hsame.sources hsame.tickets
  identities := by rw [hsame.identities, hgrows.identities]
  tickets := by rw [hsame.tickets, hgrows.tickets]

theorem map_fst_modify {ρ : Type} (table : Table ρ) (id : Int) (change : ρ → ρ) :
    (table.modify id change).rows.map (·.1) = table.rows.map (·.1) := by
  simp [Table.modify]

theorem map_fst_afterCommit (tickets : Table TicketRow) (ticket : Option TicketId)
    (identity : IdentityId) (now : Timestamp) :
    (tickets.afterCommit ticket identity now).rows.map (·.1) = tickets.rows.map (·.1) := by
  cases ticket with
  | none => rfl
  | some ticket => exact map_fst_modify ..

theorem Keeps.map_fst {ledger : List Identity} (hkeeps : catalog.Keeps ledger) :
    catalog.identities.rows.map (·.1) = (ledger.map (·.id)).map (·.value) := by
  rw [hkeeps.identities, List.map_map, List.map_map]
  rfl

/-! ## Transactions -/

theorem Sound.grows_addIdentity (hsound : catalog.Sound) {draft : Draft} {source : Source}
    {ticket : Option TicketId} {now : Timestamp} {id : IdentityId}
    (h : catalog.addIdentity draft source ticket now = .ok (id, next)) :
    catalog.Grows next [id] [] := by
  have hnext := hsound.addIdentity h
  obtain ⟨ledger, hkeeps, _, _⟩ := hsound
  obtain ⟨_, _, _, ⟨_, _, rfl, _, _⟩, hkept⟩ := hkeeps.addIdentity h
  refine ⟨hnext, ?_, ?_⟩
  · rw [hkept.map_fst, hkeeps.map_fst, List.map_append, List.map_append]
    rfl
  · simp only [map_fst_afterCommit, List.map_nil, List.append_nil]

theorem Sound.grows_addSource (hsound : catalog.Sound) {id : IdentityId} {source : Source}
    {metadata : Option Metadata} {ticket : Option TicketId} {now : Timestamp}
    (h : catalog.addSource id source metadata ticket now = .ok next) :
    catalog.Grows next [] [] := by
  have hnext := hsound.addSource h
  obtain ⟨ledger, hkeeps, _, _⟩ := hsound
  obtain ⟨_, _, ⟨_, _, rfl, _, _⟩, hkept⟩ := hkeeps.addSource h
  refine ⟨hnext, ?_, ?_⟩
  · rw [hkept.map_fst, hkeeps.map_fst, map_id_extendEntry, List.map_nil, List.append_nil]
  · simp only [map_fst_afterCommit, List.map_nil, List.append_nil]

theorem Sound.grows_addTicket (hsound : catalog.Sound) {current : Except FileError Pathname}
    {path : Pathname} {now : Timestamp} {ticket : Ticket}
    (h : catalog.addTicket current path now = .ok (ticket, next)) :
    catalog.Grows next [] [ticket.id] := by
  have hnext := hsound.addTicket h
  obtain ⟨_, tickets, _, hinsert, rfl⟩ := addTicket_eq_ok h
  refine ⟨hnext, (List.append_nil _).symm, ?_⟩
  rw [(Table.insert?_eq_some hinsert).2.1, List.map_append]
  rfl

theorem Sound.grows_resolve (hsound : catalog.Sound) {id : TicketId} {now : Timestamp} {done : Bool}
    (h : catalog.resolve id now = .ok (done, next)) : catalog.Grows next [] [] := by
  have hnext := hsound.resolve h
  obtain ⟨_, _, _, _, rfl⟩ := markResolved_eq_ok (transaction_eq_ok h)
  exact ⟨hnext, (List.append_nil _).symm,
    (map_fst_modify ..).trans (List.append_nil _).symm⟩

end Catalog

/-! ## Imports -/

/-- A commit adds to the catalog what its effect says. -/
theorem ImportJob.grows_write {job : ImportJob} {world : World} {decoded : Decoded}
    {resolution : Resolution} {id : IdentityId} {effect : CommitEffect} {catalog : Catalog}
    (hsound : world.catalog.Sound)
    (h : job.write world decoded resolution = .ok (id, effect, catalog)) :
    world.catalog.Grows catalog (if effect = .inserted then [id] else []) [] := by
  rw [write] at h
  simp only at h
  split at h
  · obtain ⟨added, hadded, h⟩ := map_eq_ok_iff.mp h
    cases h
    exact hsound.grows_addSource hadded
  · obtain ⟨⟨number, added⟩, hadded, h⟩ := map_eq_ok_iff.mp h
    cases h
    exact hsound.grows_addIdentity hadded

theorem ImportJob.catalog_cleared (job : ImportJob) (world : World) (receipt : Receipt) :
    (job.cleared world receipt).1.catalog = world.catalog := by
  rw [cleared]
  split
  · rfl
  · split <;> rfl

/-- Dealing with the file changes neither the identity nor the effect on a receipt. -/
theorem ImportJob.receipt_cleared (job : ImportJob) (world : World) (receipt : Receipt) :
    (job.cleared world receipt).2.identity = receipt.identity ∧
      (job.cleared world receipt).2.effect = receipt.effect := by
  rw [cleared]
  split
  · exact ⟨rfl, rfl⟩
  · split <;> exact ⟨rfl, rfl⟩

/-- The number that an import has given to a new identity by the time it enters a phase. -/
def Phase.assigned : Phase → List IdentityId
  | .committed receipt => Conclusion.assigned (.ok (.committed receipt))
  | .finished conclusion => conclusion.assigned
  | .starting | .admitted _ | .fingerprinted _ | .resolved .. | .claimed .. | .rolledBack _ => []

theorem Phase.assigned_eq_nil {phase : Phase} (h : phase.receipt? = none) :
    phase.assigned = [] := by
  cases phase with
  | committed receipt => cases h
  | finished conclusion =>
      have hnone : conclusion.receipt? = none := h
      rw [assigned, Conclusion.assigned, hnone]
  | starting | admitted _ | fingerprinted _ | resolved _ _ | claimed _ _ | rolledBack _ => rfl

theorem World.LeftAlone.sameTables {world next : World} (hleft : world.LeftAlone next) :
    next.catalog.SameTables world.catalog := by
  obtain ⟨locked, heq⟩ := hleft
  rw [heq]
  exact ⟨rfl, rfl, rfl⟩

namespace Importer

/-- A step of an import adds to the catalog what the next phase tells of. -/
theorem grows_advance (importer : Importer) (job : ImportJob) {start : Catalog} {world : World}
    {phase : Phase} (hgrows : start.Grows world.catalog phase.assigned []) :
    start.Grows (importer.advance job world phase).1.catalog
      (importer.advance job world phase).2.assigned [] := by
  cases hadvance : importer.advance job world phase with
  | mk next entered =>
      cases importer.advances hadvance with
      | quiet huncommitted hunreceipted hcatalog hfiles =>
          rw [Phase.assigned_eq_nil huncommitted] at hgrows
          rw [Phase.assigned_eq_nil hunreceipted, hcatalog]
          exact hgrows
      | commit hwritten => exact hgrows.trans (ImportJob.grows_write hgrows.sound hwritten)
      | clear receipt =>
          simp only [ImportJob.catalog_cleared, Phase.assigned, Conclusion.assigned,
            Conclusion.receipt?, ImportJob.receipt_cleared]
          exact hgrows
      | rest conclusion => exact hgrows

/-- An import adds to the catalog what its conclusion tells of. -/
theorem grows_drive (importer : Importer) (job : ImportJob) (others : Others)
    (state : World × Unit) (hsound : state.1.catalog.Sound) :
    let ended :=
      importer.drive job (fun phase state => (others.act phase state.1, ())) state .starting
    state.1.catalog.Grows ended.1.1.catalog ended.2.assigned [] :=
  importer.drive_invariant job (fun phase state => (others.act phase state.1, ()))
    (fun phase now => state.1.catalog.Grows now.1.catalog phase.assigned [])
    (fun phase now hgrows => hgrows.sameTables (others.leave phase now.1).sameTables)
    (fun _ _ _ _ hgrows => importer.grows_advance job hgrows)
    state .starting (.refl hsound)

/-- The tickets are imported one after the other. -/
theorem grows_replayInTurn (importer : Importer) (handling : Handling)
    (others : Pathname → Others) (tickets : List Ticket) :
    ∀ state : World × Unit, state.1.catalog.Sound →
      let replayed := importer.replayInTurn handling
        (fun path phase state => ((others path).act phase state.1, ())) tickets state
      state.1.catalog.Grows replayed.1.1.catalog
        (replayed.2.flatMap fun entry => entry.conclusion.assigned) [] := by
  induction tickets with
  | nil =>
      intro state hsound
      exact .refl hsound
  | cons ticket tickets ih =>
      intro state hsound
      have hfirst := importer.grows_drive (.replay ticket handling none) (others ticket.path) state
        hsound
      exact hfirst.trans (ih _ hfirst.sound)

theorem grows_replayAmong (importer : Importer) (handling : Handling) (others : Pathname → Others)
    {world next : World} {batch : Batch} (hsound : world.catalog.Sound)
    (h : importer.replayAmong handling others world = .ok (next, batch)) :
    world.catalog.Grows next.catalog (batch.entries.flatMap fun entry => entry.conclusion.assigned)
      [] := by
  obtain ⟨⟨state, batch⟩, hreplay, h⟩ := map_eq_ok_iff.mp h
  cases h
  obtain ⟨tickets, _, hreplay⟩ := bind_eq_ok_iff.mp hreplay
  cases hreplay
  exact importer.grows_replayInTurn handling others tickets (world, ()) hsound

end Importer

/-! ## Calls -/

theorem World.grows_wrote {α : Type} {world : World} {answer : Except Error α → Answer}
    (result : Except Error (α × Catalog)) (hsound : world.catalog.Sound)
    (hfailed : ∀ error, (answer (.error error)).identities = [] ∧
      (answer (.error error)).tickets = [])
    (hgrows : ∀ value catalog, result = .ok (value, catalog) →
      world.catalog.Grows catalog (answer (.ok value)).identities (answer (.ok value)).tickets) :
    world.catalog.Grows (world.wrote answer result).1.catalog
      (world.wrote answer result).2.identities (world.wrote answer result).2.tickets := by
  cases result with
  | error error =>
      simp only [wrote, hfailed]
      exact .refl hsound
  | ok written => exact hgrows written.1 written.2 rfl

/-- A call adds to the catalog the entries that its answer names. -/
theorem World.grows_call (world : World) (hsound : world.catalog.Sound) (call : Call) :
    world.catalog.Grows (world.call call).1.catalog (world.call call).2.identities
      (world.call call).2.tickets := by
  cases call with
  | insert draft source =>
      apply grows_wrote _ hsound (fun _ => ⟨rfl, rfl⟩)
      intro identity catalog h
      exact hsound.grows_addIdentity (Catalog.insert_eq_ok h)
  | attach id source =>
      apply grows_wrote _ hsound (fun _ => ⟨rfl, rfl⟩)
      intro result catalog h
      obtain ⟨added, hadded, h⟩ := map_eq_ok_iff.mp h
      cases h
      exact hsound.grows_addSource hadded
  | run importer job others => exact importer.grows_drive job others (world, ()) hsound
  | find importer path careful => exact .refl hsound
  | addTicket path =>
      apply grows_wrote _ hsound (fun _ => ⟨rfl, rfl⟩)
      intro ticket catalog h
      exact hsound.grows_addTicket h
  | resolve id =>
      apply grows_wrote _ hsound (fun _ => ⟨rfl, rfl⟩)
      intro done catalog h
      exact hsound.grows_resolve h
  | replayPending importer handling others =>
      rw [World.call]
      cases hreplay : importer.replayAmong handling others world with
      | error error => exact .refl hsound
      | ok replayed => exact importer.grows_replayAmong handling others hsound hreplay

/-! ## Sessions -/

namespace Session

/-- What a session knows of its catalog: it is sound, and has the numbers that were given
out in the answers so far. -/
structure Knows (session : Session) (answers : List Answer) (catalog : Catalog) : Prop where
  holds : session.Holds catalog
  sound : catalog.Sound
  identities : catalog.identities.rows.map (·.1) =
    (answers.flatMap (·.identities)).map (·.value)
  tickets : catalog.tickets.rows.map (·.1) = (answers.flatMap (·.tickets)).map (·.value)

theorem Knows.move {first second : Session} {answers : List Answer} {catalog : Catalog}
    (hknows : first.Knows answers catalog) (hholds : second.Holds catalog) :
    second.Knows (answers ++ (none : Option Answer).toList) catalog where
  holds := hholds
  sound := hknows.sound
  identities := by rw [Option.toList_none, List.append_nil, hknows.identities]
  tickets := by rw [Option.toList_none, List.append_nil, hknows.tickets]

/-- What is not a call leaves the catalog as it is. -/
theorem Holds.step {first second : Session} {catalog : Catalog} (hholds : first.Holds catalog)
    (hstep : Step first none second) : second.Holds catalog := by
  cases hstep with
  | meanwhile left => exact left.sameTables.trans hholds
  | @close location guarded world stored inPlace =>
      have hsame : world.catalog.SameTables catalog := hholds
      exact (FileSystem.stores_closeCatalog inPlace world.catalog guarded).sameTables hsame
  | rest kept => exact kept catalog hholds
  | @refuse location files next path readers now error leads refused =>
      have hattached := FileSystem.reattaches_openCatalog hholds leads readers now
      rw [refused] at hattached
      exact hattached.stores
  | @reopen location files next path readers guarded result tokens now leads reopened =>
      have hattached := FileSystem.reattaches_openCatalog hholds leads readers now
      rw [reopened] at hattached
      exact (hattached.tables location guarded result rfl).2

/-- One step of a session keeps what is known of the catalog. -/
theorem Knows.step {first second : Session} {answers : List Answer} {answer : Option Answer}
    {catalog : Catalog} (hknows : first.Knows answers catalog) (hstep : Step first answer second) :
    ∃ next, second.Knows (answers ++ answer.toList) next := by
  cases answer with
  | none => exact ⟨catalog, hknows.move (hknows.holds.step hstep)⟩
  | some answer =>
      cases hstep with
      | @call storage world call =>
          have hsame : world.catalog.SameTables catalog := hknows.holds
          have hsound := hknows.sound.congr hsame.identities hsame.sources hsame.tickets
          have hgrows := world.grows_call hsound call
          refine ⟨_, ⟨Catalog.SameTables.refl _, hgrows.sound, ?_, ?_⟩⟩
          · rw [hgrows.identities, hsame.identities, hknows.identities, List.flatMap_append,
              List.map_append, Option.toList_some, List.flatMap_singleton]
          · rw [hgrows.tickets, hsame.tickets, hknows.tickets, List.flatMap_append,
              List.map_append, Option.toList_some, List.flatMap_singleton]

theorem Knows.run {first last : Session} {answers : List Answer} (hrun : Run first answers last)
    {catalog : Catalog} (hstart : first.Knows [] catalog) : ∃ next, last.Knows answers next := by
  induction hrun with
  | start => exact ⟨catalog, hstart⟩
  | step before step ih =>
      obtain ⟨between, hbetween⟩ := ih
      exact hbetween.step step

theorem Knows.of_fresh {session : Session} (hfresh : session.Fresh) :
    session.Knows [] .empty := by
  cases session with
  | closed => cases hfresh
  | opened storage world => exact ⟨hfresh, Catalog.Sound.of_empty rfl rfl rfl, rfl, rfl⟩

/-- What a session holds is known up to what is not in the tables. -/
theorem Holds.sameTables {session : Session} {first second : Catalog}
    (hfirst : session.Holds first) (hsecond : session.Holds second) : first.SameTables second := by
  cases session with
  | opened storage world => exact hfirst.symm.trans hsecond
  | closed location files =>
      obtain ⟨stored, _, _, hnode, hsame⟩ := hfirst
      obtain ⟨other, _, _, hother, hsame'⟩ := hsecond
      rw [hnode] at hother
      cases hother
      exact hsame.symm.trans hsame'

/-- However a session with a new catalog goes on, its tables fit together, and the numbers
that were given out are those in the tables and increase. -/
theorem consistent_of_run {first last : Session} {answers : List Answer} (hfresh : first.Fresh)
    (hrun : Run first answers last) :
    (∃ catalog, last.Holds catalog) ∧ ∀ catalog, last.Holds catalog → catalog.Consistent ∧
      (answers.flatMap (·.identities)).Pairwise (fun a b => a.value < b.value) ∧
      (answers.flatMap (·.tickets)).Pairwise (fun a b => a.value < b.value) ∧
      catalog.identities.rows.map (·.1) = (answers.flatMap (·.identities)).map (·.value) ∧
      catalog.tickets.rows.map (·.1) = (answers.flatMap (·.tickets)).map (·.value) := by
  obtain ⟨known, hknows⟩ := Knows.run hrun (Knows.of_fresh hfresh)
  refine ⟨⟨known, hknows.holds⟩, fun catalog hholds => ?_⟩
  have hsame := Holds.sameTables hholds hknows.holds
  have hsound := hknows.sound.congr hsame.identities hsame.sources hsame.tickets
  have hidentities := hknows.identities
  have htickets := hknows.tickets
  rw [← hsame.identities] at hidentities
  rw [← hsame.tickets] at htickets
  refine ⟨hsound.consistent, ?_, ?_, hidentities, htickets⟩
  · have hordered := List.pairwise_map.mpr catalog.identities.ordered
    rw [hidentities] at hordered
    exact List.pairwise_map.mp hordered
  · have hordered := List.pairwise_map.mpr catalog.tickets.ordered
    rw [htickets] at hordered
    exact List.pairwise_map.mp hordered

end Session

/-- A world with an empty catalog and without files. -/
def World.blank : World where
  catalog := .empty
  files := ⟨[], []⟩
  tokens := fun _ => .pending
  now := 0

/-- A recording of which nothing is known but a digest of zeros. -/
def Draft.blank : Draft where
  digest := ⟨List.replicate 32 0, rfl⟩
  key := none
  metadata := .empty

/-- A file called `a` as a source. -/
def Source.blank : Source where
  path := ⟨[47, 97]⟩
  modified := 0
  size := 1
  importedAt := 0
  kept := true
  route := .direct

/-- A recording with another digest. -/
def Draft.other : Draft :=
  { Draft.blank with digest := ⟨List.replicate 32 1, rfl⟩ }

/-- Calls that make two identities, the first of them with two sources, and a ticket that is
resolved. -/
def Call.several : List Call :=
  [.insert .blank .blank, .addTicket ⟨[47, 97]⟩, .insert .other .blank,
    .attach ⟨1⟩ { Source.blank with size := 2 }, .resolve ⟨1⟩]

namespace Session

/-- A new catalog is consistent after several calls, and has the numbers they gave out. -/
theorem consistent_after_calls :
    let last := World.blank.callAll Call.several
    (opened .exclusive .blank).Fresh ∧ last.2.flatMap (·.identities) = [⟨1⟩, ⟨2⟩] ∧
      last.2.flatMap (·.tickets) = [⟨1⟩] ∧ last.1.catalog.identities.rows.map (·.1) = [1, 2] ∧
      last.1.catalog.sources.rows.map (·.2.identity) =
        [.integer 1, .integer 2, .integer 1] ∧
      last.1.catalog.tickets.rows.map (·.2.resolvedAt) = [.integer 0] ∧
      last.1.catalog.Consistent := by
  intro last
  have hfresh : (opened .exclusive .blank).Fresh := .refl _
  have hrun : Run (opened .exclusive .blank) last.2 (opened .exclusive last.1) :=
    (Run.start _).callAll Call.several
  obtain ⟨hconsistent, -, -, hrows, -⟩ := (consistent_of_run hfresh hrun).2 _ (.refl _)
  have hidentities : last.2.flatMap (·.identities) = [⟨1⟩, ⟨2⟩] := by decide +kernel
  rw [hidentities] at hrows
  exact ⟨hfresh, hidentities, by decide +kernel, hrows, by decide +kernel, by decide +kernel,
    hconsistent⟩

end Session

end AudioCatalog
