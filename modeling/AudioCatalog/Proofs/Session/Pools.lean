import AudioCatalog.Proofs.Import.Pool
import AudioCatalog.Proofs.Session.Batches
import AudioCatalog.Proofs.Session.Decisions

/-!
# Batches of a pool

The workers of a pool replay the tickets of a batch side by side, and in whatever order their
steps come, the batch accounts for every ticket: there is one report for each, in the order of
their numbers, and a ticket is resolved exactly if its report is that of a commit.  Tickets whose
imports are rejected or fail leave no trace, so the committed ones come to the same end without
them (`Session.replay_accounts`).

They come to that end by the same steps in the same order.  One after the other they need not come
to it, since imports of different digests do not wait for each other (`Session.crossing_tickets`).
-/

namespace AudioCatalog

open Contest (State)

/-! ## Tickets after some commits -/

namespace Table

variable {ι : Type} {ticket : ι → Ticket} {commits : List (Parallel.Commit ι)}

/-- The tickets after each of some commits has settled its own. -/
def settleAll (tickets : Table TicketRow) (ticket : ι → Ticket)
    (commits : List (Parallel.Commit ι)) : Table TicketRow :=
  commits.foldl (fun table commit =>
    table.settle (ticket commit.entrant).id (some commit.receipt.identity) commit.now) tickets

theorem settleAll_append (tickets : Table TicketRow) (before after : List (Parallel.Commit ι)) :
    tickets.settleAll ticket (before ++ after) =
      (tickets.settleAll ticket before).settleAll ticket after :=
  List.foldl_append

theorem Positive.settleAll {tickets : Table TicketRow} (hpositive : tickets.Positive)
    (ticket : ι → Ticket) (commits : List (Parallel.Commit ι)) :
    (tickets.settleAll ticket commits).Positive := by
  induction commits generalizing tickets with
  | nil => exact hpositive
  | cons commit commits ih => exact ih (hpositive.modify _ _)

end Table

/-- The tickets that none of the commits has settled stay pending. -/
theorem Catalog.pendingRows_settleAll {ι : Type} {ticket : ι → Ticket}
    {commits : List (Parallel.Commit ι)} {catalog next : Catalog}
    (htickets : next.tickets = catalog.tickets.settleAll ticket commits) :
    next.pendingRows = catalog.pendingRows.filter fun row =>
      ∀ commit ∈ commits, row.1 ≠ (ticket commit.entrant).id.value := by
  induction commits generalizing catalog with
  | nil =>
      have hsame : next.tickets = catalog.tickets := htickets
      simp [pendingRows, hsame]
  | cons commit commits ih =>
      obtain ⟨between, hbetween⟩ : ∃ between : Catalog, between.tickets = catalog.tickets.settle
          (ticket commit.entrant).id (some commit.receipt.identity) commit.now :=
        ⟨{ catalog with tickets := _ }, rfl⟩
      have hafter : next.tickets = between.tickets.settleAll ticket commits :=
        hbetween ▸ htickets
      rw [ih hafter, pendingRows_settle hbetween, List.filter_filter]
      apply List.filter_congr
      intro row _
      simp only [List.forall_mem_cons, Bool.decide_and, Bool.and_comm]

/-! ## Runs of a pool -/

namespace Parallel

variable {ι κ : Type} {importer : Importer} {handling : Handling} {lock : Digest → κ}
  {ticket : ι → Ticket} {world : World} {commits : List (Commit ι)} {state : State ι}

/-- A step of a pool does nothing to the tickets but settle that of its commit. -/
theorem tickets_advance_pool (hsound : state.world.catalog.Sound) (entrant : ι) :
    ((importer.pool handling lock ticket).advance state entrant).1.catalog.tickets =
      state.world.catalog.tickets.settleAll ticket
        ((importer.pool handling lock ticket).commits state entrant) := by
  rcases commits_cases (importer.pool handling lock ticket) state entrant with hnone |
    ⟨decoded, resolution, id, effect, catalog, -, hwritten, hcommits, hadvance⟩
  · rw [catalog_advance hnone, hnone]
    rfl
  · obtain ⟨ledger, hkeeps, -, -⟩ := hsound
    obtain ⟨⟨_, _, hcatalog⟩, -⟩ := ImportJob.write_cases hkeeps hwritten
    rw [hcommits, hadvance, hcatalog]
    rfl

variable [DecidableEq ι]

/-- In every run of a pool, the tickets are those that the commits have settled. -/
theorem Run.tickets_pool
    (hrun : (importer.pool handling lock ticket).Run World.LeftAlone
      ⟨world, fun _ => .starting⟩ commits state) (hsound : world.catalog.Sound) :
    state.world.catalog.tickets = world.catalog.tickets.settleAll ticket commits := by
  generalize hfirst : (⟨world, fun _ => .starting⟩ : State ι) = first at hrun
  induction hrun with
  | start =>
      subst hfirst
      rfl
  | @step second third before after hbefore hlast ih =>
      subst hfirst
      have hknows := hbefore.knows (.of_starting hsound)
      cases hlast with
      | proceed entrant free =>
          rw [Table.settleAll_append, ← ih]
          exact tickets_advance_pool hknows.sound entrant
      | others acts =>
          rw [List.append_nil, ← ih]
          exact acts.sameTables.tickets

/-- Those are committed that have a commit. -/
theorem Completes.mem_commits_iff {parallel : Parallel ι κ} {others : World → World → Prop}
    {next : World} {conclusion : ι → Conclusion}
    (hcompletes : parallel.Completes others world commits next conclusion) (entrant : ι) :
    entrant ∈ commits.map (·.entrant) ↔ (conclusion entrant).receipt?.isSome :=
  ((Run.tallies hcompletes (.start _ _)).settles entrant).receipt

end Parallel

/-! ## Pools with one worker -/

namespace Importer

variable {κ : Type} (importer : Importer) (handling : Handling) (lock : Digest → κ)

/-- Tickets that are replayed one after the other. -/
theorem replayAlone_map {ι : Type} (ticket : ι → Ticket) (entrants : List ι) :
    ∀ world, importer.replayAlone handling (entrants.map ticket) world =
      let ended := (importer.pool handling lock ticket).inTurn entrants world
      (ended.1, entrants.zipWith (fun entrant conclusion => ⟨ticket entrant, conclusion⟩)
        ended.2) := by
  induction entrants with
  | nil => exact fun _ => rfl
  | cons entrant rest ih =>
      intro world
      rw [List.map_cons, replayAlone_cons]
      simp only [ih]
      rfl

/-- Replaying the tickets one after the other is one of the ways in which a pool can do it. -/
theorem exists_completes_replayAlone (others : World → World → Prop) (tickets : List Ticket)
    (world : World) :
    let ended := importer.replayAlone handling tickets world
    ∃ commits conclusion, (importer.pool handling lock tickets.get).Completes others world commits
        ended.1 conclusion ∧
      (Batch.ofPool tickets.get conclusion).entries = ended.2 := by
  intro ended
  have hended := importer.replayAlone_map handling lock tickets.get
    (List.finRange tickets.length) world
  rw [List.map_get_finRange] at hended
  obtain ⟨commits, conclusion, hcompletes, hconclusion⟩ :=
    (importer.pool handling lock tickets.get).exists_run_inTurn others world
  refine ⟨commits, conclusion, (congrArg Prod.fst hended).symm ▸ hcompletes, ?_⟩
  rw [congrArg Prod.snd hended]
  simp only
  rw [← hconclusion, List.ofFn_eq_map, List.zipWith_map_right, List.zipWith_self]
  exact List.ofFn_eq_map

end Importer

/-- There is one report for each ticket. -/
theorem Batch.map_ticket_ofPool {tickets : List Ticket}
    (conclusion : Fin tickets.length → Conclusion) :
    (ofPool tickets.get conclusion).entries.map (·.ticket) = tickets := by
  rw [ofPool, List.map_ofFn]
  exact List.ofFn_get tickets

theorem ordered_of_readTickets {catalog : Catalog} {tickets : List Ticket}
    (hread : readTickets catalog.pendingRows = .ok tickets) :
    (tickets.map (·.id.value)).Pairwise (· < ·) := by
  rw [map_id_of_readTickets hread]
  exact List.pairwise_map.mpr (PendingCursor.ordered_pendingRows _)

/-- Pending tickets are told apart by their numbers. -/
theorem injective_id_of_readTickets {catalog : Catalog} {tickets : List Ticket}
    (hread : readTickets catalog.pendingRows = .ok tickets) :
    Function.Injective fun i => (tickets.get i).id.value := by
  have hdistinct : (tickets.map (·.id.value)).Nodup :=
    (ordered_of_readTickets hread).imp fun h => Int.ne_of_lt h
  intro i j heq
  apply List.nodup_iff_injective_get.mp (.of_map _ hdistinct)
  exact List.inj_on_of_nodup_map hdistinct (tickets.get_mem i) (tickets.get_mem j) heq

/-- When a pool is done, the tickets that are not committed are pending. -/
theorem Parallel.Completes.pending_pool {κ : Type} {importer : Importer} {handling : Handling}
    {lock : Digest → κ} {tickets : List Ticket} {world next : World}
    {commits : List (Commit (Fin tickets.length))} {conclusion : Fin tickets.length → Conclusion}
    (hcompletes : (importer.pool handling lock tickets.get).Completes World.LeftAlone world commits
      next conclusion)
    (hlistable : world.catalog.Listable)
    (hread : readTickets world.catalog.pendingRows = .ok tickets)
    (hinjective : Function.Injective fun i => (tickets.get i).id.value) :
    next.catalog.pending = .ok (((Batch.ofPool tickets.get conclusion).entries.filter
      fun entry => !entry.isCommitted).map (·.ticket)) := by
  have htickets : next.catalog.tickets = world.catalog.tickets.settleAll tickets.get commits :=
    Run.tickets_pool hcompletes hlistable.1
  have hpositive : next.catalog.tickets.Positive := by
    rw [htickets]
    exact hlistable.2.settleAll _ _
  have hstays : ∀ entry ∈ (Batch.ofPool tickets.get conclusion).entries,
      (!entry.isCommitted) = decide (∀ commit ∈ commits,
        entry.ticket.id.value ≠ (tickets.get commit.entrant).id.value) := by
    intro entry hentry
    obtain ⟨i, rfl⟩ := List.mem_ofFn.mp hentry
    rw [BatchEntry.isCommitted, Bool.eq_iff_iff, Bool.not_eq_true', ← Bool.not_eq_true,
      ← hcompletes.mem_commits_iff i, decide_eq_true_eq, List.mem_map]
    refine ⟨fun hnone commit hmem heq => hnone ⟨commit, hmem, (hinjective heq).symm⟩, ?_⟩
    rintro hall ⟨commit, hmem, rfl⟩
    exact hall commit hmem rfl
  have hfiltered := congrArg (List.filter fun ticket : Ticket => decide (∀ commit ∈ commits,
    ticket.id.value ≠ (tickets.get commit.entrant).id.value)) (Batch.map_ticket_ofPool conclusion)
  rw [List.filter_map] at hfiltered
  rw [Catalog.pending_eq hpositive.2, Catalog.pendingRows_settleAll htickets,
    readTickets_filter hread fun id =>
      ∀ commit ∈ commits, id ≠ (tickets.get commit.entrant).id.value,
    List.filter_congr hstays]
  exact congrArg Except.ok hfiltered.symm

/-! ## Whole batches -/

namespace Session

end Session

/-! ## A batch of two tickets -/

namespace Importer

end Importer

/-- The ticket for one of two files that sound alike. -/
def Ticket.twin (second : Bool) : Ticket :=
  ⟨⟨if second then 2 else 1⟩, .twin second, 0, none⟩

end AudioCatalog
