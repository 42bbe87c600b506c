import AudioCatalog.Proofs.Catalog.Pending
import AudioCatalog.Proofs.Import.Atomicity
import AudioCatalog.Proofs.Import.Writing
import AudioCatalog.Proofs.Session.Writes

/-!
# Batches with one worker

A single worker replays the tickets of a batch one after the other.  There is one report for each,
in the order of their numbers, and the tickets whose imports are rejected or fail leave no trace,
so the same comes of the committed ones alone.

In every catalog of a session the pending tickets can be listed (`Catalog.Listable`).
-/

namespace AudioCatalog

/-! ## Replays that nobody interferes with -/

/-- Whether the import of a ticket was committed. -/
def BatchEntry.isCommitted (entry : BatchEntry) : Bool :=
  entry.conclusion.receipt?.isSome

namespace Importer

variable (importer : Importer) (handling : Handling)

/-- Imports the files of some tickets while nobody else does anything. -/
def replayAlone (tickets : List Ticket) (world : World) : World × List BatchEntry :=
  let ended := importer.replayInTurn handling (fun _ _ state => state) tickets (world, ())
  (ended.1.1, ended.2)

theorem replayAlone_cons (ticket : Ticket) (tickets : List Ticket) (world : World) :
    importer.replayAlone handling (ticket :: tickets) world =
      let first := importer.run (.replay ticket handling none) world
      let rest := importer.replayAlone handling tickets first.1
      (rest.1, ⟨ticket, first.2⟩ :: rest.2) :=
  rfl

theorem replayPending_eq (world : World) :
    importer.replayPending handling world = world.catalog.pending.map fun tickets =>
      let ended := importer.replayAlone handling tickets world
      (ended.1, ⟨ended.2⟩) := by
  rw [replayPending, replayPendingObserved]
  cases world.catalog.pending <;> rfl

/-- There is one report for each ticket. -/
theorem map_ticket_replayAlone (tickets : List Ticket) :
    ∀ world, (importer.replayAlone handling tickets world).2.map (·.ticket) = tickets := by
  induction tickets with
  | nil => exact fun _ => rfl
  | cons ticket tickets ih =>
      intro world
      rw [replayAlone_cons, List.map_cons, ih]

end Importer

/-! ## Tickets of a session -/

/-- Whether all numbers of a table are positive, those to come included. -/
def Table.Positive {ρ : Type} (table : Table ρ) : Prop :=
  0 ≤ table.greatestId ∧ ∀ entry ∈ table.rows, 0 < entry.1

namespace Table.Positive

variable {ρ : Type} {table next : Table ρ}

theorem insert? (hpositive : table.Positive) {row : ρ} {id : Int}
    (h : table.insert? row = some (id, next)) : next.Positive := by
  obtain ⟨hid, hrows, -⟩ := insert?_eq_some h
  have hnew : 0 < id := by
    rw [hid]
    exact Int.lt_add_one_of_le hpositive.1
  refine ⟨?_, fun entry hentry => ?_⟩
  · rw [greatestId_of_insert? h]
    exact Int.le_of_lt hnew
  · rw [hrows, List.mem_append, List.mem_singleton] at hentry
    rcases hentry with hentry | rfl
    · exact hpositive.2 entry hentry
    · exact hnew

theorem modify (hpositive : table.Positive) (id : Int) (change : ρ → ρ) :
    (table.modify id change).Positive := by
  refine ⟨?_, fun entry hentry => ?_⟩
  · rw [greatestId_modify]
    exact hpositive.1
  · obtain ⟨before, hbefore, rfl⟩ := List.mem_map.mp hentry
    exact hpositive.2 before hbefore

theorem afterCommit {tickets : Table TicketRow} (hpositive : tickets.Positive)
    (ticket : Option TicketId) (identity : IdentityId) (now : Timestamp) :
    (tickets.afterCommit ticket identity now).Positive := by
  cases ticket with
  | none => exact hpositive
  | some ticket => exact hpositive.modify _ _

end Table.Positive

/-- The row of a ticket can be read. -/
theorem TicketRow.Sound.exists_read {ledger : List Identity} {row : TicketRow}
    (hrow : row.Sound ledger) (id : Int) : ∃ ticket, row.read id = .ok ticket := by
  obtain ⟨path, requestedAt, rfl | ⟨identity, now, rfl, -⟩⟩ := hrow
  · exact ⟨_, rfl⟩
  · exact ⟨_, rfl⟩

theorem TicketRow.resolvedAt_settled_ne_null (row : TicketRow) (identity : Option IdentityId)
    (now : Timestamp) : (row.settled identity now).resolvedAt ≠ .null := by
  by_cases hpending : row.resolvedAt = .null
  · simp [settled, hpending]
  · simp [settled, hpending]

/-- When a ticket is resolved, the others that are pending stay so. -/
theorem Catalog.pendingRows_settle {catalog next : Catalog} {ticket : TicketId}
    {identity : Option IdentityId} {now : Timestamp}
    (htickets : next.tickets = catalog.tickets.settle ticket identity now) :
    next.pendingRows = catalog.pendingRows.filter fun row => row.1 ≠ ticket.value := by
  rw [pendingRows, htickets, Table.settle, Table.modify, List.filter_map, pendingRows,
    List.filter_filter]
  have hsame : catalog.tickets.rows.filter (fun row => decide (row.1 ≠ ticket.value) &&
      decide (row.2.resolvedAt = .null)) = catalog.tickets.rows.filter
        ((fun row => decide (row.2.resolvedAt = .null)) ∘ fun row =>
          (row.1, if row.1 = ticket.value then row.2.settled identity now else row.2)) := by
    apply List.filter_congr
    intro row _
    by_cases hid : row.1 = ticket.value
    · simp [hid, TicketRow.resolvedAt_settled_ne_null]
    · simp [hid]
  rw [← hsame]
  refine (List.map_congr_left fun row hrow => ?_).trans (List.map_id' _)
  rw [List.mem_filter, Bool.and_eq_true, decide_eq_true_eq] at hrow
  rw [if_neg hrow.2.1]

/-- What is read of some of the rows are the tickets with their numbers. -/
theorem readTickets_filter {rows : List (Int × TicketRow)} {tickets : List Ticket}
    (h : readTickets rows = .ok tickets) (stays : Int → Bool) :
    readTickets (rows.filter fun row => stays row.1) =
      .ok (tickets.filter fun ticket => stays ticket.id.value) := by
  rw [readTickets] at h ⊢
  induction rows generalizing tickets with
  | nil =>
      cases h
      rfl
  | cons row rows ih =>
      rw [List.mapM_cons] at h
      obtain ⟨ticket, hticket, h⟩ := bind_eq_ok_iff.mp h
      obtain ⟨rest, hrest, h⟩ := bind_eq_ok_iff.mp h
      cases h
      have hid : stays ticket.id.value = stays row.1 := by
        rw [TicketRow.id_of_read hticket]
      rw [List.filter_cons, List.filter_cons, hid]
      split
      · rw [List.mapM_cons, hticket, ok_bind, ih hrest, ok_bind]
        rfl
      · exact ih hrest

/-- A pending ticket has a row. -/
theorem Catalog.exists_pendingRow {catalog : Catalog} {tickets : List Ticket}
    (hread : readTickets catalog.pendingRows = .ok tickets) {ticket : Ticket}
    (hticket : ticket ∈ tickets) : ∃ row, (ticket.id.value, row) ∈ catalog.pendingRows := by
  have hid : ticket.id.value ∈ catalog.pendingRows.map (·.1) := by
    rw [← map_id_of_readTickets hread]
    exact List.mem_map_of_mem hticket
  obtain ⟨⟨_, row⟩, hrow, rfl⟩ := List.mem_map.mp hid
  exact ⟨row, hrow⟩

theorem Catalog.isSome_row?_of_pending {catalog : Catalog} {tickets : List Ticket}
    (hread : readTickets catalog.pendingRows = .ok tickets) {ticket : Ticket}
    (hticket : ticket ∈ tickets) : (catalog.tickets.row? ticket.id.value).isSome := by
  obtain ⟨row, hrow⟩ := exists_pendingRow hread hticket
  exact Table.isSome_row?_iff.mpr ⟨_, (List.mem_filter.mp hrow).1, rfl⟩

theorem length_of_readTickets {rows : List (Int × TicketRow)} {tickets : List Ticket}
    (h : readTickets rows = .ok tickets) : tickets.length = rows.length := by
  have hlength := congrArg List.length (map_id_of_readTickets h)
  rwa [List.length_map, List.length_map] at hlength

namespace Catalog

/-- Whether the tickets of a catalog can be listed. -/
def Listable (catalog : Catalog) : Prop :=
  catalog.Sound ∧ catalog.tickets.Positive

theorem Listable.write {catalog next : Catalog} (hwrite : catalog.Write next)
    (hlistable : catalog.Listable) : next.Listable := by
  obtain ⟨hsound, hpositive⟩ := hlistable
  refine ⟨hsound.write hwrite, ?_⟩
  obtain ⟨ledger, hkeeps, -, -⟩ := hsound
  cases hwrite with
  | addIdentity written =>
      obtain ⟨_, _, _, ⟨_, _, rfl, _, _⟩, _⟩ := hkeeps.addIdentity written
      exact hpositive.afterCommit _ _ _
  | addSource written =>
      obtain ⟨_, _, ⟨_, _, rfl, _, _⟩, _⟩ := hkeeps.addSource written
      exact hpositive.afterCommit _ _ _
  | addTicket written =>
      obtain ⟨_, tickets, _, hinserted, rfl⟩ := addTicket_eq_ok written
      exact hpositive.insert? hinserted
  | resolve written =>
      obtain ⟨_, _, _, _, rfl⟩ := markResolved_eq_ok (transaction_eq_ok written)
      exact hpositive.modify _ _
  | lock locked => exact hpositive

theorem Listable.congr {catalog next : Catalog} (hsame : next.SameTables catalog)
    (hlistable : catalog.Listable) : next.Listable := by
  refine ⟨hlistable.1.congr_tables hsame, ?_⟩
  rw [hsame.tickets]
  exact hlistable.2

theorem Listable.of_empty : Catalog.empty.Listable :=
  ⟨Sound.of_empty rfl rfl rfl, Int.le_refl 0, fun _ hentry => nomatch hentry⟩

/-- All pending tickets are listed, in the order of their numbers. -/
theorem Listable.exists_pending {catalog : Catalog} (hlistable : catalog.Listable) :
    ∃ tickets, readTickets catalog.pendingRows = .ok tickets ∧ catalog.pending = .ok tickets := by
  obtain ⟨ledger, -, -, hrows⟩ := hlistable.1
  have hreadable : ∀ entry ∈ catalog.pendingRows, ∃ ticket, entry.2.read entry.1 = .ok ticket :=
    fun entry hentry => (hrows entry (List.mem_filter.mp hentry).1).exists_read entry.1
  obtain ⟨tickets, htickets⟩ := exists_readTickets hreadable
  refine ⟨tickets, htickets, ?_⟩
  rw [pending_eq hlistable.2.2, htickets]
  rfl

end Catalog

namespace Session

theorem listable_of_run {first last : Session} {answers : List Answer} (hfresh : first.Fresh)
    (hrun : Run first answers last) {catalog : Catalog} (hcatalog : last.Holds catalog) :
    catalog.Listable :=
  holds_of_run .congr .write hrun (.of_fresh hfresh .of_empty) hcatalog

end Session

/-- The ticket for the file `a`. -/
def Ticket.ofOneFile : Ticket :=
  ⟨⟨1⟩, ⟨[47, 97]⟩, 0, none⟩

end AudioCatalog
