import AudioCatalog.Proofs.Import.Tickets
import AudioCatalog.Proofs.Session.Queues

/-!
# Imports for tickets that are resolved

A list of tickets may be older than the tickets are: by the time one of them is replayed,
somebody else may have resolved it.  Nothing then keeps the file from being imported once more.
`Importer.runAmong_unticketed` says what such an import does, which is what the import of the
file without the ticket does, and that it leaves all tickets as they are.
-/

namespace AudioCatalog

/-- Two imports that take the same steps as long as something holds of the world, which all that
happens preserves, are the same. -/
theorem Importer.drive_congr {σ : Type} (importer : Importer) (job other : ImportJob)
    (observe : Phase → World × σ → World × σ) (holds : World → Prop)
    (observed : ∀ phase state, holds state.1 → holds (observe phase state).1)
    (advanced : ∀ world phase, holds world → holds (importer.advance other world phase).1)
    (same : ∀ world phase, holds world →
      importer.advance job world phase = importer.advance other world phase)
    (state : World × σ) (phase : Phase) (start : holds state.1) :
    importer.drive job observe state phase = importer.drive other observe state phase := by
  induction state, phase using drive.induct importer job observe with
  | case1 state phase conclusion finished =>
      cases phase <;> simp only [Phase.conclusion?, reduceCtorEq, Option.some.injEq] at finished
      subst finished
      rw [drive_finished, drive_finished]
  | case2 state phase unfinished seen next ih =>
      have hseen : holds (observe phase state).1 := observed phase state start
      have hstep := same _ phase hseen
      rw [drive_step importer job observe state unfinished,
        drive_step importer other observe state unfinished, ← hstep]
      refine ih ?_
      have hnext := advanced _ phase hseen
      rw [← hstep] at hnext
      exact hnext

/-- Whether a world has a sound catalog with given tickets. -/
def World.HasTickets (tickets : Table TicketRow) (world : World) : Prop :=
  world.catalog.Sound ∧ world.catalog.tickets = tickets

/-- Others leave the tickets as they are. -/
theorem World.HasTickets.others {world : World} {tickets : Table TicketRow}
    (hhas : world.HasTickets tickets) (others : Others) (phase : Phase) :
    (others.act phase world).HasTickets tickets := by
  have hsame := (others.leave phase world).sameTables
  exact ⟨hhas.1.congr_tables hsame, hsame.tickets.trans hhas.2⟩

namespace Importer

variable (importer : Importer) (job : ImportJob) {world : World}

/-- An import without its ticket leaves the tickets as they are at every step. -/
theorem tickets_advance_unticketed (hsound : world.catalog.Sound) (phase : Phase) :
    (importer.advance job.unticketed world phase).1.catalog.tickets = world.catalog.tickets := by
  cases hadvance : importer.advance job.unticketed world phase with
  | mk next entered =>
      cases importer.advances hadvance with
      | quiet huncommitted hunreceipted hcatalog hfiles => rw [hcatalog]
      | commit hwritten => exact (ImportJob.tickets_of_unticketed hsound hwritten).1
      | clear receipt => rw [ImportJob.catalog_cleared]
      | rest conclusion => rfl

/-- An import for a ticket that is resolved takes the same steps as without the ticket. -/
theorem advance_unticketed (hsound : world.catalog.Sound) {ticket : TicketId}
    (hticket : job.ticket = some ticket) {row : TicketRow}
    (hrow : world.catalog.tickets.row? ticket.value = some row)
    (hresolved : row.resolvedAt ≠ .null) (phase : Phase) :
    importer.advance job world phase = importer.advance job.unticketed world phase := by
  cases phase with
  | starting | admitted facts | fingerprinted decoded | resolved decoded resolution
  | rolledBack error | committed receipt | finished conclusion => rfl
  | claimed decoded resolution =>
      simp only [advance, ImportJob.commit,
        job.write_resolved decoded resolution hsound hticket hrow hresolved]
      rfl

theorem hasTickets_advance_unticketed {tickets : Table TicketRow}
    (hhas : world.HasTickets tickets) (phase : Phase) :
    (importer.advance job.unticketed world phase).1.HasTickets tickets :=
  ⟨(importer.writes_advance job.unticketed world phase).sound hhas.1,
    (importer.tickets_advance_unticketed job hhas.1 phase).trans hhas.2⟩

/-- An import for a ticket that is resolved is the import without the ticket, whoever acts in
between, and leaves all tickets as they are. -/
theorem runAmong_unticketed (others : Others) (hsound : world.catalog.Sound) {ticket : TicketId}
    (hticket : job.ticket = some ticket) {row : TicketRow}
    (hrow : world.catalog.tickets.row? ticket.value = some row)
    (hresolved : row.resolvedAt ≠ .null) :
    importer.runAmong job others world = importer.runAmong job.unticketed others world ∧
      (importer.runAmong job others world).1.catalog.tickets = world.catalog.tickets := by
  have hstart : world.HasTickets world.catalog.tickets := ⟨hsound, rfl⟩
  have hsame : importer.runAmong job others world =
      importer.runAmong job.unticketed others world := by
    have hdrive := importer.drive_congr job job.unticketed
      (fun phase state => (others.act phase state.1, ()))
      (World.HasTickets world.catalog.tickets)
      (fun phase state hhas => hhas.others others phase)
      (fun now phase hhas => importer.hasTickets_advance_unticketed job hhas phase)
      (fun now phase hhas => importer.advance_unticketed job hhas.1 hticket
        (hhas.2 ▸ hrow) hresolved phase)
      (world, ()) .starting hstart
    rw [runAmong, runAmong, hdrive]
  have hended := importer.drive_invariant job.unticketed
    (fun phase state => (others.act phase state.1, ()))
    (fun _ now => now.1.HasTickets world.catalog.tickets)
    (fun phase now hhas => hhas.others others phase)
    (fun phase now _ _ hhas => importer.hasTickets_advance_unticketed job hhas phase)
    (world, ()) .starting hstart
  refine ⟨hsame, ?_⟩
  rw [hsame]
  exact hended.2

end Importer

/-- Pending tickets are listed from the tickets alone. -/
theorem Catalog.pending_congr {catalog next : Catalog} (hlistable : catalog.Listable)
    (hnext : next.Listable) (htickets : next.tickets = catalog.tickets) :
    next.pending = catalog.pending := by
  rw [pending_eq hlistable.2.2, pending_eq hnext.2.2, pendingRows, pendingRows, htickets]

namespace Session

/-- A ticket that is resolved is not resolved again.  However a session has come to its catalog,
the import for a ticket that was resolved since somebody listed it does what the import without
the ticket does, whoever acts in between.  It leaves all tickets as they are, so the same ones
are pending, and the ticket is not among them. -/
theorem import_of_resolved {first : Session} {storage : Storage} {world : World}
    {answers : List Answer} (hfresh : first.Fresh)
    (hrun : Run first answers (opened storage world)) (importer : Importer) (job : ImportJob)
    (others : Others) {ticket : TicketId} (hticket : job.ticket = some ticket) {row : TicketRow}
    (hrow : world.catalog.tickets.row? ticket.value = some row)
    (hresolved : row.resolvedAt ≠ .null) :
    importer.runAmong job others world = importer.runAmong job.unticketed others world ∧
      (importer.runAmong job others world).1.catalog.tickets = world.catalog.tickets ∧
      ∃ tickets, world.catalog.pending = .ok tickets ∧ ticket ∉ tickets.map (·.id) ∧
        (importer.runAmong job others world).1.catalog.pending = .ok tickets := by
  have hlistable : world.catalog.Listable := listable_of_run hfresh hrun (.refl _)
  obtain ⟨hsame, htickets⟩ :=
    importer.runAmong_unticketed job others hlistable.1 hticket hrow hresolved
  have hnext : (importer.runAmong job others world).1.catalog.Listable :=
    (importer.writes_drive job others (world, ()) .starting).keeps Catalog.Listable.write hlistable
  obtain ⟨tickets, hread, hpending⟩ := hlistable.exists_pending
  refine ⟨hsame, htickets, tickets, hpending, fun hmem => ?_, ?_⟩
  · obtain ⟨listed, hlisted, rfl⟩ := List.mem_map.mp hmem
    obtain ⟨other, hother⟩ := Catalog.exists_pendingRow hread hlisted
    obtain ⟨hthere, hnull⟩ := List.mem_filter.mp hother
    rw [world.catalog.tickets.row?_of_mem hthere, Option.some.injEq] at hrow
    exact hresolved (hrow ▸ of_decide_eq_true hnull)
  · rw [Catalog.pending_congr hlistable hnext htickets, hpending]

end Session

/-- The world with the file `a` and a ticket for it. -/
def World.withOneTicket : World :=
  (World.withOneFile.call (.addTicket ⟨[47, 97]⟩)).1

/-- The same world after the ticket was resolved by hand. -/
def World.withResolvedTicket : World :=
  (World.withOneTicket.call (.resolve ⟨1⟩)).1

namespace Session

/-- The row of the ticket for the file `a` after it was resolved at the epoch. -/
theorem row?_withResolvedTicket : World.withResolvedTicket.catalog.tickets.row? 1 =
    some ((TicketRow.ofPath "/a" 0).settled none 0) := by
  decide +kernel

/-- Where the ticket is resolved, its import does what the import without it does, and no
ticket is pending. -/
theorem import_of_resolved_by_hand :
    let job : ImportJob := .replay .ofOneFile ⟨true, true⟩ none
    let ended := Importer.clicking.runAmong job .none .withResolvedTicket
    ended = Importer.clicking.runAmong job.unticketed .none .withResolvedTicket ∧
      ended.1.catalog.tickets = World.withResolvedTicket.catalog.tickets := by
  intro job ended
  have hfresh : (opened .exclusive .withOneFile).Fresh := .refl _
  have hrun : Run (opened .exclusive .withOneFile) _ (opened .exclusive .withResolvedTicket) :=
    .step (.step (.start _) (.call _)) (.call _)
  have hresolved : ((TicketRow.ofPath "/a" 0).settled none 0).resolvedAt ≠ .null := by decide
  obtain ⟨hsame, htickets, -⟩ := import_of_resolved hfresh hrun .clicking job .none rfl
    row?_withResolvedTicket hresolved
  exact ⟨hsame, htickets⟩

/-- A ticket that was resolved since it was listed is imported all the same: the catalog had no
identity when the ticket was resolved, and has one after its import. -/
theorem stale_ticket_is_imported :
    World.withOneTicket.catalog.pending = .ok [.ofOneFile] ∧
      World.withResolvedTicket.catalog.pending = .ok [] ∧
      World.withResolvedTicket.catalog.size = .ok 0 ∧
      (Importer.clicking.run (.replay .ofOneFile ⟨true, true⟩ none)
        .withResolvedTicket).1.catalog.size = .ok 1 := by
  have hpositive : ∀ world : World, world.catalog.tickets.rows.map (·.1) = [1] →
      ∀ entry ∈ world.catalog.tickets.rows, 0 < entry.1 := by
    intro world hids entry hentry
    have hid : entry.1 ∈ [1] := hids ▸ List.mem_map_of_mem hentry
    rw [List.mem_singleton.mp hid]
    decide
  refine ⟨?_, ?_, rfl, ?_⟩
  · have hrows : World.withOneTicket.catalog.pendingRows = [(1, .ofPath "/a" 0)] := by
      decide +kernel
    rw [Catalog.pending_eq (hpositive _ (by decide +kernel)), hrows]
    rfl
  · have hrows : World.withResolvedTicket.catalog.pendingRows = [] := by
      decide +kernel
    rw [Catalog.pending_eq (hpositive _ (by decide +kernel)), hrows]
    rfl
  · have hadmission : World.withResolvedTicket.admit Ticket.ofOneFile.path = .ok (.ok ⟨1, 0⟩) :=
      World.admit_withOneFile
    obtain ⟨catalog, hwrite, hsize⟩ : ∃ catalog,
        (ImportJob.replay .ofOneFile ⟨true, true⟩ none).write .withResolvedTicket
          ⟨⟨1, 0⟩, .empty, Importer.click.stream.digest, none⟩ ⟨.new, true⟩ =
            .ok (⟨1⟩, .inserted, catalog) ∧ catalog.size = .ok 1 := ⟨_, rfl, rfl⟩
    have hcommits : Importer.clicking.Commits (.replay .ofOneFile ⟨true, true⟩ none)
        .withResolvedTicket ⟨⟨1, 0⟩, .empty, Importer.click.stream.digest, none⟩ ⟨.new, true⟩ ⟨1⟩
        .inserted catalog := ⟨hadmission, rfl, rfl, rfl, hwrite⟩
    rw [Importer.run_of_commits Importer.clicking _ hcommits rfl, ImportJob.catalog_cleared]
    exact hsize

end Session

end AudioCatalog
