import AudioCatalog.Proofs.Catalog.Refusals
import AudioCatalog.Proofs.Catalog.Routes
import AudioCatalog.Proofs.Import.Turns
import AudioCatalog.Proofs.Session.Batches

/-!
# Imports that are put off

To add a ticket for a file and to replay it is to import the file.  `Importer.run_replay` is
the one equation for this: an import for a ticket ends as the import of the file without it,
and differs in the route of the source that it adds and in what it makes of the ticket.
-/

namespace AudioCatalog

/-! ## Imports for tickets -/

/-- The row of a ticket after the import for it has ended. -/
def TicketRow.afterImport (row : TicketRow) (conclusion : Conclusion) (now : Timestamp) :
    TicketRow :=
  match conclusion.receipt? with
  | some receipt => row.settled (some receipt.identity) now
  | none => row

namespace ImportJob

variable {world : World} {tickets : Table TicketRow} {ticket : Ticket}

/-- What an import for a ticket writes. -/
theorem write_replay (hticket : (tickets.row? ticket.id.value).isSome) (handling : Handling)
    (decoded : Decoded) (resolution : Resolution) :
    (replay ticket handling none).write
        { world with catalog := { world.catalog with tickets := tickets } } decoded resolution =
      ((direct ticket.path handling none).write world decoded resolution).map fun written =>
        (written.1, written.2.1, written.2.2.putOff (world.catalog.sources.greatestId + 1)
          (tickets.settle ticket.id (some written.1) world.now)) := by
  have hsource : Source.ofFile ticket.path decoded.facts handling.keepFile .deferred world.now =
      { Source.ofFile ticket.path decoded.facts handling.keepFile .direct world.now with
        route := .deferred } := rfl
  simp only [write, replay, direct, hsource]
  cases resolution.verdict.matched with
  | some id =>
      simp only [Catalog.addSource_deferred hticket]
      cases world.catalog.addSource id _ _ none world.now <;> rfl
  | none =>
      simp only [Catalog.addIdentity_deferred hticket]
      cases world.catalog.addIdentity _ _ none world.now <;> rfl

/-- Dealing with the file depends neither on how the import came about nor on the catalog. -/
theorem cleared_congr {first second : ImportJob} (hpath : first.path = second.path)
    (hhandling : first.handling = second.handling) (world : World) (catalog : Catalog)
    (receipt : Receipt) :
    first.cleared { world with catalog := catalog } receipt =
      ({ (second.cleared world receipt).1 with catalog := catalog },
        (second.cleared world receipt).2) := by
  rw [cleared, cleared, hpath, hhandling]
  by_cases hkeep : second.handling.keepFile
  · simp only [if_pos hkeep]
  · simp only [if_neg hkeep]
    cases world.files.removeImported second.path with
    | ok files => rfl
    | error cause => rfl

end ImportJob

/-- How an import ends if it is put off with a ticket: what it writes has come from the ticket,
and the ticket is resolved if the import is committed. -/
def Ticket.ending (ticket : Ticket) (tickets : Table TicketRow) (before : World)
    (ended : World × Conclusion) : World × Conclusion :=
  ({ ended.1 with
      catalog := ended.1.catalog.putOff (before.catalog.sources.greatestId + 1)
        (tickets.modify ticket.id.value (·.afterImport ended.2 before.now)) },
    ended.2)

/-- What ends before the commit leaves the ticket as it is. -/
theorem Ticket.ending_of_receipt?_eq_none (ticket : Ticket) (tickets : Table TicketRow)
    (world : World) {conclusion : Conclusion} (hnone : conclusion.receipt? = none) :
    ticket.ending tickets world (world, conclusion) =
      ({ world with catalog := { world.catalog with tickets := tickets } }, conclusion) := by
  have htickets : tickets.modify ticket.id.value (·.afterImport conclusion world.now) =
      tickets := by
    refine tickets.modify_id fun row _ => ?_
    rw [TicketRow.afterImport, hnone]
  rw [ending, Catalog.putOff, htickets, Table.modify_greatestId_add_one rfl]

/-- A committed import resolves the ticket. -/
theorem Ticket.ending_committed (ticket : Ticket) (tickets : Table TicketRow) (before world : World)
    (receipt : Receipt) :
    ticket.ending tickets before (world, .ok (.committed receipt)) =
      ({ world with
          catalog := world.catalog.putOff (before.catalog.sources.greatestId + 1)
            (tickets.settle ticket.id (some receipt.identity) before.now) },
        .ok (.committed receipt)) :=
  rfl

/-- An import for a ticket ends as the import of the file without the ticket. -/
theorem Importer.run_replay (importer : Importer) (handling : Handling) (world : World)
    {tickets : Table TicketRow} {ticket : Ticket}
    (hticket : (tickets.row? ticket.id.value).isSome) :
    importer.run (.replay ticket handling none)
        { world with catalog := { world.catalog with tickets := tickets } } =
      ticket.ending tickets world (importer.run (.direct ticket.path handling none) world) := by
  -- Up to the commit the two look neither at tickets nor at the route.
  have hadmit : World.admit { world with catalog := { world.catalog with tickets := tickets } } =
      World.admit world := rfl
  have hdecode : importer.decode
      { world with catalog := { world.catalog with tickets := tickets } } =
        importer.decode world := rfl
  have hlookup : { world.catalog with tickets := tickets }.lookup = world.catalog.lookup := rfl
  have hpath : (ImportJob.replay ticket handling none).path =
      (ImportJob.direct ticket.path handling none).path := rfl
  have hhandling : (ImportJob.replay ticket handling none).handling =
      (ImportJob.direct ticket.path handling none).handling := rfl
  have htoken : (ImportJob.direct ticket.path handling none).token = none := rfl
  have htoken' : (ImportJob.replay ticket handling none).token = none := rfl
  have hcleared := (ImportJob.replay ticket handling none).cleared_congr hpath hhandling
  have hreceipt : (ImportJob.replay ticket handling none).receipt =
      (ImportJob.direct ticket.path handling none).receipt := rfl
  rw [run_eq, run_eq, hadmit, hdecode]
  simp only [ImportJob.wasCancelled, ImportJob.claimed?, htoken, htoken', hlookup, hpath,
    hhandling, ImportJob.write_replay hticket, hreceipt, Bool.false_eq_true, if_false]
  generalize ImportJob.direct ticket.path handling none = job at hcleared ⊢
  have hearly : ∀ conclusion : Conclusion, conclusion.receipt? = none →
      ({ world with catalog := { world.catalog with tickets := tickets } }, conclusion) =
        ticket.ending tickets world (world, conclusion) :=
    fun _ hnone => (ticket.ending_of_receipt?_eq_none tickets world hnone).symm
  cases world.admit job.path with
  | error error => exact hearly _ rfl
  | ok admitted =>
      cases admitted with
      | error reason => exact hearly _ rfl
      | ok facts =>
          simp only
          cases importer.decode world job.path facts with
          | error cause => exact hearly _ rfl
          | ok decoded =>
              simp only
              cases identify decoded.digest decoded.key world.catalog.lookup
                  job.handling.careful with
              | error error => exact hearly _ rfl
              | ok resolution =>
                  simp only
                  cases job.write world decoded resolution with
                  | error error => exact hearly _ rfl
                  | ok written =>
                      obtain ⟨id, effect, catalog⟩ := written
                      have hid := (job.receipt_cleared { world with catalog := catalog }
                        (job.receipt decoded resolution id effect)).1
                      have hcatalog := job.catalog_cleared { world with catalog := catalog }
                        (job.receipt decoded resolution id effect)
                      simp only [Except.map]
                      rw [Ticket.ending_committed, hid, hcatalog,
                        hcleared { world with catalog := catalog }]
                      rfl

/-! ## Tickets for absolute path names -/

/-- An absolute path name is not blank. -/
theorem Pathname.isBlankText_eq_false {path : Pathname} {text : String}
    (htext : path.text? = some text) (habsolute : path.isAbsolute = true) :
    isBlankText text = false := by
  obtain ⟨bytes⟩ := path
  cases bytes with
  | nil => cases habsolute
  | cons byte rest =>
      obtain rfl : byte = slash := by simpa [isAbsolute] using habsolute
      rw [text?, Utf8.decode?, Option.map_eq_some_iff, Utf8.pieces_one rest (by decide)] at htext
      obtain ⟨chars, hchars, rfl⟩ := htext
      obtain ⟨tail, -, rfl⟩ := Utf8.mapM_some_cons hchars
      rw [isBlankText, String.toList_ofList, List.all_cons]
      have hslash : isBlank (Char.ofNat slash.toNat) = false := by decide
      rw [hslash, Bool.false_and]

namespace Catalog

variable {catalog : Catalog} {path : Pathname} {text : String}

theorem ticketPath_of_isAbsolute (htext : path.text? = some text)
    (hnul : '\x00' ∉ text.toList) (habsolute : path.isAbsolute = true)
    (current : Except FileError Pathname) : ticketPath current path = .ok text := by
  have hcontains : ¬ text.toList.contains '\x00' = true := by
    rwa [List.contains_iff_mem]
  simp only [ticketPath, htext, path.isBlankText_eq_false htext habsolute, Bool.false_eq_true,
    if_false, if_neg hcontains, if_pos habsolute]

/-- A ticket for a path name that can be stored is refused only if nothing can be written or
the numbers are used up. -/
theorem addTicket_cases {current : Except FileError Pathname}
    (hpath : ticketPath current path = .ok text) (now : Timestamp) :
    (∃ number tickets, catalog.tickets.insert? (.ofPath text now) = some (number, tickets) ∧
      catalog.addTicket current path now =
        .ok (⟨⟨number⟩, .ofText text, Timestamp.ofStored now, none⟩,
          { catalog with tickets := tickets })) ∨
      ∃ fault, catalog.addTicket current path now = .error (.store fault) ∧
        (fault = .full ∧ Table.idLimit ≤ catalog.tickets.greatestId ∨
          catalog.locked = true ∨ catalog.access = .readOnly) := by
  cases hadded : catalog.addTicket current path now with
  | ok added =>
      obtain ⟨ticket, next⟩ := added
      rw [addTicket, hpath] at hadded
      obtain ⟨_, _, hbody⟩ := bind_eq_ok_iff.mp (transaction_eq_ok hadded)
      obtain ⟨⟨number, tickets⟩, hnumbered, hbody⟩ := bind_eq_ok_iff.mp hbody
      cases hbody
      exact .inl ⟨number, tickets, numbered_eq_ok hnumbered, rfl⟩
  | error error =>
      right
      rw [addTicket, hpath] at hadded
      rcases transaction_eq_error hadded with ⟨hlocked, rfl⟩ | hbody
      · exact ⟨_, rfl, .inr (.inl hlocked)⟩
      · rcases bind_eq_error_iff.mp hbody with hwritable | ⟨_, _, hbody⟩
        · obtain ⟨hreadOnly, rfl⟩ := demandWritable_eq_error hwritable
          exact ⟨_, rfl, .inr (.inr hreadOnly)⟩
        · rcases bind_eq_error_iff.mp hbody with hnumbered | ⟨_, _, hbody⟩
          · obtain ⟨hnone, rfl⟩ := numbered_eq_error hnumbered
            exact ⟨_, rfl, .inl ⟨rfl, idLimit_le_of_insert? hnone⟩⟩
          · cases hbody

/-- A ticket that is added while none is pending is the only one that is. -/
theorem Listable.pending_of_insert? (hlistable : catalog.Listable)
    (hnone : catalog.countPending = 0) {requested : Timestamp} {number : Int}
    {tickets : Table TicketRow}
    (hinserted : catalog.tickets.insert? (.ofPath text requested) = some (number, tickets)) :
    { catalog with tickets := tickets }.pending =
      .ok [⟨⟨number⟩, .ofText text, Timestamp.ofStored requested, none⟩] := by
  obtain ⟨-, hrows, -⟩ := Table.insert?_eq_some hinserted
  have hpending : { catalog with tickets := tickets }.pendingRows =
      [(number, .ofPath text requested)] := by
    rw [countPending, List.length_eq_zero_iff, pendingRows] at hnone
    rw [pendingRows, hrows, List.filter_append, hnone]
    rfl
  rw [pending_eq (hlistable.2.insert? hinserted).2, hpending]
  rfl

end Catalog

/-- To replay the only pending ticket is to import its file. -/
theorem Importer.replayPending_of_insert? (importer : Importer) (handling : Handling)
    (world : World) (hlistable : world.catalog.Listable) (hnone : world.catalog.countPending = 0)
    {text : String} {requested : Timestamp} {number : Int} {tickets : Table TicketRow}
    (hinserted : world.catalog.tickets.insert? (.ofPath text requested) =
      some (number, tickets)) :
    let ticket : Ticket := ⟨⟨number⟩, .ofText text, Timestamp.ofStored requested, none⟩
    let direct := importer.run (.direct ticket.path handling none) world
    importer.replayPending handling
        { world with catalog := { world.catalog with tickets := tickets } } =
      .ok ((ticket.ending tickets world direct).1, ⟨[⟨ticket, direct.2⟩]⟩) := by
  intro ticket direct
  obtain ⟨-, hrows, -⟩ := Table.insert?_eq_some hinserted
  have hthere : (tickets.row? ticket.id.value).isSome := by
    refine Table.isSome_row?_iff.mpr ⟨(number, .ofPath text requested), ?_, rfl⟩
    rw [hrows]
    exact List.mem_append_right _ (List.mem_singleton.mpr rfl)
  have hpending := hlistable.pending_of_insert? hnone hinserted
  rw [importer.replayPending_eq]
  simp only [hpending, Except.map, importer.replayAlone_cons]
  rw [importer.run_replay handling world hthere]
  rfl

/-- The ticket stands in the table with what the import has made of it. -/
theorem Table.insert?_afterImport {table tickets : Table TicketRow} {text : String}
    {requested : Timestamp} {number : Int}
    (hinserted : table.insert? (.ofPath text requested) = some (number, tickets))
    (conclusion : Conclusion) (now : Timestamp) :
    table.insert? (match conclusion.receipt? with
      | some receipt => { TicketRow.ofPath text requested with
          resolvedAt := .integer now
          resolvedIdentity := .integer receipt.identity.value }
      | none => .ofPath text requested) =
      some (number, tickets.modify number (·.afterImport conclusion now)) := by
  obtain ⟨hnumber, -, -⟩ := insert?_eq_some hinserted
  have hchanged := table.insert?_change (.ofPath text requested) (·.afterImport conclusion now)
  rw [hinserted, Option.map_some, ← hnumber] at hchanged
  rw [← hchanged, TicketRow.afterImport]
  cases conclusion.receipt? with
  | none => rfl
  | some receipt => rfl

/-! ## Imports by name -/

/-- The source that an import adds tells how the import came about. -/
theorem ImportJob.route_of_write {job : ImportJob} {world : World} {decoded : Decoded}
    {resolution : Resolution} {id : IdentityId} {effect : CommitEffect} {catalog : Catalog}
    (h : job.write world decoded resolution = .ok (id, effect, catalog)) {row : SourceRow}
    (hrow : (world.catalog.sources.greatestId + 1, row) ∈ catalog.sources.rows) :
    row.route = .text job.route.label := by
  rw [write] at h
  simp only at h
  split at h
  · obtain ⟨added, hadded, h⟩ := map_eq_ok_iff.mp h
    cases h
    exact Catalog.route_of_addSource hadded hrow
  · obtain ⟨⟨number, added⟩, hadded, h⟩ := map_eq_ok_iff.mp h
    cases h
    exact Catalog.route_of_addIdentity hadded hrow

/-- What is known of an import of a file that the caller names. -/
theorem Importer.run_direct (importer : Importer) (path : Pathname) (handling : Handling)
    {world : World} (hsound : world.catalog.Sound) :
    let direct := importer.run (.direct path handling none) world
    direct.1.catalog.tickets = world.catalog.tickets ∧
      (∀ row, direct.1.catalog.sources.row? (world.catalog.sources.greatestId + 1) = some row →
        row.route = .text Route.direct.label) ∧
      (direct.2.receipt? ≠ none →
        world.catalog.locked = false ∧ world.catalog.access ≠ .readOnly) := by
  intro direct
  rcases importer.run_cases (.direct path handling none) world with ⟨hworld, hnone⟩ |
    ⟨decoded, resolution, id, effect, catalog, claimed, hcommits, -, hrun⟩
  · have hworld : direct.1 = world := hworld
    rw [hworld]
    refine ⟨rfl, fun row hrow => ?_, (absurd hnone ·)⟩
    exact absurd (Table.row?_eq_some hrow) (world.catalog.sources.not_mem_greatestId_add_one row)
  · have hcatalog : direct.1.catalog = catalog := by
      rw [show direct = _ from hrun, ImportJob.catalog_cleared]
    obtain ⟨ledger, hkeeps, -, -⟩ := hsound
    obtain ⟨⟨_, _, hnext⟩, -⟩ := ImportJob.write_cases hkeeps hcommits.written
    obtain ⟨⟨hunlocked, hwritable, -⟩, -⟩ := ImportJob.openFor_of_write hcommits.written
    rw [hcatalog]
    refine ⟨?_, fun row hrow => ?_, fun _ => ⟨hunlocked, hwritable⟩⟩
    · rw [hnext]
      rfl
    · exact ImportJob.route_of_write hcommits.written (Table.row?_eq_some hrow)

/-! ## Sessions -/

namespace Session

/-- In whatever way a session has come to a catalog without pending tickets, to add a ticket
for an absolute path name and to replay it, at whatever time, is to import the file then.  The
batch has one report, which is that of the import; files, tokens and the catalog are left as
the import leaves them, except that a source that it adds has come from the ticket, and that
there is this one ticket more, which is resolved exactly if the import is committed.  A ticket
is refused only where the numbers of tickets are used up, or where nothing can be written and
the import is not committed either. -/
theorem replay_of_ticketed {first : Session} {storage : Storage} {world : World}
    {answers : List Answer} (hfresh : first.Fresh)
    (hrun : Run first answers (opened storage world)) (hnone : world.catalog.countPending = 0)
    (importer : Importer) {path : Pathname} {text : String} (htext : path.text? = some text)
    (hnul : '\x00' ∉ text.toList) (habsolute : path.isAbsolute = true) (handling : Handling)
    (later : Timestamp) :
    let added := world.call (.addTicket path)
    let direct := importer.run (.direct path handling none) { world with now := later }
    let number := world.catalog.sources.greatestId + 1
    (∃ ticket next tickets,
      added.2 = .ticketed (.ok ticket) ∧ ticket.path = path ∧
      importer.replayPending handling { added.1 with now := later } =
        .ok (next, ⟨[⟨ticket, direct.2⟩]⟩) ∧
      next = { direct.1 with
        catalog := { direct.1.catalog with
          sources := direct.1.catalog.sources.modify number fun row =>
            { row with route := .text Route.deferred.label }
          tickets := tickets } } ∧
      (∀ row, direct.1.catalog.sources.row? number = some row →
        row.route = .text Route.direct.label) ∧
      direct.1.catalog.tickets = world.catalog.tickets ∧
      world.catalog.tickets.insert? (match direct.2.receipt? with
        | some receipt => { TicketRow.ofPath text world.now with
            resolvedAt := .integer later
            resolvedIdentity := .integer receipt.identity.value }
        | none => .ofPath text world.now) = some (ticket.id.value, tickets)) ∨
    ∃ fault, added = (world, .ticketed (.error (.store fault))) ∧
      (fault = .full ∧ Table.idLimit ≤ world.catalog.tickets.greatestId ∨
        (world.catalog.locked = true ∨ world.catalog.access = .readOnly) ∧
          direct.2.receipt? = none) := by
  intro added direct number
  have hlistable : world.catalog.Listable := listable_of_run hfresh hrun (.refl _)
  have hsound : { world with now := later }.catalog.Sound := hlistable.1
  obtain ⟨htickets, hroute, hopen⟩ := importer.run_direct path handling hsound
  have hstored := Catalog.ticketPath_of_isAbsolute htext hnul habsolute world.files.currentPath
  rcases world.catalog.addTicket_cases hstored world.now with
    ⟨id, tickets, hinserted, hadded⟩ | ⟨fault, hrefused, hwhy⟩
  · left
    have hpath : Pathname.ofText text = path := Pathname.ofText_of_text? htext
    have hcall : added = _ := congrArg (world.wrote .ticketed) hadded
    have hreplay := importer.replayPending_of_insert? handling { world with now := later }
      hlistable hnone hinserted
    rw [hpath] at hcall hreplay
    rw [hcall]
    exact ⟨_, _, _, rfl, rfl, hreplay, rfl, hroute, htickets,
      Table.insert?_afterImport hinserted direct.2 later⟩
  · right
    refine ⟨fault, congrArg (world.wrote .ticketed) hrefused, hwhy.imp_right fun hwhy => ⟨hwhy, ?_⟩⟩
    by_contra hcommitted
    obtain ⟨hunlocked, hwritable⟩ := hopen hcommitted
    rcases hwhy with hlocked | hreadOnly
    · rw [hlocked] at hunlocked
      cases hunlocked
    · exact hwritable hreadOnly

/-- The file `a` is imported the same, at the time 5, from a ticket and by its name, and the
ticket is resolved then. -/
theorem replay_of_ticketed_one_file : ∃ ticket next receipt,
    Importer.clicking.replayPending ⟨true, true⟩
        { (World.withOneFile.call (.addTicket ⟨[47, 97]⟩)).1 with now := 5 } =
      .ok (next, ⟨[⟨ticket, .ok (.committed receipt)⟩]⟩) ∧
    (Importer.clicking.run (.direct ⟨[47, 97]⟩ ⟨true, true⟩ none)
        { World.withOneFile with now := 5 }).2 = .ok (.committed receipt) ∧
    next.catalog.tickets.rows.map (·.2.resolvedAt) = [.integer 5] := by
  have hfresh : (opened .exclusive .withOneFile).Fresh := .refl _
  have htext : Pathname.text? ⟨[47, 97]⟩ = some "/a" := Pathname.text?_ofText "/a"
  obtain ⟨receipt, hcommitted, -⟩ := Importer.run_direct_withOneFile 5
  rcases replay_of_ticketed hfresh (.start _) rfl Importer.clicking htext (by decide) rfl
      ⟨true, true⟩ 5 with
    ⟨ticket, next, tickets, -, -, hreplay, rfl, -, -, htickets⟩ | ⟨fault, hrefused, -⟩
  · rw [hcommitted] at hreplay htickets
    obtain ⟨-, hrows, -⟩ := Table.insert?_eq_some htickets
    refine ⟨ticket, _, receipt, hreplay, hcommitted, ?_⟩
    exact congrArg (List.map fun entry : Int × TicketRow => entry.2.resolvedAt) hrows
  · cases hrefused

end Session

end AudioCatalog
