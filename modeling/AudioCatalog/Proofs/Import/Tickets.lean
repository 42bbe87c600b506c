import AudioCatalog.Proofs.Import.Turns

/-!
# Commits and their tickets

The ticket of a commit is resolved last, after all that the commit writes.  A commit for a
ticket is therefore the same commit without it, followed by the resolution of the ticket: it
fails if the ticket is not there, and if the ticket is resolved already it does what the
commit without it does.
-/

namespace AudioCatalog

namespace Catalog

variable {catalog : Catalog}

/-- Adding a source for a ticket is adding it without, and then resolving the ticket. -/
theorem addSource_eq_bind (catalog : Catalog) (id : IdentityId) (source : Source)
    (metadata : Option Metadata) (ticket : Option TicketId) (now : Timestamp) :
    catalog.addSource id source metadata ticket now =
      catalog.addSource id source metadata none now >>= fun next =>
        next.settleTicket ticket id now := by
  simp only [addSource, transaction]
  split
  · rfl
  · split
    · rfl
    · cases catalog.placeSource id source with
      | error error => rfl
      | ok placed => cases metadata <;> rfl

/-- Adding an identity for a ticket is adding it without, and then resolving the ticket. -/
theorem addIdentity_eq_bind (catalog : Catalog) (draft : Draft) (source : Source)
    (ticket : Option TicketId) (now : Timestamp) :
    catalog.addIdentity draft source ticket now =
      catalog.addIdentity draft source none now >>= fun added =>
        (added.2.settleTicket ticket added.1 now).map fun next => (added.1, next) := by
  simp only [addIdentity, transaction]
  split
  · rfl
  · cases catalog.demandWritable with
    | error error => rfl
    | ok _ =>
        cases catalog.identities.insert? (.ofDraft draft now) with
        | none => rfl
        | some inserted =>
            obtain ⟨number, identities⟩ := inserted
            simp only [numbered, ok_bind]
            split
            · rfl
            · cases { catalog with identities := identities }.placeSource ⟨number⟩ source with
              | error error => rfl
              | ok placed =>
                  simp only [ok_bind, settleTicket]
                  cases placed.settleTicket ticket ⟨number⟩ now <;> rfl

/-- A ticket that is not there cannot be resolved. -/
theorem settleTicket_unknown (hwritable : catalog.access ≠ .readOnly) {ticket : TicketId}
    (hunknown : catalog.tickets.row? ticket.value = none) (identity : IdentityId)
    (now : Timestamp) :
    catalog.settleTicket (some ticket) identity now = .error (.unknownTicket ticket) := by
  simp only [settleTicket, markResolved, demandWritable_eq hwritable, ok_bind, hunknown]
  rfl

/-- Resolving a ticket that is resolved does nothing. -/
theorem settleTicket_resolved (hwritable : catalog.access ≠ .readOnly) {ticket : TicketId}
    {row : TicketRow} (hrow : catalog.tickets.row? ticket.value = some row)
    (hresolved : row.resolvedAt ≠ .null) (identity : IdentityId) (now : Timestamp) :
    catalog.settleTicket (some ticket) identity now = .ok catalog := by
  simp only [settleTicket, markResolved, demandWritable_eq hwritable, ok_bind, hrow,
    if_neg hresolved]
  rfl

end Catalog

namespace ImportJob

variable (job : ImportJob) {world : World} (decoded : Decoded) (resolution : Resolution)

/-- The import without its ticket. -/
def unticketed (job : ImportJob) : ImportJob :=
  { job with ticket := none }

/-- Writing an import for a ticket is writing it without, and then resolving the ticket. -/
theorem write_eq_bind (world : World) :
    job.write world decoded resolution =
      job.unticketed.write world decoded resolution >>= fun written =>
        (written.2.2.settleTicket job.ticket written.1 world.now).map fun catalog =>
          (written.1, written.2.1, catalog) := by
  simp only [write, unticketed]
  cases resolution.verdict.matched with
  | some id =>
      simp only
      rw [Catalog.addSource_eq_bind]
      cases world.catalog.addSource id _ _ none world.now with
      | error error => rfl
      | ok added => rfl
  | none =>
      simp only
      rw [Catalog.addIdentity_eq_bind]
      cases world.catalog.addIdentity _ _ none world.now with
      | error error => rfl
      | ok added =>
          obtain ⟨id, next⟩ := added
          simp only [ok_bind, Except.map]
          cases next.settleTicket job.ticket id world.now <;> rfl

/-- An import without its ticket leaves the tickets as they are. -/
theorem tickets_of_unticketed {job : ImportJob} {decoded : Decoded} {resolution : Resolution}
    (hsound : world.catalog.Sound) {id : IdentityId} {effect : CommitEffect} {catalog : Catalog}
    (h : job.unticketed.write world decoded resolution = .ok (id, effect, catalog)) :
    catalog.tickets = world.catalog.tickets ∧ catalog.access ≠ .readOnly := by
  obtain ⟨ledger, hkeeps, -, -⟩ := hsound
  obtain ⟨⟨identities, sources, rfl⟩, -⟩ := write_cases hkeeps h
  exact ⟨rfl, (openFor_of_write h).1.2.1⟩

/-- An import for a ticket that is not there is not written.  Nothing else may be the matter
with it. -/
theorem write_unknown (hsound : world.catalog.Sound) {ticket : TicketId}
    (hticket : job.ticket = some ticket)
    (hunknown : world.catalog.tickets.row? ticket.value = none) :
    (∃ error, job.write world decoded resolution = .error error) ∧
      ((∃ written, job.unticketed.write world decoded resolution = .ok written) →
        job.write world decoded resolution = .error (.unknownTicket ticket)) := by
  rw [write_eq_bind, hticket]
  cases hwritten : job.unticketed.write world decoded resolution with
  | error error => exact ⟨⟨error, rfl⟩, fun ⟨_, h⟩ => nomatch h⟩
  | ok written =>
      obtain ⟨htickets, hwritable⟩ := tickets_of_unticketed hsound hwritten
      have hunknown : written.2.2.tickets.row? ticket.value = none := by
        rw [htickets, hunknown]
      rw [ok_bind, Catalog.settleTicket_unknown hwritable hunknown]
      exact ⟨⟨_, rfl⟩, fun _ => rfl⟩

/-- An import for a ticket that is resolved is written as without the ticket. -/
theorem write_resolved (hsound : world.catalog.Sound) {ticket : TicketId}
    (hticket : job.ticket = some ticket) {row : TicketRow}
    (hrow : world.catalog.tickets.row? ticket.value = some row)
    (hresolved : row.resolvedAt ≠ .null) :
    job.write world decoded resolution = job.unticketed.write world decoded resolution := by
  rw [write_eq_bind, hticket]
  cases hwritten : job.unticketed.write world decoded resolution with
  | error error => rfl
  | ok written =>
      obtain ⟨htickets, hwritable⟩ := tickets_of_unticketed hsound hwritten
      have hrow : written.2.2.tickets.row? ticket.value = some row := by
        rw [htickets, hrow]
      rw [ok_bind, Catalog.settleTicket_resolved hwritable hrow hresolved]
      rfl

end ImportJob

end AudioCatalog
