import AudioCatalog.Proofs.Catalog.Acceptance

/-!
# Routes of sources

A source tells by which route it came into the catalog, at once or from a ticket, and nothing
else depends on that.  A commit from a ticket is therefore refused where the commit without
one is, and else differs from it in the route of the row that it adds and in the tickets.
-/

namespace AudioCatalog

/-! ## Commits from tickets -/

/-- The row of a source that came into the catalog from a ticket. -/
def SourceRow.deferred (row : SourceRow) : SourceRow :=
  { row with route := .text Route.deferred.label }

namespace Catalog

variable {catalog : Catalog} {tickets : Table TicketRow}

/-- The catalog if what was done to it was put off: the source with a number has come from a
ticket, and the tickets are others. -/
def putOff (catalog : Catalog) (number : Int) (tickets : Table TicketRow) : Catalog :=
  { catalog with
    sources := catalog.sources.modify number .deferred
    tickets := tickets }

/-- Rows that differ in their routes have the same key, so one is added where the other is. -/
theorem putSourceRow_deferred (catalog : Catalog) (tickets : Table TicketRow) (row : SourceRow) :
    { catalog with tickets := tickets }.putSourceRow row.deferred =
      (catalog.putSourceRow row).map (·.putOff (catalog.sources.greatestId + 1) tickets) := by
  have hwritable : { catalog with tickets := tickets }.demandWritable =
      catalog.demandWritable := rfl
  have hsame : ∀ entry : Int × SourceRow, entry.2.sameKey row.deferred = entry.2.sameKey row :=
    fun _ => rfl
  simp only [putSourceRow, hwritable, hsame]
  cases catalog.demandWritable with
  | error error => rfl
  | ok _ =>
      simp only [ok_bind]
      split
      · cases hskip : catalog.sources.skip? with
        | none => rfl
        | some skipped =>
            obtain ⟨hrows, -⟩ := Table.skip?_eq_some hskip
            have hkept := Table.modify_greatestId_add_one hrows SourceRow.deferred
            exact congrArg (fun sources => Except.ok
              { catalog with sources := sources, tickets := tickets }) hkept.symm
      · rw [Table.insert?_change]
        cases catalog.sources.insert? row <;> rfl

theorem placeSource_deferred (catalog : Catalog) (tickets : Table TicketRow) (id : IdentityId)
    (source : Source) :
    { catalog with tickets := tickets }.placeSource id { source with route := .deferred } =
      (catalog.placeSource id source).map
        (·.putOff (catalog.sources.greatestId + 1) tickets) := by
  rw [placeSource, placeSource]
  cases source.path.text? with
  | none => rfl
  | some path => exact putSourceRow_deferred catalog tickets (.ofSource id path source)

/-- Resolving the ticket is the last part of a commit that was put off. -/
theorem settleTicket_putOff (hwritable : catalog.access ≠ .readOnly) {ticket : TicketId}
    (hticket : (tickets.row? ticket.value).isSome) (number : Int) (identity : IdentityId)
    (now : Timestamp) :
    (catalog.putOff number tickets).settleTicket (some ticket) identity now =
      .ok (catalog.putOff number (tickets.settle ticket (some identity) now)) := by
  refine settleTicket_eq hwritable fun id hid => ?_
  rw [← Option.some.inj hid]
  exact hticket

/-- Adding a source that was put off, for a ticket that is there. -/
theorem addSource_deferred {ticket : TicketId} (hticket : (tickets.row? ticket.value).isSome)
    (id : IdentityId) (source : Source) (metadata : Option Metadata) (now : Timestamp) :
    { catalog with tickets := tickets }.addSource id { source with route := .deferred } metadata
        (some ticket) now =
      (catalog.addSource id source metadata none now).map
        (·.putOff (catalog.sources.greatestId + 1) (tickets.settle ticket (some id) now)) := by
  have hidentity : { catalog with tickets := tickets }.hasIdentity id = catalog.hasIdentity id :=
    rfl
  simp only [addSource, transaction, hidentity, placeSource_deferred]
  split
  · rfl
  · split
    · rfl
    · cases hplaced : catalog.placeSource id source with
      | error error => rfl
      | ok placed =>
          obtain ⟨-, hwritable, -, sources, hsources⟩ := placeSource_eq_ok hplaced
          have haccess : placed.access ≠ .readOnly := hsources ▸ hwritable
          cases metadata with
          | none => exact settleTicket_putOff haccess hticket _ id now
          | some metadata =>
              have haccess : (placed.withMetadata id metadata).access ≠ .readOnly := haccess
              exact settleTicket_putOff haccess hticket _ id now

/-- Adding an identity whose first source was put off, for a ticket that is there. -/
theorem addIdentity_deferred {ticket : TicketId} (hticket : (tickets.row? ticket.value).isSome)
    (draft : Draft) (source : Source) (now : Timestamp) :
    { catalog with tickets := tickets }.addIdentity draft { source with route := .deferred }
        (some ticket) now =
      (catalog.addIdentity draft source none now).map fun added =>
        (added.1, added.2.putOff (catalog.sources.greatestId + 1)
          (tickets.settle ticket (some added.1) now)) := by
  have hdigest : { catalog with tickets := tickets }.hasDigest draft.digest =
      catalog.hasDigest draft.digest := rfl
  have hdemand : { catalog with tickets := tickets }.demandWritable =
      catalog.demandWritable := rfl
  simp only [addIdentity, transaction, hdigest, hdemand]
  split
  · rfl
  · cases hwritten : catalog.demandWritable with
    | error error => rfl
    | ok _ =>
        have hwritable := demandWritable_eq_ok hwritten
        cases catalog.identities.insert? (.ofDraft draft now) with
        | none => rfl
        | some inserted =>
            obtain ⟨number, identities⟩ := inserted
            simp only [numbered, ok_bind]
            split
            · rfl
            · have hdeferred := placeSource_deferred { catalog with identities := identities }
                tickets ⟨number⟩ source
              simp only at hdeferred
              rw [hdeferred]
              cases hplaced :
                  { catalog with identities := identities }.placeSource ⟨number⟩ source with
              | error error => rfl
              | ok placed =>
                  obtain ⟨-, hwritable, -, sources, hsources⟩ := placeSource_eq_ok hplaced
                  have haccess : placed.access ≠ .readOnly := hsources ▸ hwritable
                  have hsettled := settleTicket_putOff haccess hticket
                    (catalog.sources.greatestId + 1) ⟨number⟩ now
                  simp only [Except.map, ok_bind] at hsettled ⊢
                  rw [hsettled]
                  rfl

/-! ## The route of a new row -/

variable {next : Catalog} {id : IdentityId} {source : Source} {row : SourceRow}

/-- The row that is put under the next number is the given one. -/
theorem eq_of_putSourceRow {other : SourceRow} (h : catalog.putSourceRow row = .ok next)
    (hother : (catalog.sources.greatestId + 1, other) ∈ next.sources.rows) : other = row := by
  have hnew := catalog.sources.not_mem_greatestId_add_one other
  rw [putSourceRow, bind_eq_ok_iff] at h
  obtain ⟨_, -, h⟩ := h
  split at h
  · obtain ⟨skipped, hskipped, h⟩ := bind_eq_ok_iff.mp h
    cases h
    rw [(Table.skip?_eq_some (numbered_eq_ok hskipped)).1] at hother
    exact absurd hother hnew
  · obtain ⟨⟨number, inserted⟩, hinserted, h⟩ := bind_eq_ok_iff.mp h
    cases h
    rw [(Table.insert?_eq_some (numbered_eq_ok hinserted)).2.1, List.mem_append,
      List.mem_singleton, Prod.mk.injEq] at hother
    rcases hother with hother | ⟨-, rfl⟩
    · exact absurd hother hnew
    · rfl

theorem route_of_placeSource (h : catalog.placeSource id source = .ok next)
    (hrow : (catalog.sources.greatestId + 1, row) ∈ next.sources.rows) :
    row.route = .text source.route.label := by
  rw [placeSource] at h
  split at h
  · cases h
  · rw [eq_of_putSourceRow h hrow]
    rfl

theorem route_of_addSource {metadata : Option Metadata} {ticket : Option TicketId}
    {now : Timestamp} (h : catalog.addSource id source metadata ticket now = .ok next)
    (hrow : (catalog.sources.greatestId + 1, row) ∈ next.sources.rows) :
    row.route = .text source.route.label := by
  have hbody := transaction_eq_ok h
  split at hbody
  · cases hbody
  · obtain ⟨placed, hplaced, hsettled⟩ := bind_eq_ok_iff.mp hbody
    rw [settleTicket_eq_ok hsettled] at hrow
    refine route_of_placeSource hplaced ?_
    cases metadata with
    | none => exact hrow
    | some metadata => exact hrow

theorem route_of_addIdentity {draft : Draft} {ticket : Option TicketId} {now : Timestamp}
    (h : catalog.addIdentity draft source ticket now = .ok (id, next))
    (hrow : (catalog.sources.greatestId + 1, row) ∈ next.sources.rows) :
    row.route = .text source.route.label := by
  obtain ⟨_, -, hbody⟩ := bind_eq_ok_iff.mp (transaction_eq_ok h)
  obtain ⟨⟨number, identities⟩, -, hbody⟩ := bind_eq_ok_iff.mp hbody
  simp only at hbody
  split at hbody
  · cases hbody
  · obtain ⟨placed, hplaced, hbody⟩ := bind_eq_ok_iff.mp hbody
    obtain ⟨settled, hsettled, hadded⟩ := bind_eq_ok_iff.mp hbody
    cases hadded
    rw [settleTicket_eq_ok hsettled] at hrow
    exact route_of_placeSource hplaced hrow

end Catalog

end AudioCatalog
