import AudioCatalog.Proofs.Catalog.Commits

/-!
# When commits succeed

A commit that can be written at all succeeds if the catalog is open for it: nobody else is
writing, writing is allowed, and the ticket, if there is one, exists.
-/

namespace AudioCatalog.Catalog

variable {catalog : Catalog} {ledger : List Identity}

/-- Whether a catalog is open for commits that resolve a ticket. -/
def OpenFor (catalog : Catalog) (ticket : Option TicketId) : Prop :=
  catalog.locked = false ∧ catalog.access ≠ .readOnly ∧
    ∀ id ∈ ticket, (catalog.tickets.row? id.value).isSome

theorem transaction_eq_ok_iff {α : Type} {body : Catalog → Except Error α} {result : α}
    (hwritable : catalog.access ≠ .readOnly) :
    catalog.transaction body = .ok result ↔ catalog.locked = false ∧ body catalog = .ok result := by
  rw [transaction]
  cases hlocked : catalog.locked with
  | false => simp
  | true => simp [hwritable]

theorem demandWritable_eq (hwritable : catalog.access ≠ .readOnly) :
    catalog.demandWritable = .ok () := by
  rw [demandWritable, if_neg hwritable]

/-- A source can be placed if its path name is text, writing is allowed, and there is a
number left for it. -/
theorem exists_placeSource {id : IdentityId} {source : Source} (htext : source.Textual)
    (hwritable : catalog.access ≠ .readOnly) (hroom : catalog.sources.greatestId < Table.idLimit) :
    ∃ sources, catalog.placeSource id source = .ok { catalog with sources := sources } := by
  obtain ⟨path, hpath⟩ := Option.isSome_iff_exists.mp htext
  rw [placeSource, hpath]
  simp only [putSourceRow, demandWritable_eq hwritable, ok_bind]
  split
  · obtain ⟨sources, hskip⟩ :=
      Option.isSome_iff_exists.mp (catalog.sources.isSome_skip?_iff.mpr hroom)
    rw [hskip]
    exact ⟨sources, rfl⟩
  · obtain ⟨inserted, hinsert⟩ := Option.isSome_iff_exists.mp
      ((catalog.sources.isSome_insert?_iff (.ofSource id path source)).mpr hroom)
    rw [hinsert]
    exact ⟨inserted.2, rfl⟩

theorem known_of_settleTicket {ticket : Option TicketId} {identity : IdentityId}
    {now : Timestamp} {next : Catalog}
    (h : catalog.settleTicket ticket identity now = .ok next) :
    ∀ id ∈ ticket, (catalog.tickets.row? id.value).isSome := by
  rw [settleTicket.eq_def] at h
  rintro id hid
  rw [Option.mem_def.mp hid] at h
  obtain ⟨_, hmarked, _⟩ := map_eq_ok_iff.mp h
  obtain ⟨_, row, hrow, _, _⟩ := markResolved_eq_ok hmarked
  exact Table.isSome_row?_iff.mpr ⟨_, hrow, rfl⟩

theorem exists_settleTicket {ticket : Option TicketId} {identity : IdentityId} {now : Timestamp}
    (hwritable : catalog.access ≠ .readOnly)
    (hticket : ∀ id ∈ ticket, (catalog.tickets.row? id.value).isSome) :
    ∃ next, catalog.settleTicket ticket identity now = .ok next := by
  cases ticket with
  | none => exact ⟨catalog, rfl⟩
  | some ticket =>
      obtain ⟨row, hrow⟩ := Option.isSome_iff_exists.mp (hticket ticket rfl)
      simp only [settleTicket, markResolved, demandWritable_eq hwritable, ok_bind, hrow]
      split <;> exact ⟨_, rfl⟩

/-- The ticket of a commit is resolved if it is there. -/
theorem settleTicket_eq {ticket : Option TicketId} {identity : IdentityId} {now : Timestamp}
    (hwritable : catalog.access ≠ .readOnly)
    (hticket : ∀ id ∈ ticket, (catalog.tickets.row? id.value).isSome) :
    catalog.settleTicket ticket identity now =
      .ok { catalog with tickets := catalog.tickets.afterCommit ticket identity now } := by
  obtain ⟨next, hsettled⟩ := exists_settleTicket hwritable hticket
  rw [hsettled, settleTicket_eq_ok hsettled]

/-! ## What a commit that succeeded tells -/

/-- Placing a source changes the sources and nothing else. -/
theorem placeSource_eq_ok {id : IdentityId} {source : Source} {next : Catalog}
    (h : catalog.placeSource id source = .ok next) :
    source.Textual ∧ catalog.access ≠ .readOnly ∧ catalog.sources.greatestId < Table.idLimit ∧
      ∃ sources, next = { catalog with sources := sources } := by
  rw [placeSource] at h
  split at h
  · cases h
  · rename_i path hpath
    refine ⟨Option.isSome_iff_exists.mpr ⟨path, hpath⟩, ?_⟩
    rw [putSourceRow, bind_eq_ok_iff] at h
    obtain ⟨_, hwritable, h⟩ := h
    refine ⟨demandWritable_eq_ok hwritable, ?_⟩
    split at h
    · obtain ⟨sources, hsources, h⟩ := bind_eq_ok_iff.mp h
      cases h
      refine ⟨catalog.sources.isSome_skip?_iff.mp ?_, sources, rfl⟩
      rw [numbered_eq_ok hsources]
      rfl
    · obtain ⟨inserted, hsources, h⟩ := bind_eq_ok_iff.mp h
      cases h
      refine ⟨(catalog.sources.isSome_insert?_iff (.ofSource id path source)).mp ?_, inserted.2,
        rfl⟩
      rw [numbered_eq_ok hsources]
      rfl

/-- What a source that was added tells of the catalog, of which it has changed the tables. -/
theorem openFor_of_addSource {id : IdentityId} {source : Source} {metadata : Option Metadata}
    {ticket : Option TicketId} {now : Timestamp} {next : Catalog}
    (h : catalog.addSource id source metadata ticket now = .ok next) :
    catalog.OpenFor ticket ∧ source.Textual ∧ catalog.sources.greatestId < Table.idLimit ∧
      ∃ identities sources tickets, next =
        { catalog with identities := identities, sources := sources, tickets := tickets } := by
  have hbody := transaction_eq_ok h
  split at hbody
  · cases hbody
  · obtain ⟨placed, hplaced, hsettled⟩ := bind_eq_ok_iff.mp hbody
    obtain ⟨htext, hwritable, hroom, sources, rfl⟩ := placeSource_eq_ok hplaced
    have hunlocked := ((transaction_eq_ok_iff hwritable).mp h).1
    have hknown := known_of_settleTicket hsettled
    have hsettled := settleTicket_eq_ok hsettled
    cases metadata with
    | none => exact ⟨⟨hunlocked, hwritable, hknown⟩, htext, hroom, _, sources, _, hsettled⟩
    | some metadata =>
        exact ⟨⟨hunlocked, hwritable, hknown⟩, htext, hroom, _, sources, _, hsettled⟩

/-- What an identity that was added tells of the catalog, of which it has changed the tables. -/
theorem openFor_of_addIdentity {draft : Draft} {source : Source} {ticket : Option TicketId}
    {now : Timestamp} {id : IdentityId} {next : Catalog}
    (h : catalog.addIdentity draft source ticket now = .ok (id, next)) :
    catalog.OpenFor ticket ∧ source.Textual ∧ catalog.sources.greatestId < Table.idLimit ∧
      catalog.identities.greatestId < Table.idLimit ∧
      ∃ identities sources tickets, next =
        { catalog with identities := identities, sources := sources, tickets := tickets } := by
  obtain ⟨_, hwritten, hbody⟩ := bind_eq_ok_iff.mp (transaction_eq_ok h)
  have hwritable := demandWritable_eq_ok hwritten
  have hunlocked := ((transaction_eq_ok_iff hwritable).mp h).1
  obtain ⟨⟨number, identities⟩, hnumbered, hbody⟩ := bind_eq_ok_iff.mp hbody
  have hidentities : catalog.identities.greatestId < Table.idLimit := by
    refine (catalog.identities.isSome_insert?_iff (.ofDraft draft now)).mp ?_
    rw [numbered_eq_ok hnumbered]
    rfl
  simp only at hbody
  split at hbody
  · cases hbody
  · obtain ⟨placed, hplaced, hbody⟩ := bind_eq_ok_iff.mp hbody
    obtain ⟨settled, hsettled, hadded⟩ := bind_eq_ok_iff.mp hbody
    obtain ⟨htext, -, hroom, sources, rfl⟩ := placeSource_eq_ok hplaced
    have hknown := known_of_settleTicket hsettled
    cases hadded
    exact ⟨⟨hunlocked, hwritable, hknown⟩, htext, hroom, hidentities, identities, sources, _,
      settleTicket_eq_ok hsettled⟩

/-! ## When a commit succeeds -/

/-- A source is added to an identity that is there exactly if the catalog is open. -/
theorem Keeps.exists_addSource_iff (hkeeps : catalog.Keeps ledger) {id : IdentityId}
    (hid : ∃ identity ∈ ledger, identity.id = id) {source : Source} (htext : source.Textual)
    (hroom : catalog.sources.greatestId < Table.idLimit) {metadata : Option Metadata}
    {ticket : Option TicketId} {now : Timestamp} :
    (∃ next, catalog.addSource id source metadata ticket now = .ok next) ↔
      catalog.OpenFor ticket := by
  have hidentity : catalog.hasIdentity id = true := (hkeeps.hasIdentity_iff id).mpr hid
  constructor
  · rintro ⟨next, h⟩
    exact (openFor_of_addSource h).1
  · rintro ⟨hunlocked, hwritable, hticket⟩
    obtain ⟨sources, hplaced⟩ := exists_placeSource htext hwritable hroom
    rw [Catalog.addSource]
    simp only [transaction_eq_ok_iff hwritable, hunlocked, hidentity, Bool.not_true,
      Bool.false_eq_true, if_false, true_and]
    rw [hplaced, ok_bind]
    cases metadata with
    | none => exact exists_settleTicket hwritable hticket
    | some metadata => exact exists_settleTicket hwritable hticket

/-- An identity of a new digest is added exactly if the catalog is open. -/
theorem Keeps.exists_addIdentity_iff (hkeeps : catalog.Keeps ledger) {draft : Draft}
    (hnew : ∀ identity ∈ ledger, identity.digest ≠ draft.digest) {source : Source}
    (htext : source.Textual) (hroom : catalog.identities.greatestId < Table.idLimit)
    (hsources : catalog.sources.greatestId < Table.idLimit) {ticket : Option TicketId}
    {now : Timestamp} :
    (∃ added, catalog.addIdentity draft source ticket now = .ok added) ↔
      catalog.OpenFor ticket := by
  have hdigest : ¬ catalog.hasDigest draft.digest = true := by
    rw [hkeeps.hasDigest_iff]
    rintro ⟨identity, hmem, heq⟩
    exact hnew identity hmem heq
  obtain ⟨⟨number, identities⟩, hinsert⟩ := Option.isSome_iff_exists.mp
    ((catalog.identities.isSome_insert?_iff (.ofDraft draft now)).mpr hroom)
  constructor
  · rintro ⟨⟨id, next⟩, h⟩
    exact (openFor_of_addIdentity h).1
  · rintro ⟨hunlocked, hwritable, hticket⟩
    have hplaced : ∃ sources, { catalog with identities := identities }.placeSource ⟨number⟩
        source = .ok { catalog with identities := identities, sources := sources } :=
      exists_placeSource htext hwritable hsources
    obtain ⟨sources, hplaced⟩ := hplaced
    have hsettled : ∃ next, { catalog with
        identities := identities
        sources := sources }.settleTicket ticket ⟨number⟩ now = .ok next :=
      exists_settleTicket hwritable hticket
    obtain ⟨settled, hsettled⟩ := hsettled
    refine ⟨(⟨number⟩, settled), (transaction_eq_ok_iff hwritable).mpr ⟨hunlocked, ?_⟩⟩
    simp only [demandWritable_eq hwritable, ok_bind, hinsert, numbered, hdigest]
    rw [if_neg (by decide)]
    simp only [hplaced, ok_bind, hsettled]
    rfl

end AudioCatalog.Catalog
