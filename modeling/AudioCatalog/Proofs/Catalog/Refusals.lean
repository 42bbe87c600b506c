import AudioCatalog.Proofs.Catalog.Acceptance

/-!
# Refused commits

A source for an identity that is there, and an identity of a digest that is not there, can be
refused for what has nothing to do with either: somebody else is writing, writing is not
allowed, the row numbers are used up, or the ticket does not exist.  There are no other
reasons.
-/

namespace AudioCatalog.Catalog

variable {catalog next : Catalog} {error : Error}

/-- Why a catalog can refuse a commit for a ticket, whatever the commit is to write. -/
inductive Refuses (catalog : Catalog) (ticket : Option TicketId) : Error → Prop
  | locked (locked : catalog.locked = true) : Refuses catalog ticket (.store .locked)
  | readOnly (readOnly : catalog.access = .readOnly) : Refuses catalog ticket (.store .readOnly)
  | full (full : Table.idLimit ≤ catalog.identities.greatestId ∨
      Table.idLimit ≤ catalog.sources.greatestId) : Refuses catalog ticket (.store .full)
  | unknownTicket {id : TicketId} (own : id ∈ ticket)
      (unknown : catalog.tickets.row? id.value = none) : Refuses catalog ticket (.unknownTicket id)

theorem transaction_eq_error {α : Type} {body : Catalog → Except Error α}
    (h : catalog.transaction body = .error error) :
    catalog.locked = true ∧ error = .store .locked ∨ body catalog = .error error := by
  rw [transaction] at h
  split at h
  · rename_i hlocked
    cases h
    exact .inl ⟨hlocked.1, rfl⟩
  · exact .inr h

theorem demandWritable_eq_error (h : catalog.demandWritable = .error error) :
    catalog.access = .readOnly ∧ error = .store .readOnly := by
  rw [demandWritable] at h
  split at h
  · rename_i hreadOnly
    cases h
    exact ⟨hreadOnly, rfl⟩
  · cases h

theorem numbered_eq_error {α : Type} {result : Option α} (h : numbered result = .error error) :
    result = none ∧ error = .store .full := by
  cases result with
  | none =>
      cases h
      exact ⟨rfl, rfl⟩
  | some value => cases h

/-- There is no number left for a row if the greatest one is used up. -/
theorem idLimit_le_of_insert? {ρ : Type} {table : Table ρ} {row : ρ}
    (h : table.insert? row = none) : Table.idLimit ≤ table.greatestId := by
  have hnone : ¬ table.greatestId < Table.idLimit := by
    rw [← table.isSome_insert?_iff row, h]
    exact Bool.false_ne_true
  exact Int.not_lt.mp hnone

theorem idLimit_le_of_skip? {ρ : Type} {table : Table ρ} (h : table.skip? = none) :
    Table.idLimit ≤ table.greatestId := by
  have hnone : ¬ table.greatestId < Table.idLimit := by
    rw [← table.isSome_skip?_iff, h]
    exact Bool.false_ne_true
  exact Int.not_lt.mp hnone

/-- A source whose path name is text is refused only where nothing can be written or the
numbers are used up. -/
theorem placeSource_eq_error {id : IdentityId} {source : Source} (htext : source.Textual)
    (h : catalog.placeSource id source = .error error) :
    catalog.access = .readOnly ∧ error = .store .readOnly ∨
      Table.idLimit ≤ catalog.sources.greatestId ∧ error = .store .full := by
  obtain ⟨path, hpath⟩ := Option.isSome_iff_exists.mp htext
  rw [placeSource, hpath] at h
  simp only [putSourceRow] at h
  rcases bind_eq_error_iff.mp h with hwritable | ⟨_, _, h⟩
  · exact .inl (demandWritable_eq_error hwritable)
  · right
    split at h
    · rcases bind_eq_error_iff.mp h with hskip | ⟨_, _, h⟩
      · obtain ⟨hnone, rfl⟩ := numbered_eq_error hskip
        exact ⟨idLimit_le_of_skip? hnone, rfl⟩
      · cases h
    · rcases bind_eq_error_iff.mp h with hinsert | ⟨_, _, h⟩
      · obtain ⟨hnone, rfl⟩ := numbered_eq_error hinsert
        exact ⟨idLimit_le_of_insert? hnone, rfl⟩
      · cases h

theorem settleTicket_eq_error {ticket : Option TicketId} {identity : IdentityId} {now : Timestamp}
    (h : catalog.settleTicket ticket identity now = .error error) :
    catalog.access = .readOnly ∧ error = .store .readOnly ∨
      ∃ id ∈ ticket, catalog.tickets.row? id.value = none ∧ error = .unknownTicket id := by
  rw [settleTicket.eq_def] at h
  cases ticket with
  | none => cases h
  | some ticket =>
      have hmarked := map_eq_error_iff.mp h
      rw [markResolved.eq_def] at hmarked
      rcases bind_eq_error_iff.mp hmarked with hwritable | ⟨_, _, hrow⟩
      · exact .inl (demandWritable_eq_error hwritable)
      · right
        cases hticket : catalog.tickets.row? ticket.value with
        | none =>
            rw [hticket] at hrow
            cases hrow
            exact ⟨ticket, rfl, hticket, rfl⟩
        | some row =>
            rw [hticket] at hrow
            simp only at hrow
            split at hrow <;> cases hrow

/-- What the last part of a commit is refused for, the whole commit is. -/
theorem Refuses.of_settleTicket {written : Catalog} {ticket : Option TicketId}
    {identity : IdentityId} {now : Timestamp}
    (h : written.settleTicket ticket identity now = .error error)
    (haccess : written.access = catalog.access) (htickets : written.tickets = catalog.tickets) :
    catalog.Refuses ticket error := by
  rcases settleTicket_eq_error h with ⟨hreadOnly, rfl⟩ | ⟨id, hid, hunknown, rfl⟩
  · exact .readOnly (haccess ▸ hreadOnly)
  · exact .unknownTicket hid (htickets ▸ hunknown)

/-- Why a source for an identity that is there is refused. -/
theorem refuses_addSource {id : IdentityId} (hid : catalog.hasIdentity id = true)
    {source : Source} {metadata : Option Metadata} {ticket : Option TicketId} {now : Timestamp}
    (h : catalog.addSource id source metadata ticket now = .error error)
    (htext : source.Textual) : catalog.Refuses ticket error := by
  rcases transaction_eq_error h with ⟨hlocked, rfl⟩ | h
  · exact .locked hlocked
  simp only [hid, Bool.not_true, Bool.false_eq_true, if_false] at h
  rcases bind_eq_error_iff.mp h with hplaced | ⟨placed, hplaced, h⟩
  · rcases placeSource_eq_error htext hplaced with ⟨hreadOnly, rfl⟩ | ⟨hfull, rfl⟩
    · exact .readOnly hreadOnly
    · exact .full (.inr hfull)
  · obtain ⟨-, -, -, sources, rfl⟩ := placeSource_eq_ok hplaced
    cases metadata with
    | none => exact .of_settleTicket h rfl rfl
    | some metadata => exact .of_settleTicket h rfl rfl

/-- Where the numbers of sources are used up, no source can be added, be it that one of the
same state is there. -/
theorem addSource_of_full {ticket : Option TicketId} {id : IdentityId} {source : Source}
    (hid : catalog.hasIdentity id = true) (hopen : catalog.OpenFor ticket) (htext : source.Textual)
    (hfull : Table.idLimit ≤ catalog.sources.greatestId) (metadata : Option Metadata)
    (now : Timestamp) :
    catalog.addSource id source metadata ticket now = .error (.store .full) := by
  cases hadded : catalog.addSource id source metadata ticket now with
  | ok next =>
      obtain ⟨-, -, hroom, -⟩ := openFor_of_addSource hadded
      exact absurd hroom (Int.not_lt.mpr hfull)
  | error error =>
      obtain ⟨hunlocked, hwritable, -⟩ := hopen
      rcases transaction_eq_error hadded with ⟨hlocked, -⟩ | hbody
      · rw [hunlocked] at hlocked
        cases hlocked
      simp only [hid, Bool.not_true, Bool.false_eq_true, if_false] at hbody
      rcases bind_eq_error_iff.mp hbody with hplaced | ⟨placed, hplaced, -⟩
      · rcases placeSource_eq_error htext hplaced with ⟨hreadOnly, -⟩ | ⟨-, rfl⟩
        · exact absurd hreadOnly hwritable
        · rfl
      · obtain ⟨-, -, hroom, -⟩ := placeSource_eq_ok hplaced
        exact absurd hroom (Int.not_lt.mpr hfull)

/-- Why an identity of a digest that is not there is refused. -/
theorem refuses_addIdentity {draft : Draft} (hnew : catalog.hasDigest draft.digest = false)
    {source : Source} {ticket : Option TicketId} {now : Timestamp}
    (h : catalog.addIdentity draft source ticket now = .error error)
    (htext : source.Textual) : catalog.Refuses ticket error := by
  rcases transaction_eq_error h with ⟨hlocked, rfl⟩ | h
  · exact .locked hlocked
  rcases bind_eq_error_iff.mp h with hwritable | ⟨_, _, h⟩
  · obtain ⟨hreadOnly, rfl⟩ := demandWritable_eq_error hwritable
    exact .readOnly hreadOnly
  rcases bind_eq_error_iff.mp h with hnumbered | ⟨⟨number, identities⟩, _, h⟩
  · obtain ⟨hnone, rfl⟩ := numbered_eq_error hnumbered
    exact .full (.inl (idLimit_le_of_insert? hnone))
  simp only [hnew, Bool.false_eq_true, if_false] at h
  rcases bind_eq_error_iff.mp h with hplaced | ⟨placed, hplaced, h⟩
  · rcases placeSource_eq_error htext hplaced with ⟨hreadOnly, rfl⟩ | ⟨hfull, rfl⟩
    · exact .readOnly hreadOnly
    · exact .full (.inr hfull)
  · obtain ⟨-, -, -, sources, rfl⟩ := placeSource_eq_ok hplaced
    rcases bind_eq_error_iff.mp h with hsettled | ⟨_, _, h⟩
    · exact .of_settleTicket hsettled rfl rfl
    · cases h

end AudioCatalog.Catalog
