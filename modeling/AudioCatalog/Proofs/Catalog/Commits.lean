import AudioCatalog.Catalog.Tickets
import AudioCatalog.Proofs.Catalog.Entries

/-!
# Transactions on a ledger

Each transaction that succeeds takes the catalog of one ledger to the catalog of the next,
and the lemma about it says which ledger that is and what has become of the tickets.
-/

namespace AudioCatalog

/-! ## Tickets -/

/-- A ticket that is resolved now, unless it was before. -/
def TicketRow.settled (row : TicketRow) (identity : Option IdentityId) (now : Timestamp) :
    TicketRow :=
  if row.resolvedAt = .null then
    { row with
      resolvedAt := .integer now
      resolvedIdentity := match identity with
        | some identity => .integer identity.value
        | none => .null }
  else row

/-- The tickets after one of them is resolved. -/
def Table.settle (tickets : Table TicketRow) (ticket : TicketId) (identity : Option IdentityId)
    (now : Timestamp) : Table TicketRow :=
  tickets.modify ticket.value fun row => row.settled identity now

/-- The tickets after a commit. -/
def Table.afterCommit (tickets : Table TicketRow) (ticket : Option TicketId)
    (identity : IdentityId) (now : Timestamp) : Table TicketRow :=
  match ticket with
  | none => tickets
  | some ticket => tickets.settle ticket (some identity) now

namespace Catalog

variable {catalog next : Catalog} {ledger : List Identity}

theorem transaction_eq_ok {α : Type} {body : Catalog → Except Error α} {result : α}
    (h : catalog.transaction body = .ok result) : body catalog = .ok result := by
  rw [transaction] at h
  split at h
  · cases h
  · exact h

/-- Resolving a ticket tells whether it was pending, and resolves it then. -/
theorem markResolved_eq_ok {id : TicketId} {identity : Option IdentityId} {now : Timestamp}
    {done : Bool} (h : catalog.markResolved id identity now = .ok (done, next)) :
    catalog.access ≠ .readOnly ∧ ∃ row, (id.value, row) ∈ catalog.tickets.rows ∧
      done = decide (row.resolvedAt = .null) ∧
      next = { catalog with tickets := catalog.tickets.settle id identity now } := by
  rw [markResolved.eq_def, bind_eq_ok_iff] at h
  obtain ⟨_, hwritable, h⟩ := h
  refine ⟨demandWritable_eq_ok hwritable, ?_⟩
  cases hrow : catalog.tickets.row? id.value with
  | none =>
      rw [hrow] at h
      cases h
  | some row =>
      rw [hrow] at h
      have hmem := Table.row?_eq_some hrow
      refine ⟨row, hmem, ?_⟩
      simp only at h
      split at h
      · rename_i hpending
        cases h
        refine ⟨by simp [hpending], ?_⟩
        refine congrArg (fun tickets => { catalog with tickets := tickets })
          (catalog.tickets.modify_congr fun other hother => ?_)
        cases catalog.tickets.eq_of_mem_of_mem hother hmem rfl
        exact (if_pos hpending).symm
      · rename_i hresolved
        cases h
        refine ⟨by simp [hresolved], ?_⟩
        refine congrArg (fun tickets => { catalog with tickets := tickets })
          (catalog.tickets.modify_id fun other hother => ?_).symm
        cases catalog.tickets.eq_of_mem_of_mem hother hmem rfl
        simp only [TicketRow.settled, if_neg hresolved]

theorem settleTicket_eq_ok {ticket : Option TicketId} {identity : IdentityId} {now : Timestamp}
    (h : catalog.settleTicket ticket identity now = .ok next) :
    next = { catalog with tickets := catalog.tickets.afterCommit ticket identity now } := by
  rw [settleTicket.eq_def] at h
  cases ticket with
  | none =>
      cases h
      rfl
  | some ticket =>
      obtain ⟨⟨done, marked⟩, hmarked, rfl⟩ := map_eq_ok_iff.mp h
      obtain ⟨_, _, _, _, rfl⟩ := markResolved_eq_ok hmarked
      rfl

/-- A new ticket has a number that none had before, and its row comes last. -/
theorem addTicket_eq_ok {current : Except FileError Pathname} {path : Pathname} {now : Timestamp}
    {ticket : Ticket} (h : catalog.addTicket current path now = .ok (ticket, next)) :
    ∃ text tickets, ticketPath current path = .ok text ∧
      catalog.tickets.insert? (.ofPath text now) = some (ticket.id.value, tickets) ∧
      next = { catalog with tickets := tickets } := by
  rw [addTicket] at h
  split at h
  · cases h
  · rename_i text htext
    obtain ⟨_, _, h⟩ := bind_eq_ok_iff.mp (transaction_eq_ok h)
    obtain ⟨⟨number, tickets⟩, hnumbered, h⟩ := bind_eq_ok_iff.mp h
    cases h
    exact ⟨text, tickets, htext, numbered_eq_ok hnumbered, rfl⟩

/-- A new identity is given as it was written. -/
theorem insert_eq_ok {draft : Draft} {source : Source} {now : Timestamp} {identity : Identity}
    (h : catalog.insert draft source now = .ok (identity, next)) :
    catalog.addIdentity draft source none now = .ok (identity.id, next) := by
  obtain ⟨⟨id, added⟩, hadded, h⟩ := bind_eq_ok_iff.mp h
  cases h
  exact hadded

/-! ## Entries -/

/-- The catalog with other metadata in the row of an identity. -/
def withMetadata (catalog : Catalog) (id : IdentityId) (metadata : Metadata) : Catalog :=
  { catalog with identities := catalog.identities.modify id.value fun row =>
      { row with metadata := .text metadata.print } }

/-- Other metadata replaces that of the entry. -/
theorem Keeps.withMetadata (hkeeps : catalog.Keeps ledger) (id : IdentityId)
    (metadata : Metadata) :
    (catalog.withMetadata id metadata).Keeps (ledger.map fun identity : Identity =>
      if identity.id = id then { identity with metadata := metadata } else identity) where
  identities := by
    simp only [Catalog.withMetadata, Table.modify, hkeeps.identities, List.map_map]
    apply List.map_congr_left
    intro identity _
    simp only [Function.comp_apply]
    by_cases hid : identity.id = id
    · subst hid
      simp [Identity.row, IdentityRow.ofDraft]
    · have hvalue : identity.id.value ≠ id.value := fun h => hid (congrArg IdentityId.mk h)
      simp [hid, hvalue]
  sources := by
    intro changed hchanged
    obtain ⟨identity, hmem, rfl⟩ := List.mem_map.mp hchanged
    have hrows := hkeeps.sources identity hmem
    split
    · exact hrows
    · exact hrows
  owned := by
    intro row hrow
    have hids : (ledger.map fun identity : Identity =>
        if identity.id = id then { identity with metadata := metadata } else identity).map
          (fun identity => Cell.integer identity.id.value) =
        ledger.map fun identity => Cell.integer identity.id.value := by
      rw [List.map_map]
      apply List.map_congr_left
      intro identity _
      simp only [Function.comp_apply]
      split <;> rfl
    rw [hids]
    exact hkeeps.owned row hrow
  textual := by
    intro changed hchanged
    obtain ⟨identity, hmem, rfl⟩ := List.mem_map.mp hchanged
    split
    · exact hkeeps.textual identity hmem
    · exact hkeeps.textual identity hmem

theorem map_extendEntry (ledger : List Identity) (id : IdentityId) (source : Source)
    (metadata : Metadata) :
    ((extendEntry ledger id source none).map fun identity : Identity =>
      if identity.id = id then { identity with metadata := metadata } else identity) =
      extendEntry ledger id source (some metadata) := by
  rw [extendEntry, extendEntry, List.map_map]
  apply List.map_congr_left
  intro identity _
  by_cases hid : identity.id = id
  · simp [hid, Identity.extended]
  · simp [hid]

/-- Adding a source extends the entry of its identity. -/
theorem Keeps.addSource (hkeeps : catalog.Keeps ledger) {id : IdentityId} {source : Source}
    {metadata : Option Metadata} {ticket : Option TicketId} {now : Timestamp}
    (h : catalog.addSource id source metadata ticket now = .ok next) :
    (∃ identity ∈ ledger, identity.id = id) ∧ source.Textual ∧
      (∃ identities sources, next = { catalog with
          identities := identities
          sources := sources
          tickets := catalog.tickets.afterCommit ticket id now } ∧
        identities.greatestId = catalog.identities.greatestId ∧
        sources.greatestId = catalog.sources.greatestId + 1) ∧
      next.Keeps (extendEntry ledger id source metadata) := by
  have h := transaction_eq_ok h
  split at h
  · cases h
  · rename_i hidentity
    have hid := (hkeeps.hasIdentity_iff id).mp (by simpa using hidentity)
    obtain ⟨placed, hplaced, h⟩ := bind_eq_ok_iff.mp h
    obtain ⟨_, htext, sources, rfl, hgreatest, hextended⟩ := hkeeps.placeSource hid hplaced
    refine ⟨hid, htext, ?_⟩
    cases metadata with
    | none =>
        cases settleTicket_eq_ok h
        exact ⟨⟨_, sources, rfl, rfl, hgreatest⟩, hextended.congr rfl rfl⟩
    | some metadata =>
        cases settleTicket_eq_ok h
        have hmetadata := hextended.withMetadata id metadata
        rw [map_extendEntry] at hmetadata
        exact ⟨⟨_, sources, rfl, Table.greatestId_modify .., hgreatest⟩, hmetadata.congr rfl rfl⟩

theorem Keeps.id_le_greatestId (hkeeps : catalog.Keeps ledger) {identity : Identity}
    (hmem : identity ∈ ledger) : identity.id.value ≤ catalog.identities.greatestId :=
  catalog.identities.le_greatestId _ (hkeeps.mem_rows hmem)

/-- The row of an identity without sources becomes an entry without sources. -/
theorem Keeps.insertRow (hkeeps : catalog.Keeps ledger) {draft : Draft} {now : Timestamp}
    {number : Int} {identities : Table IdentityRow}
    (h : catalog.identities.insert? (.ofDraft draft now) = some (number, identities)) :
    { catalog with identities := identities }.Keeps
      (ledger ++ [draft.entry ⟨number⟩ [] now]) where
  identities := by
    obtain ⟨_, hrows, _⟩ := Table.insert?_eq_some h
    simp only [hrows, hkeeps.identities, List.map_append]
    rfl
  sources := by
    obtain ⟨hnumber, _, _⟩ := Table.insert?_eq_some h
    intro identity hmem
    rcases List.mem_append.mp hmem with hmem | hmem
    · exact hkeeps.sources identity hmem
    · cases List.mem_singleton.mp hmem
      -- The number is new, so no source can refer to it.
      apply List.filter_eq_nil_iff.mpr
      intro row hrow hcell
      obtain ⟨other, hother, howner⟩ := List.mem_map.mp (hkeeps.owned row hrow)
      have hle := hkeeps.id_le_greatestId hother
      rw [decide_eq_true_eq, ← howner] at hcell
      have hid : other.id.value = number := Cell.integer.inj hcell
      omega
  owned := by
    intro row hrow
    rw [List.map_append]
    exact List.mem_append_left _ (hkeeps.owned row hrow)
  textual := by
    intro identity hmem
    rcases List.mem_append.mp hmem with hmem | hmem
    · exact hkeeps.textual identity hmem
    · cases List.mem_singleton.mp hmem
      intro source hsource
      cases hsource

/-- Adding an identity puts its entry last, under a number that none had before. -/
theorem Keeps.addIdentity (hkeeps : catalog.Keeps ledger) {draft : Draft} {source : Source}
    {ticket : Option TicketId} {now : Timestamp} {id : IdentityId}
    (h : catalog.addIdentity draft source ticket now = .ok (id, next)) :
    (∀ identity ∈ ledger, identity.digest ≠ draft.digest) ∧ source.Textual ∧
      id.value = catalog.identities.greatestId + 1 ∧
      (∃ identities sources, next = { catalog with
          identities := identities
          sources := sources
          tickets := catalog.tickets.afterCommit ticket id now } ∧
        identities.greatestId = id.value ∧
        sources.greatestId = catalog.sources.greatestId + 1) ∧
      next.Keeps (ledger ++ [draft.entry id [source] now]) := by
  have h := transaction_eq_ok h
  obtain ⟨_, _, h⟩ := bind_eq_ok_iff.mp h
  obtain ⟨⟨number, identities⟩, hnumbered, h⟩ := bind_eq_ok_iff.mp h
  have hinsert := numbered_eq_ok hnumbered
  obtain ⟨hnumber, _, _⟩ := Table.insert?_eq_some hinsert
  have hkept := hkeeps.insertRow hinsert
  simp only at h
  split at h
  · cases h
  · rename_i hdigest
    obtain ⟨placed, hplaced, h⟩ := bind_eq_ok_iff.mp h
    obtain ⟨settled, hsettled, h⟩ := bind_eq_ok_iff.mp h
    cases h
    have hnew : ∃ identity ∈ ledger ++ [draft.entry ⟨number⟩ [] now],
        identity.id = (⟨number⟩ : IdentityId) :=
      ⟨_, List.mem_append_right _ (List.mem_singleton.mpr rfl), rfl⟩
    obtain ⟨_, htext, sources, rfl, hgreatest, hextended⟩ := hkept.placeSource hnew hplaced
    cases settleTicket_eq_ok hsettled
    refine ⟨?_, htext, hnumber,
      ⟨identities, sources, rfl, Table.greatestId_of_insert? hinsert, hgreatest⟩, ?_⟩
    · intro identity hmem heq
      exact hdigest ((hkeeps.hasDigest_iff draft.digest).mpr ⟨identity, hmem, heq⟩)
    · have hne : ∀ identity ∈ ledger, identity.id ≠ (⟨number⟩ : IdentityId) := by
        intro identity hmem heq
        have hle := hkeeps.id_le_greatestId hmem
        rw [heq] at hle
        simp only at hle
        omega
      rw [extendEntry_append_entry hne] at hextended
      exact hextended.congr rfl rfl

end Catalog

end AudioCatalog
