import AudioCatalog.Proofs.Catalog.Commits

/-!
# Sound catalogs

`Catalog.Consistent` says what a reader of the tables can rely on.  It follows from
`Catalog.Sound`, which is what every transaction preserves: the catalog keeps a ledger of
identities with distinct digests and with sources, and each ticket is as it was made or as
it was resolved.
-/

namespace AudioCatalog

/-! ## What a reader can rely on -/

/-- Whether the cells of an acoustic key are all empty, or are those of a key. -/
def IdentityRow.KeyCells (row : IdentityRow) : Prop :=
  (row.bucket = .null ∧ row.frames = .null ∧ row.vector = .null) ∨
    ∃ (frames : Nat) (vector : List UInt8), 0 < frames ∧ row.frames = .integer frames ∧
      row.bucket = .integer (frames / AcousticKey.bucketSpan : Nat) ∧ row.vector = .blob vector

/-- Whether the three tables fit together. -/
structure Catalog.Consistent (catalog : Catalog) : Prop where
  ids_distinct : (catalog.identities.rows.map (·.1)).Nodup
  digests_distinct : (catalog.identities.rows.map (·.2.digest)).Nodup
  digests_exact : ∀ entry ∈ catalog.identities.rows, ∃ digest : Digest,
    entry.2.digest = .blob digest.bytes
  sourced : ∀ entry ∈ catalog.identities.rows, ∃ source ∈ catalog.sources.rows,
    source.2.identity = .integer entry.1
  owned : ∀ source ∈ catalog.sources.rows, ∃ entry ∈ catalog.identities.rows,
    source.2.identity = .integer entry.1
  sources_distinct : catalog.sources.rows.Pairwise fun a b => a.2.sameKey b.2 = false
  resolved_known : ∀ ticket ∈ catalog.tickets.rows, ticket.2.resolvedIdentity ≠ .null →
    ∃ entry ∈ catalog.identities.rows, ticket.2.resolvedIdentity = .integer entry.1
  pending_free : ∀ ticket ∈ catalog.tickets.rows, ticket.2.resolvedAt = .null →
    ticket.2.resolvedIdentity = .null
  keys_whole : ∀ entry ∈ catalog.identities.rows, entry.2.KeyCells

/-! ## What transactions preserve -/

/-- Whether the entries of a ledger can stand side by side. -/
structure SoundLedger (ledger : List Identity) : Prop where
  digests : (ledger.map (·.digest)).Nodup
  sourced : ∀ identity ∈ ledger, identity.sources ≠ []
  distinct : ∀ identity ∈ ledger, identity.sources.Pairwise fun a b => a.sameState b = false

/-- Whether a ticket is as it was made, or as it was resolved: by hand, or by the commit of
an identity that is in the ledger. -/
def TicketRow.Sound (ledger : List Identity) (row : TicketRow) : Prop :=
  ∃ path requestedAt, row = .ofPath path requestedAt ∨
    ∃ identity now, row = (TicketRow.ofPath path requestedAt).settled identity now ∧
      ∀ id ∈ identity, id ∈ ledger.map (·.id)

/-- Whether a catalog keeps a ledger, and tickets that fit it. -/
def Catalog.Sound (catalog : Catalog) : Prop :=
  ∃ ledger, catalog.Keeps ledger ∧ SoundLedger ledger ∧
    ∀ entry ∈ catalog.tickets.rows, entry.2.Sound ledger

/-! ## Ledgers that grow -/

theorem Source.sameState_comm (a b : Source) : a.sameState b = b.sameState a := by
  simp only [sameState]
  rw [decide_eq_decide.mpr (eq_comm (a := a.path)),
    decide_eq_decide.mpr (eq_comm (a := a.modified)),
    decide_eq_decide.mpr (eq_comm (a := a.size))]

theorem Source.addTo_ne_nil (source : Source) (sources : List Source) :
    source.addTo sources ≠ [] := by
  rw [addTo]
  split
  · rename_i hany
    rintro rfl
    cases hany
  · simp

theorem Source.pairwise_addTo (source : Source) {sources : List Source}
    (h : sources.Pairwise fun a b => a.sameState b = false) :
    (source.addTo sources).Pairwise fun a b => a.sameState b = false := by
  rw [addTo]
  split
  · exact h
  · rename_i hany
    refine List.pairwise_append.mpr ⟨h, List.pairwise_singleton .., ?_⟩
    intro other hother added hadded
    rw [List.mem_singleton.mp hadded]
    simpa using fun hsame => hany (List.any_eq_true.mpr ⟨other, hother, hsame⟩)

namespace SoundLedger

variable {ledger : List Identity}

theorem map_digest_extendEntry (ledger : List Identity) (id : IdentityId) (source : Source)
    (metadata : Option Metadata) :
    (extendEntry ledger id source metadata).map (·.digest) = ledger.map (·.digest) := by
  have h := congrArg (List.map Known.digest) (map_toKnown_extendEntry ledger id source metadata)
  rwa [List.map_map, List.map_map] at h

theorem extendEntry (hledger : SoundLedger ledger) (id : IdentityId) (source : Source)
    (metadata : Option Metadata) :
    SoundLedger (AudioCatalog.extendEntry ledger id source metadata) where
  digests := by
    rw [map_digest_extendEntry]
    exact hledger.digests
  sourced := by
    intro extended hextended
    obtain ⟨identity, hmem, rfl⟩ := List.mem_map.mp hextended
    split
    · exact source.addTo_ne_nil identity.sources
    · exact hledger.sourced identity hmem
  distinct := by
    intro extended hextended
    obtain ⟨identity, hmem, rfl⟩ := List.mem_map.mp hextended
    split
    · exact source.pairwise_addTo (hledger.distinct identity hmem)
    · exact hledger.distinct identity hmem

theorem append (hledger : SoundLedger ledger) {draft : Draft}
    (hdigest : ∀ identity ∈ ledger, identity.digest ≠ draft.digest) (id : IdentityId)
    (source : Source) (now : Timestamp) :
    SoundLedger (ledger ++ [draft.entry id [source] now]) where
  digests := by
    rw [List.map_append, List.nodup_append]
    refine ⟨hledger.digests, List.nodup_singleton _, ?_⟩
    intro digest hmem other hother
    obtain ⟨identity, hidentity, rfl⟩ := List.mem_map.mp hmem
    rw [List.map_singleton, List.mem_singleton] at hother
    rw [hother]
    exact hdigest identity hidentity
  sourced := by
    intro identity hmem
    rcases List.mem_append.mp hmem with hmem | hmem
    · exact hledger.sourced identity hmem
    · rw [List.mem_singleton.mp hmem]
      exact List.cons_ne_nil _ _
  distinct := by
    intro identity hmem
    rcases List.mem_append.mp hmem with hmem | hmem
    · exact hledger.distinct identity hmem
    · rw [List.mem_singleton.mp hmem]
      exact List.pairwise_singleton _ _

end SoundLedger

/-! ## Tickets -/

namespace TicketRow

variable {ledger next : List Identity} {row : TicketRow}

theorem Sound.mono (hrow : row.Sound ledger)
    (hids : ∀ id ∈ ledger.map (·.id), id ∈ next.map (·.id)) : row.Sound next := by
  obtain ⟨path, requestedAt, hform⟩ := hrow
  refine ⟨path, requestedAt, hform.imp_right ?_⟩
  rintro ⟨identity, now, hresolved, hknown⟩
  exact ⟨identity, now, hresolved, fun id hid => hids id (hknown id hid)⟩

/-- A resolved ticket stays as it is. -/
theorem settled_settled (row : TicketRow) (first second : Option IdentityId)
    (earlier now : Timestamp) :
    (row.settled first earlier).settled second now = row.settled first earlier := by
  by_cases hpending : row.resolvedAt = .null
  · simp [settled, hpending]
  · simp [settled, hpending]

theorem Sound.settled (hrow : row.Sound ledger) {identity : Option IdentityId}
    (hknown : ∀ id ∈ identity, id ∈ ledger.map (·.id)) (now : Timestamp) :
    (row.settled identity now).Sound ledger := by
  obtain ⟨path, requestedAt, rfl | ⟨first, earlier, rfl, hfirst⟩⟩ := hrow
  · exact ⟨path, requestedAt, .inr ⟨identity, now, rfl, hknown⟩⟩
  · rw [settled_settled]
    exact ⟨path, requestedAt, .inr ⟨first, earlier, rfl, hfirst⟩⟩

end TicketRow

/-- Resolving a ticket leaves all tickets sound. -/
theorem sound_of_mem_settle {ledger : List Identity} {tickets : Table TicketRow}
    (htickets : ∀ entry ∈ tickets.rows, entry.2.Sound ledger) (ticket : TicketId)
    {identity : Option IdentityId} (hknown : ∀ id ∈ identity, id ∈ ledger.map (·.id))
    (now : Timestamp) :
    ∀ entry ∈ (tickets.settle ticket identity now).rows, entry.2.Sound ledger := by
  intro entry hmem
  obtain ⟨before, hbefore, rfl⟩ := List.mem_map.mp hmem
  have hsound := htickets before hbefore
  simp only
  split
  · exact hsound.settled hknown now
  · exact hsound

theorem sound_of_mem_afterCommit {ledger : List Identity} {tickets : Table TicketRow}
    (htickets : ∀ entry ∈ tickets.rows, entry.2.Sound ledger) (ticket : Option TicketId)
    {identity : IdentityId} (hknown : identity ∈ ledger.map (·.id)) (now : Timestamp) :
    ∀ entry ∈ (tickets.afterCommit ticket identity now).rows, entry.2.Sound ledger := by
  cases ticket with
  | none => exact htickets
  | some ticket =>
      refine sound_of_mem_settle htickets ticket ?_ now
      rintro id ⟨⟩
      exact hknown

/-! ## Transactions -/

namespace Catalog.Sound

variable {catalog next : Catalog}

/-- Whether a catalog is sound depends on its tables only. -/
theorem congr (hsound : catalog.Sound) (hidentities : next.identities = catalog.identities)
    (hsources : next.sources = catalog.sources) (htickets : next.tickets = catalog.tickets) :
    next.Sound := by
  obtain ⟨ledger, hkeeps, hledger, hrows⟩ := hsound
  exact ⟨ledger, hkeeps.congr (by rw [hidentities]) (by rw [hsources]), hledger, htickets ▸ hrows⟩

theorem of_empty (hidentities : catalog.identities.rows = []) (hsources : catalog.sources.rows = [])
    (htickets : catalog.tickets.rows = []) : catalog.Sound := by
  refine ⟨[], ⟨hidentities, ?_, ?_, ?_⟩, ⟨.nil, ?_, ?_⟩, ?_⟩
  · simp
  · simp [hsources]
  · simp
  · simp
  · simp
  · simp [htickets]

theorem addIdentity (hsound : catalog.Sound) {draft : Draft} {source : Source}
    {ticket : Option TicketId} {now : Timestamp} {id : IdentityId}
    (h : catalog.addIdentity draft source ticket now = .ok (id, next)) : next.Sound := by
  obtain ⟨ledger, hkeeps, hledger, hrows⟩ := hsound
  obtain ⟨hdigest, _, _, ⟨_, _, rfl, _, _⟩, hkept⟩ := hkeeps.addIdentity h
  refine ⟨_, hkept, hledger.append hdigest id source now, ?_⟩
  refine sound_of_mem_afterCommit (fun entry hmem => (hrows entry hmem).mono fun other hother => ?_)
    ticket ?_ now
  · rw [List.map_append]
    exact List.mem_append_left _ hother
  · rw [List.map_append]
    exact List.mem_append_right _ (List.mem_singleton.mpr rfl)

theorem addSource (hsound : catalog.Sound) {id : IdentityId} {source : Source}
    {metadata : Option Metadata} {ticket : Option TicketId} {now : Timestamp}
    (h : catalog.addSource id source metadata ticket now = .ok next) : next.Sound := by
  obtain ⟨ledger, hkeeps, hledger, hrows⟩ := hsound
  obtain ⟨⟨identity, hmem, rfl⟩, _, ⟨_, _, rfl, _, _⟩, hkept⟩ := hkeeps.addSource h
  refine ⟨_, hkept, hledger.extendEntry identity.id source metadata, ?_⟩
  refine sound_of_mem_afterCommit
    (fun entry hentry => (hrows entry hentry).mono fun other hother => ?_) ticket ?_ now
  · rwa [map_id_extendEntry]
  · rw [map_id_extendEntry]
    exact List.mem_map_of_mem hmem

theorem resolve (hsound : catalog.Sound) {id : TicketId} {now : Timestamp} {done : Bool}
    (h : catalog.resolve id now = .ok (done, next)) : next.Sound := by
  obtain ⟨ledger, hkeeps, hledger, hrows⟩ := hsound
  obtain ⟨_, _, _, _, rfl⟩ := markResolved_eq_ok (transaction_eq_ok h)
  exact ⟨ledger, hkeeps.congr rfl rfl, hledger, sound_of_mem_settle hrows id (by simp) now⟩

theorem addTicket (hsound : catalog.Sound) {current : Except FileError Pathname} {path : Pathname}
    {now : Timestamp} {ticket : Ticket}
    (h : catalog.addTicket current path now = .ok (ticket, next)) : next.Sound := by
  obtain ⟨ledger, hkeeps, hledger, hrows⟩ := hsound
  obtain ⟨text, tickets, _, hinsert, rfl⟩ := addTicket_eq_ok h
  refine ⟨ledger, hkeeps.congr rfl rfl, hledger, ?_⟩
  rw [(Table.insert?_eq_some hinsert).2.1]
  intro entry hmem
  rcases List.mem_append.mp hmem with hmem | hmem
  · exact hrows entry hmem
  · rw [List.mem_singleton.mp hmem]
    exact ⟨text, now, .inl rfl⟩

/-! ## Sound catalogs are consistent -/

/-- No two rows of sources have the same key: within an identity since its sources differ,
and across identities since the identity is part of the key. -/
theorem pairwise_sources {ledger : List Identity} (hkeeps : catalog.Keeps ledger)
    (hledger : SoundLedger ledger) :
    catalog.sources.rows.Pairwise fun a b => a.2.sameKey b.2 = false := by
  have hrows : (catalog.sources.rows.map (·.2)).Pairwise fun a b => a.sameKey b = false := by
    refine List.pairwise_iff_forall_sublist.mpr fun {a b} hsublist => ?_
    by_cases hsame : a.identity = b.identity
    · obtain ⟨identity, hmem, hcell⟩ :=
        List.mem_map.mp (hkeeps.owned a (hsublist.subset List.mem_cons_self))
      have hpair : [a, b].Sublist (identity.sources.map (Source.row identity.id)) := by
        rw [← hkeeps.sources identity hmem, Catalog.sourceRows]
        have hfiltered := hsublist.filter fun row =>
          decide (row.identity = .integer identity.id.value)
        rwa [List.filter_eq_self.mpr] at hfiltered
        intro row hrow
        simp only [List.mem_cons, List.not_mem_nil, or_false] at hrow
        rcases hrow with rfl | rfl
        · simp [← hcell]
        · simp [← hsame, ← hcell]
      have hdistinct : (identity.sources.map (Source.row identity.id)).Pairwise
          fun a b => a.sameKey b = false := by
        refine List.pairwise_map.mpr ((hledger.distinct identity hmem).imp_of_mem ?_)
        intro first second hfirst hsecond hstate
        rw [Source.sameKey_row (hkeeps.textual identity hmem first hfirst)
          (hkeeps.textual identity hmem second hsecond)]
        exact hstate
      exact List.pairwise_iff_forall_sublist.mp hdistinct hpair
    · simp [SourceRow.sameKey, hsame]
  exact List.pairwise_map.mp hrows

/-- An identity of the ledger with a source has a row of one. -/
theorem exists_source {ledger : List Identity} (hkeeps : catalog.Keeps ledger)
    {identity : Identity} (hmem : identity ∈ ledger) (hsourced : identity.sources ≠ []) :
    ∃ source ∈ catalog.sources.rows, source.2.identity = .integer identity.id.value := by
  obtain ⟨source, hsource⟩ := List.exists_mem_of_ne_nil _ hsourced
  have hrow : source.row identity.id ∈ catalog.sourceRows identity.id := by
    rw [hkeeps.sources identity hmem]
    exact List.mem_map_of_mem hsource
  obtain ⟨row, hrow, heq⟩ := List.mem_map.mp (List.mem_filter.mp hrow).1
  have hidentity : row.2.identity = .integer identity.id.value := by
    rw [heq, Source.identity_row]
  exact ⟨row, hrow, hidentity⟩

theorem keyCells_row (identity : Identity) : identity.row.KeyCells := by
  cases hkey : identity.key with
  | none =>
      refine .inl ?_
      simp [Identity.row, IdentityRow.ofDraft, hkey]
  | some key =>
      refine .inr ⟨key.frames, key.stored, key.frames_pos, ?_⟩
      simp [Identity.row, IdentityRow.ofDraft, hkey, AcousticKey.bucket]

theorem consistent (hsound : catalog.Sound) : catalog.Consistent := by
  obtain ⟨ledger, hkeeps, hledger, htickets⟩ := hsound
  constructor
  case ids_distinct => exact catalog.identities.nodup_ids
  case digests_distinct =>
    rw [hkeeps.identities, List.map_map, List.Nodup, List.pairwise_map]
    refine (List.pairwise_map.mp hledger.digests).imp fun {a b} hne heq => hne ?_
    exact (a.digest_row_eq_iff b.digest).mp heq
  case digests_exact =>
    intro entry hmem
    obtain ⟨identity, _, rfl⟩ := hkeeps.exists_of_mem_rows hmem
    exact ⟨identity.digest, rfl⟩
  case sourced =>
    intro entry hmem
    obtain ⟨identity, hidentity, rfl⟩ := hkeeps.exists_of_mem_rows hmem
    exact exists_source hkeeps hidentity (hledger.sourced identity hidentity)
  case owned =>
    intro source hmem
    obtain ⟨identity, hidentity, hcell⟩ :=
      List.mem_map.mp (hkeeps.owned source.2 (List.mem_map_of_mem hmem))
    exact ⟨_, hkeeps.mem_rows hidentity, hcell.symm⟩
  case sources_distinct => exact pairwise_sources hkeeps hledger
  case resolved_known =>
    intro ticket hmem hresolved
    obtain ⟨path, requestedAt, hform | ⟨identity, now, hform, hknown⟩⟩ := htickets ticket hmem
    · rw [hform] at hresolved
      exact absurd rfl hresolved
    · rw [hform] at hresolved ⊢
      cases identity with
      | none => exact absurd rfl hresolved
      | some id =>
          obtain ⟨known, hidentity, rfl⟩ := List.mem_map.mp (hknown id rfl)
          exact ⟨_, hkeeps.mem_rows hidentity, rfl⟩
  case pending_free =>
    intro ticket hmem hpending
    obtain ⟨path, requestedAt, hform | ⟨identity, now, hform, _⟩⟩ := htickets ticket hmem
    · rw [hform]
      rfl
    · rw [hform] at hpending
      cases hpending
  case keys_whole =>
    intro entry hmem
    obtain ⟨identity, _, rfl⟩ := hkeeps.exists_of_mem_rows hmem
    exact keyCells_row identity

end Catalog.Sound

end AudioCatalog
