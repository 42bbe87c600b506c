import AudioCatalog.Proofs.Import.Writing
import AudioCatalog.Proofs.Session.Writes

/-!
# Entries that stay

Nothing takes an entry out of a catalog or changes what it says, apart from the metadata of an
identity and from a ticket becoming resolved.  What a write may do to an entry is
`Identity.Continues` and `TicketRow.Continues`; both compose, so a catalog retains its entries
through any number of writes, and through closing and opening it again.
-/

namespace AudioCatalog

/-! ## What may become of an entry -/

/-- Whether an identity is an earlier one, perhaps with more sources behind those it had and
with other metadata. -/
def Identity.Continues (later earlier : Identity) : Prop :=
  ∃ metadata added,
    later = { earlier with metadata := metadata, sources := earlier.sources ++ added }

namespace Identity.Continues

theorem refl (identity : Identity) : identity.Continues identity :=
  ⟨identity.metadata, [], by rw [List.append_nil]⟩

theorem trans {first second third : Identity} (hlater : third.Continues second)
    (hearlier : second.Continues first) : third.Continues first := by
  obtain ⟨_, added, rfl⟩ := hearlier
  obtain ⟨metadata, more, rfl⟩ := hlater
  exact ⟨metadata, added ++ more, by rw [List.append_assoc]⟩

theorem extended (identity : Identity) (source : Source) (metadata : Option Metadata) :
    (identity.extended source metadata).Continues identity := by
  rw [Identity.extended, Source.addTo]
  split
  · exact ⟨_, [], by rw [List.append_nil]⟩
  · exact ⟨_, [source], rfl⟩

theorem asStored {later earlier : Identity} (h : later.Continues earlier) :
    later.asStored.Continues earlier.asStored := by
  obtain ⟨metadata, added, rfl⟩ := h
  exact ⟨metadata, added.map Source.asStored, by rw [Identity.asStored, List.map_append]; rfl⟩

end Identity.Continues

/-- Whether the row of a ticket is an earlier one, or is that one resolved. -/
def TicketRow.Continues (later earlier : TicketRow) : Prop :=
  later = earlier ∨ ∃ identity now, later = earlier.settled identity now

namespace TicketRow.Continues

theorem refl (row : TicketRow) : row.Continues row :=
  .inl rfl

theorem trans {first second third : TicketRow} (hlater : third.Continues second)
    (hearlier : second.Continues first) : third.Continues first := by
  rcases hearlier with rfl | ⟨identity, now, rfl⟩
  · exact hlater
  · rcases hlater with rfl | ⟨other, later, rfl⟩
    · exact .inr ⟨identity, now, rfl⟩
    · exact .inr ⟨identity, now, first.settled_settled identity other now later⟩

/-- A ticket that is read again has its path name and its time of request, and stays resolved
if it was. -/
theorem read {ledger : List Identity} {later earlier : TicketRow} (h : later.Continues earlier)
    (hsound : earlier.Sound ledger) (id : Int) :
    ∃ ticket resolvedAt, earlier.read id = .ok ticket ∧
      later.read id = .ok { ticket with resolvedAt := resolvedAt } ∧
      (ticket.resolvedAt.isSome → resolvedAt = ticket.resolvedAt) := by
  obtain ⟨path, requestedAt, rfl | ⟨identity, now, rfl, -⟩⟩ := hsound
  · rcases h with rfl | ⟨other, later, rfl⟩
    · exact ⟨_, _, rfl, rfl, fun _ => rfl⟩
    · exact ⟨_, _, rfl, rfl, fun hresolved => nomatch hresolved⟩
  · obtain rfl : later = (TicketRow.ofPath path requestedAt).settled identity now := by
      rcases h with rfl | ⟨other, later, rfl⟩
      · rfl
      · exact settled_settled ..
    exact ⟨_, _, rfl, rfl, fun _ => rfl⟩

end TicketRow.Continues

/-! ## Tables of tickets -/

/-- Whether each ticket of an earlier table goes on in a later one. -/
def Table.Retains (later earlier : Table TicketRow) : Prop :=
  ∀ entry ∈ earlier.rows, ∃ row, (entry.1, row) ∈ later.rows ∧ row.Continues entry.2

namespace Table.Retains

variable {tickets next : Table TicketRow}

theorem refl (tickets : Table TicketRow) : tickets.Retains tickets :=
  fun entry hentry => ⟨entry.2, hentry, .refl _⟩

theorem insert? {row : TicketRow} {id : Int} (h : tickets.insert? row = some (id, next)) :
    next.Retains tickets := by
  intro entry hentry
  refine ⟨entry.2, ?_, .refl _⟩
  rw [(insert?_eq_some h).2.1]
  exact List.mem_append_left _ hentry

theorem settle (tickets : Table TicketRow) (ticket : TicketId) (identity : Option IdentityId)
    (now : Timestamp) : (tickets.settle ticket identity now).Retains tickets := by
  intro entry hentry
  refine ⟨_, List.mem_map_of_mem hentry, ?_⟩
  simp only
  split
  · exact .inr ⟨identity, now, rfl⟩
  · exact .refl _

theorem afterCommit (tickets : Table TicketRow) (ticket : Option TicketId) (identity : IdentityId)
    (now : Timestamp) : (tickets.afterCommit ticket identity now).Retains tickets := by
  cases ticket with
  | none => exact .refl _
  | some ticket => exact .settle tickets ticket identity now

end Table.Retains

/-! ## Catalogs -/

/-- Whether each entry of a ledger goes on in a later one. -/
def LedgerRetains (later earlier : List Identity) : Prop :=
  ∀ identity ∈ earlier, ∃ other ∈ later, other.Continues identity

theorem LedgerRetains.refl (ledger : List Identity) : LedgerRetains ledger ledger :=
  fun identity hmem => ⟨identity, hmem, .refl _⟩

theorem LedgerRetains.append (ledger more : List Identity) :
    LedgerRetains (ledger ++ more) ledger :=
  fun identity hmem => ⟨identity, List.mem_append_left _ hmem, .refl _⟩

theorem LedgerRetains.extendEntry (ledger : List Identity) (id : IdentityId) (source : Source)
    (metadata : Option Metadata) :
    LedgerRetains (AudioCatalog.extendEntry ledger id source metadata) ledger := by
  intro identity hmem
  refine ⟨_, List.mem_map_of_mem hmem, ?_⟩
  split
  · exact .extended identity source metadata
  · exact .refl _

/-- Whether each entry of an earlier catalog goes on in a later one. -/
def Catalog.Retains (later earlier : Catalog) : Prop :=
  ∀ ledger, earlier.Keeps ledger →
    (∃ next, later.Keeps next ∧ LedgerRetains next ledger) ∧
      later.tickets.Retains earlier.tickets

namespace Catalog.Retains

variable {first second third : Catalog}

/-- A catalog retains all identities that have the same rows, and their sources. -/
theorem of_tables (hidentities : second.identities = first.identities)
    (hsources : second.sources = first.sources) (htickets : second.tickets.Retains first.tickets) :
    second.Retains first :=
  fun ledger hkeeps =>
    ⟨⟨ledger, hkeeps.congr (by rw [hidentities]) (by rw [hsources]), .refl ledger⟩, htickets⟩

theorem of_sameTables (hsame : second.SameTables first) : second.Retains first :=
  of_tables hsame.identities hsame.sources (hsame.tickets ▸ .refl _)

theorem trans (hlater : third.Retains second) (hearlier : second.Retains first) :
    third.Retains first := by
  intro ledger hkeeps
  obtain ⟨⟨between, hbetween, hfirst⟩, hearly⟩ := hearlier ledger hkeeps
  obtain ⟨⟨next, hnext, hsecond⟩, hlate⟩ := hlater between hbetween
  refine ⟨⟨next, hnext, fun identity hmem => ?_⟩, fun entry hentry => ?_⟩
  · obtain ⟨other, hother, hcontinues⟩ := hfirst identity hmem
    obtain ⟨last, hlast, hlater⟩ := hsecond other hother
    exact ⟨last, hlast, hlater.trans hcontinues⟩
  · obtain ⟨row, hrow, hcontinues⟩ := hearly entry hentry
    obtain ⟨last, hlast, hlater⟩ := hlate (entry.1, row) hrow
    exact ⟨last, hlast, hlater.trans hcontinues⟩

/-- Each write retains all entries: at most it extends one, resolves a ticket and adds an
entry at the end. -/
theorem write (hwrite : first.Write second) : second.Retains first := by
  cases hwrite with
  | addIdentity written =>
      intro ledger hkeeps
      obtain ⟨-, -, -, ⟨_, _, rfl, -, -⟩, hkept⟩ := hkeeps.addIdentity written
      exact ⟨⟨_, hkept, .append _ _⟩, .afterCommit _ _ _ _⟩
  | addSource written =>
      intro ledger hkeeps
      obtain ⟨-, -, ⟨_, _, rfl, -, -⟩, hkept⟩ := hkeeps.addSource written
      exact ⟨⟨_, hkept, .extendEntry _ _ _ _⟩, .afterCommit _ _ _ _⟩
  | addTicket written =>
      obtain ⟨_, tickets, -, hinserted, rfl⟩ := addTicket_eq_ok written
      exact of_tables rfl rfl (.insert? hinserted)
  | resolve written =>
      obtain ⟨_, _, _, _, rfl⟩ := markResolved_eq_ok (transaction_eq_ok written)
      exact of_tables rfl rfl (.settle _ _ _ _)
  | lock locked => exact of_tables rfl rfl (.refl _)

end Catalog.Retains

/-- The ticket in a row that can be read. -/
theorem Catalog.ticket?_of_mem {catalog : Catalog} {id : Int} {row : TicketRow} {ticket : Ticket}
    (hmem : (id, row) ∈ catalog.tickets.rows) (hread : row.read id = .ok ticket) :
    catalog.ticket? ⟨id⟩ = .ok (some ticket) := by
  rw [ticket?, Table.row?_of_mem _ hmem]
  simp only [hread]
  rfl

/-! ## Sessions -/

namespace Session

/-- What a session holds retains what it held before. -/
theorem retains_of_run {mid last : Session} {answers : List Answer} (hrun : Run mid answers last)
    {earlier later : Catalog} (hearlier : mid.Holds earlier) (hlater : last.Holds later) :
    later.Retains earlier :=
  holds_of_run (fun hsame hretains => (Catalog.Retains.of_sameTables hsame).trans hretains)
    (fun hwrite hretains => (Catalog.Retains.write hwrite).trans hretains) hrun
    ⟨earlier, hearlier, .of_sameTables (.refl _)⟩ hlater

/-- Of two moments of a session with a catalog that was new, however much is asked of the
catalog between them and whether that succeeds or not, the later one has every identity of
the earlier one, the same but for its metadata and for sources behind those it had, and every
ticket, the same but that it may have been resolved. -/
theorem entries_stay {first mid last : Session} {before after : List Answer}
    (hfresh : first.Fresh) (hbefore : Run first before mid) (hafter : Run mid after last)
    {earlier later : Catalog} (hearlier : mid.Holds earlier) (hlater : last.Holds later) :
    (earlier.access ≠ .blind → later.access ≠ .blind → ∃ old new,
      earlier.contents = .ok old ∧ later.contents = .ok new ∧
      ∀ identity ∈ old, ∃ metadata added,
        { identity with metadata := metadata, sources := identity.sources ++ added } ∈ new) ∧
    ∀ entry ∈ earlier.tickets.rows, ∃ ticket resolvedAt,
      earlier.ticket? ⟨entry.1⟩ = .ok (some ticket) ∧
      later.ticket? ⟨entry.1⟩ = .ok (some { ticket with resolvedAt := resolvedAt }) ∧
      (ticket.resolvedAt.isSome → resolvedAt = ticket.resolvedAt) := by
  obtain ⟨ledger, hkeeps, -, hsound⟩ := sound_of_run hfresh hbefore hearlier
  obtain ⟨⟨next, hkept, hidentities⟩, htickets⟩ :=
    retains_of_run hafter hearlier hlater ledger hkeeps
  constructor
  · intro hreadable hvisible
    refine ⟨_, _, hkeeps.contents_eq_ok hreadable, hkept.contents_eq_ok hvisible, ?_⟩
    rw [List.forall_mem_map]
    intro identity hmem
    obtain ⟨other, hother, hcontinues⟩ := hidentities identity hmem
    obtain ⟨metadata, added, heq⟩ := hcontinues.asStored
    exact ⟨metadata, added, heq ▸ List.mem_map_of_mem hother⟩
  · intro entry hentry
    obtain ⟨row, hrow, hcontinues⟩ := htickets entry hentry
    obtain ⟨ticket, resolvedAt, hearly, hlate, hresolved⟩ :=
      hcontinues.read (hsound entry hentry) entry.1
    exact ⟨ticket, resolvedAt, Catalog.ticket?_of_mem hentry hearly,
      Catalog.ticket?_of_mem hrow hlate, hresolved⟩

end Session

/-- A world with one ticket and one identity. -/
def World.withEntry : World :=
  ((World.blank.call (.addTicket ⟨[47, 97]⟩)).1.call (.insert .blank .blank)).1

/-- The world after the identity has got a second source and the ticket is resolved. -/
def World.withMoreSources : World :=
  ((World.withEntry.call (.attach ⟨1⟩ { Source.blank with size := 2 })).1.call (.resolve ⟨1⟩)).1

/-- The identity stays when it gets a second source, and the ticket when it is resolved. -/
theorem Session.entry_stays_with_more_sources :
    (∃ old new, World.withEntry.catalog.contents = .ok old ∧
      World.withMoreSources.catalog.contents = .ok new ∧ old.map (·.id) = [⟨1⟩] ∧
      ∀ identity ∈ old, ∃ metadata added,
        { identity with metadata := metadata, sources := identity.sources ++ added } ∈ new) ∧
    ∃ ticket resolvedAt, World.withEntry.catalog.ticket? ⟨1⟩ = .ok (some ticket) ∧
      World.withMoreSources.catalog.ticket? ⟨1⟩ =
        .ok (some { ticket with resolvedAt := resolvedAt }) := by
  have hfresh : (opened .exclusive .blank).Fresh := .refl _
  have hbefore : Run (opened .exclusive .blank) _ (opened .exclusive .withEntry) :=
    .step (.step (.start _) (.call _)) (.call _)
  have hafter : Run (opened .exclusive .withEntry) _ (opened .exclusive .withMoreSources) :=
    .step (.step (.start _) (.call _)) (.call _)
  obtain ⟨hidentities, htickets⟩ := entries_stay hfresh hbefore hafter (.refl _) (.refl _)
  constructor
  · obtain ⟨old, new, hold, hnew, hstay⟩ := hidentities (by decide +kernel) (by decide +kernel)
    refine ⟨old, new, hold, hnew, ?_, hstay⟩
    have hone : World.withEntry.catalog.contents.toOption.map (·.map (·.id)) = some [⟨1⟩] := by
      decide +kernel
    rw [hold] at hone
    exact Option.some.inj hone
  · have hticket : (1, TicketRow.ofPath "/a" 0) ∈ World.withEntry.catalog.tickets.rows := by
      decide +kernel
    obtain ⟨ticket, resolvedAt, hearly, hlate, -⟩ := htickets _ hticket
    exact ⟨ticket, resolvedAt, hearly, hlate⟩

end AudioCatalog
