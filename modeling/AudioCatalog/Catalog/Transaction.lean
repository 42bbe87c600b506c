import AudioCatalog.Catalog.Basic

/-!
# Transactions

Every operation here is one transaction: it gives the next catalog, or an error and
then nothing has changed.  A transaction fails at once while another connection holds
the lock, unless writing is not allowed at all: then it fails at its first write.
-/

namespace AudioCatalog.Catalog

/-- Runs a transaction unless the catalog is locked. -/
def transaction {α : Type} (catalog : Catalog) (body : Catalog → Except Error α) :
    Except Error α :=
  if catalog.locked ∧ catalog.access ≠ .readOnly then .error (.store .locked)
  else body catalog

/-- Demands that writing is allowed. -/
def demandWritable (catalog : Catalog) : Except Error Unit :=
  if catalog.access = .readOnly then .error (.store .readOnly) else .ok ()

/-- What an insertion gives, or the fault of having no row number left. -/
def numbered {α : Type} : Option α → Except Error α
  | some result => .ok result
  | none => .error (.store .full)

/-- Whether there is an identity with a number. -/
def hasIdentity (catalog : Catalog) (id : IdentityId) : Bool :=
  (catalog.identities.row? id.value).isSome

/-- Whether there is an identity with a digest. -/
def hasDigest (catalog : Catalog) (digest : Digest) : Bool :=
  catalog.identities.rows.any fun entry => entry.2.digest = .blob digest.bytes

/-- Adds the row of a source; if one of the same source is there, it stays as it is, but
a row number is used up. -/
def putSourceRow (catalog : Catalog) (row : SourceRow) : Except Error Catalog := do
  catalog.demandWritable
  if catalog.sources.rows.any fun entry => entry.2.sameKey row then
    return { catalog with sources := ← numbered catalog.sources.skip? }
  else return { catalog with sources := (← numbered (catalog.sources.insert? row)).2 }

/-- Puts a source under an identity.  Path names are stored as text, so any other is
refused. -/
def placeSource (catalog : Catalog) (id : IdentityId) (source : Source) :
    Except Error Catalog :=
  match source.path.text? with
  | none => .error (.badPath (.notText source.path.shown))
  | some path => catalog.putSourceRow (.ofSource id path source)

/-- Marks a ticket as resolved, and tells whether it was pending until now.  A
resolved ticket stays as it is. -/
def markResolved (catalog : Catalog) (id : TicketId) (identity : Option IdentityId)
    (now : Timestamp) : Except Error (Bool × Catalog) := do
  catalog.demandWritable
  match catalog.tickets.row? id.value with
  | none => throw (.unknownTicket id)
  | some row =>
    if row.resolvedAt = .null then
      return (true, { catalog with
        tickets := catalog.tickets.modify id.value fun row => { row with
          resolvedAt := .integer now
          resolvedIdentity := match identity with
            | some identity => .integer identity.value
            | none => .null } })
    else return (false, catalog)

/-- Resolves the ticket of a commit, if the commit has one. -/
def settleTicket (catalog : Catalog) (ticket : Option TicketId) (identity : IdentityId)
    (now : Timestamp) : Except Error Catalog :=
  match ticket with
  | none => .ok catalog
  | some ticket => (catalog.markResolved ticket (some identity) now).map (·.2)

/-- Adds an identity with its first source and resolves the ticket, if any.  A
digest that is there already is a conflict. -/
def addIdentity (catalog : Catalog) (draft : Draft) (source : Source)
    (ticket : Option TicketId) (now : Timestamp) :
    Except Error (IdentityId × Catalog) :=
  catalog.transaction fun catalog => do
    catalog.demandWritable
    let (number, identities) ← numbered (catalog.identities.insert? (.ofDraft draft now))
    if catalog.hasDigest draft.digest then throw (.conflict draft.digest)
    let id : IdentityId := ⟨number⟩
    let catalog ← { catalog with identities := identities }.placeSource id source
    let catalog ← catalog.settleTicket ticket id now
    return (id, catalog)

/-- Adds a source to an identity, replaces the metadata if given, and resolves the
ticket, if any. -/
def addSource (catalog : Catalog) (id : IdentityId) (source : Source)
    (metadata : Option Metadata) (ticket : Option TicketId) (now : Timestamp) :
    Except Error Catalog :=
  catalog.transaction fun catalog =>
    if !catalog.hasIdentity id then .error (.unknownIdentity id)
    else do
      let catalog ← catalog.placeSource id source
      let catalog := match metadata with
        | none => catalog
        | some metadata => { catalog with
            identities := catalog.identities.modify id.value fun row =>
              { row with metadata := .text metadata.print } }
      catalog.settleTicket ticket id now

/-- Adds an identity with its first source, and gives the identity as it was
written. -/
def insert (catalog : Catalog) (draft : Draft) (source : Source)
    (now : Timestamp) : Except Error (Identity × Catalog) := do
  let (id, catalog) ← catalog.addIdentity draft source none now
  return ({
    id := id
    digest := draft.digest
    key := draft.key
    metadata := draft.metadata
    createdAt := Timestamp.ofStored now
    sources := [source] }, catalog)

/-- Adds a source to an identity and does nothing else. -/
def attach (catalog : Catalog) (id : IdentityId) (source : Source)
    (now : Timestamp) : Except Error Catalog :=
  catalog.addSource id source none none now

end AudioCatalog.Catalog
