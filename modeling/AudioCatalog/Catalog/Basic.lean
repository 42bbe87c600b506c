import AudioCatalog.Catalog.Rows
import AudioCatalog.Error

/-!
# The catalog

A catalog is three tables and the version of their layout.  Look-ups read every row
they touch, the identities before their sources, and fail on the first fault.  Tickets
are not looked up in this sense: they are read where they are written.
-/

namespace AudioCatalog

/-- What an opened catalog allows. -/
inductive Access where
  | full
  /-- Every write is refused. -/
  | readOnly
  /-- Look-ups go to empty databases of their own, which nothing is ever written to. -/
  | blind
  deriving DecidableEq

/-- The contents of a catalog database, and what can be done with it at the moment.
`logged` tells whether changes go to a log beside the file first, and `locked` whether
another connection is writing. -/
structure Catalog where
  identities : Table IdentityRow
  sources : Table SourceRow
  tickets : Table TicketRow
  version : Int
  logged : Bool
  access : Access
  locked : Bool

namespace Catalog

/-- The version of the layout that this library writes. -/
def currentVersion : Int := 1

/-- How many pages the file of a catalog has if each table, each index of one and what the
database keeps for itself fill one page. -/
def pages : Nat := 10

/-- A catalog without entries. -/
def empty : Catalog :=
  ⟨.empty, .empty, .empty, currentVersion, true, .full, false⟩

/-- Prepares a catalog that was opened: one with an older version is brought up to
date, and one with a newer version is refused. -/
def prepare (catalog : Catalog) : Except Error Catalog :=
  if currentVersion < catalog.version then
    .error (.newerVersion catalog.version currentVersion)
  else if catalog.version < currentVersion ∧ catalog.access = .readOnly then
    .error (.store .readOnly)
  else .ok { catalog with version := currentVersion }

/-- The sources of an identity, in the order of their attachment. -/
def sourcesOf (catalog : Catalog) (id : IdentityId) :
    Except StoreFault (List Source) :=
  (catalog.sources.rows.filter fun entry => entry.2.identity = .integer id.value).mapM
    fun entry => entry.2.read

/-- Demands that look-ups see the tables. -/
def demandVisible (catalog : Catalog) : Except StoreFault Unit :=
  if catalog.access = .blind then .error (.noTable "identities") else .ok ()

/-- Adds the sources to an identity that was read without them. -/
def withSources (catalog : Catalog) (identity : Identity) : Except StoreFault Identity := do
  let sources ← catalog.sourcesOf identity.id
  return { identity with sources := sources }

/-- The identities of the rows that satisfy a condition, in the order of their
numbers. -/
def select (catalog : Catalog) (condition : Int → IdentityRow → Bool) :
    Except Error (List Identity) :=
  let identities : Except StoreFault (List Identity) := do
    catalog.demandVisible
    let bare ← (catalog.identities.rows.filter fun entry => condition entry.1 entry.2).mapM
      fun entry => entry.2.read entry.1
    bare.mapM catalog.withSources
  identities.mapError .store

/-- All identities. -/
def contents (catalog : Catalog) : Except Error (List Identity) :=
  catalog.select fun _ _ => true

/-- The identity with a number. -/
def get? (catalog : Catalog) (id : IdentityId) : Except Error (Option Identity) :=
  (catalog.select fun rowId _ => rowId = id.value).map List.head?

/-- The identity with a digest. -/
def byDigest (catalog : Catalog) (digest : Digest) :
    Except Error (Option Identity) :=
  (catalog.select fun _ row => row.digest = .blob digest.bytes).map List.head?

/-- The identities in a range of buckets. -/
def byBucket (catalog : Catalog) (first last : Nat) :
    Except Error (List Identity) :=
  catalog.select fun _ row => row.bucket.isBetween (Int.ofNat first) (Int.ofNat last)

/-- How many identities there are. -/
def size (catalog : Catalog) : Except Error Nat :=
  (catalog.demandVisible.map fun () => catalog.identities.rows.length).mapError .store

/-- The catalog as it is looked into for identifying a recording. -/
def lookup (catalog : Catalog) : Lookup Error where
  byDigest digest := (catalog.byDigest digest).map (Option.map (·.toKnown))
  byBucket range := (catalog.byBucket range.1 range.2).map (List.map (·.toKnown))

end Catalog

end AudioCatalog
