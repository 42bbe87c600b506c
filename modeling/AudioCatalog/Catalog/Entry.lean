import AudioCatalog.Acoustic.Key
import AudioCatalog.Catalog.Ids
import AudioCatalog.Metadata.Basic
import AudioCatalog.Pathname
import AudioCatalog.Resolution
import AudioCatalog.Time.Timestamp

/-!
# Catalog entries

An identity is one distinct recording; its sources say where it was seen.  A
ticket records a file whose import is put off.
-/

namespace AudioCatalog

/-- How a source came into the catalog. -/
inductive Route where
  /-- At once. -/
  | direct
  /-- From a ticket. -/
  | deferred
  deriving DecidableEq

namespace Route

/-- The stored word for a route. -/
def label : Route → String
  | direct => "full"
  | deferred => "catalog_only"

/-- The route that a stored word stands for. -/
def ofLabel? (label : String) : Option Route :=
  if label = "full" then some direct
  else if label = "catalog_only" then some deferred
  else none

end Route

/-- Where a recording was seen.  The modification time is in seconds since the epoch. -/
structure Source where
  path : Pathname
  modified : Int
  size : UInt64
  importedAt : Timestamp
  kept : Bool
  route : Route
  deriving DecidableEq

/-- Whether two sources are the same state of the same file.  Equivalent path
names count as one. -/
def Source.sameAs (a b : Source) : Bool :=
  a.path.equivalent b.path && a.modified = b.modified && a.size = b.size

/-- A recording that is not in the catalog yet. -/
structure Draft where
  digest : Digest
  key : Option AcousticKey
  metadata : Metadata

/-- A recording in the catalog. -/
structure Identity extends Known where
  metadata : Metadata
  createdAt : Timestamp
  sources : List Source
  deriving DecidableEq

/-- Whether the recording was seen under an equivalent path name. -/
def Identity.hasSource (identity : Identity) (path : Pathname) : Bool :=
  identity.sources.any fun source => source.path.equivalent path

/-- A file whose import is put off. -/
structure Ticket where
  id : TicketId
  path : Pathname
  requestedAt : Timestamp
  resolvedAt : Option Timestamp
  deriving DecidableEq

/-- Whether the import is still to be done. -/
def Ticket.pending (ticket : Ticket) : Bool :=
  ticket.resolvedAt.isNone

end AudioCatalog
