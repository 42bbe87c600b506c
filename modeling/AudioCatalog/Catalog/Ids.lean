/-!
# Names of catalog entries

Identities and tickets are numbered separately; the two kinds of number are
distinct types and are shown differently.
-/

namespace AudioCatalog

/-- The number of an identity. -/
structure IdentityId where
  value : Int
  deriving DecidableEq

/-- The number of a ticket. -/
structure TicketId where
  value : Int
  deriving DecidableEq

/-- The text of an identity number. -/
def IdentityId.label (id : IdentityId) : String :=
  s!"#{id.value}"

/-- The text of a ticket number. -/
def TicketId.label (id : TicketId) : String :=
  s!"ticket-{id.value}"

end AudioCatalog
