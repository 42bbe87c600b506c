import AudioCatalog.Catalog.Entry

/-!
# Import jobs

A job says which file is to be imported and what the caller wants done with it.
-/

namespace AudioCatalog

/-- What the caller wants done with imported files and with recordings that sound alike. -/
structure Handling where
  keepFile : Bool
  careful : Bool
  deriving DecidableEq

/-- One import to be done.  A ticket, if given, is resolved by the commit; a token, if
given, can cancel the import before. -/
structure ImportJob where
  path : Pathname
  handling : Handling
  route : Route
  ticket : Option TicketId
  token : Option String
  deriving DecidableEq

namespace ImportJob

/-- The import of a file that the caller names. -/
def direct (path : Pathname) (handling : Handling) (token : Option String) : ImportJob :=
  ⟨path, handling, .direct, none, token⟩

/-- The import of a file that was put off with a ticket. -/
def replay (ticket : Ticket) (handling : Handling) (token : Option String) : ImportJob :=
  ⟨ticket.path, handling, .deferred, some ticket.id, token⟩

end ImportJob

end AudioCatalog
