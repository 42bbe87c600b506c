import AudioCatalog.Catalog.Transaction
import AudioCatalog.Text.Blank

/-!
# Tickets

Adding a ticket checks only that the path name can be stored; the file is looked at
when the ticket is replayed.  Pending tickets are listed by a cursor that fetches a
page at a time, so tickets may come and go while it is in use.
-/

namespace AudioCatalog

namespace Catalog

/-- The text that a ticket for a path name stores: the name itself if it is absolute,
and else the name inside the current directory, if that is there. -/
def ticketPath (current : Except FileError Pathname) (path : Pathname) :
    Except Error String :=
  match path.text? with
  | none => .error (.badPath (.notText path.shown))
  | some text =>
    if isBlankText text then .error (.badPath .blank)
    else if text.toList.contains '\x00' then .error (.badPath (.holdsNul text))
    else if path.isAbsolute then .ok text
    else match current with
      | .error cause => .error (.io cause)
      | .ok current =>
        let joined := current.child path.bytes
        match joined.text? with
        | none => .error (.badPath (.notText joined.shown))
        | some text => .ok text

/-- Records a ticket for a path name. -/
def addTicket (catalog : Catalog) (current : Except FileError Pathname) (path : Pathname)
    (now : Timestamp) : Except Error (Ticket × Catalog) :=
  match ticketPath current path with
  | .error error => .error error
  | .ok text => catalog.transaction fun catalog => do
    catalog.demandWritable
    let (number, tickets) ← numbered (catalog.tickets.insert? (.ofPath text now))
    return ({
        id := ⟨number⟩
        path := .ofText text
        requestedAt := Timestamp.ofStored now
        resolvedAt := none },
      { catalog with tickets := tickets })

/-- The ticket with a number. -/
def ticket? (catalog : Catalog) (id : TicketId) : Except Error (Option Ticket) :=
  match catalog.tickets.row? id.value with
  | none => .ok none
  | some row => ((row.read id.value).map some).mapError .store

/-- Resolves a ticket by hand, and tells whether it was pending until now. -/
def resolve (catalog : Catalog) (id : TicketId) (now : Timestamp) :
    Except Error (Bool × Catalog) :=
  catalog.transaction fun catalog => catalog.markResolved id none now

/-- The rows of pending tickets. -/
def pendingRows (catalog : Catalog) : List (Int × TicketRow) :=
  catalog.tickets.rows.filter fun entry => entry.2.resolvedAt = .null

/-- How many tickets are pending. -/
def countPending (catalog : Catalog) : Nat :=
  catalog.pendingRows.length

end Catalog

/-- A position in the list of pending tickets: the number of the last ticket fetched,
the tickets fetched and not given out yet, and whether there is no further page. -/
structure PendingCursor where
  after : Int
  buffer : List Ticket
  exhausted : Bool

namespace PendingCursor

/-- How many tickets a page holds. -/
def pageLength : Nat := 64

/-- A cursor before the first ticket. -/
def start : PendingCursor :=
  ⟨0, [], false⟩

/-- Fetches the next page.  A page that is not full is the last one. -/
def fetch (cursor : PendingCursor) (catalog : Catalog) :
    Except StoreFault PendingCursor := do
  let rows := (catalog.pendingRows.filter fun entry => cursor.after < entry.1).take pageLength
  let page ← rows.mapM fun entry => entry.2.read entry.1
  return {
    after := match page.getLast? with
      | some ticket => ticket.id.value
      | none => cursor.after
    buffer := cursor.buffer ++ page
    exhausted := cursor.exhausted || page.length < pageLength }

/-- Gives out the next ticket, if there is one.  A fault ends the list. -/
def next (cursor : PendingCursor) (catalog : Catalog) :
    Option (Except Error Ticket) × PendingCursor :=
  let fetched : Except StoreFault PendingCursor :=
    if cursor.buffer.isEmpty && !cursor.exhausted then cursor.fetch catalog else .ok cursor
  match fetched with
  | .error fault =>
    (some (.error (.store fault)), { cursor with exhausted := true })
  | .ok cursor =>
    match cursor.buffer with
    | [] => (none, cursor)
    | ticket :: rest => (some (.ok ticket), { cursor with buffer := rest })

/-- The tickets from a cursor on, of which there are at most `limit`. -/
def collect (catalog : Catalog) (limit : Nat) (cursor : PendingCursor) :
    Except Error (List Ticket) :=
  match limit with
  | 0 => .ok []
  | limit + 1 =>
    match cursor.next catalog with
    | (none, _) => .ok []
    | (some (.error e), _) => .error e
    | (some (.ok ticket), cursor) => do
      let rest ← collect catalog limit cursor
      return ticket :: rest

end PendingCursor

/-- All pending tickets, in the order of their numbers. -/
def Catalog.pending (catalog : Catalog) : Except Error (List Ticket) :=
  PendingCursor.start.collect catalog (catalog.countPending + 1)

end AudioCatalog
