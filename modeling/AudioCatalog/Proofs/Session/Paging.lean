import AudioCatalog.Proofs.Session.Cursors
import AudioCatalog.Proofs.Session.Draining

/-!
# Paging through the queue

Somebody pages through the pending tickets while others add tickets and resolve them.
`Paging.run` is what comes of any sequence of such events, and `Paging.answers` what the cursor
has given out.  A ticket that stays pending is at every moment given out, or held by the cursor,
or behind its position, so none is lost; what was given out and what is held together are in the
order of the numbers, so none is repeated.
-/

namespace AudioCatalog

/-! ## Events -/

/-- The catalog that somebody pages through, the cursor, and what it has given out. -/
structure Paging where
  catalog : Catalog
  cursor : PendingCursor
  answers : List (Option (Except Error Ticket))

/-- The catalog after a transaction, which changes nothing if it fails. -/
def Catalog.afterwards {α : Type} (catalog : Catalog) : Except Error (α × Catalog) → Catalog
  | .ok (_, next) => next
  | .error _ => catalog

namespace Paging

/-- What can happen while somebody pages through the tickets. -/
inductive Event where
  /-- The cursor is asked for the next ticket. -/
  | next
  | add (current : Except FileError Pathname) (path : Pathname) (now : Timestamp)
  /-- A ticket is resolved, by hand or to an identity. -/
  | resolve (id : TicketId) (identity : Option IdentityId) (now : Timestamp)
  /-- Others take the lock of the database, or let go of it. -/
  | lock (held : Bool)

/-- A new cursor on a catalog. -/
def start (catalog : Catalog) : Paging :=
  ⟨catalog, .start, []⟩

/-- What the cursor gives out if it is asked now. -/
def offer (paging : Paging) : Option (Except Error Ticket) :=
  (paging.cursor.next paging.catalog).1

/-- What comes of an event. -/
def step (paging : Paging) : Event → Paging
  | .next => { paging with
      cursor := (paging.cursor.next paging.catalog).2
      answers := paging.answers ++ [paging.offer] }
  | .add current path now => { paging with
      catalog := paging.catalog.afterwards (paging.catalog.addTicket current path now) }
  | .resolve id identity now => { paging with
      catalog := paging.catalog.afterwards
        (paging.catalog.transaction fun catalog => catalog.markResolved id identity now) }
  | .lock held => { paging with catalog := { paging.catalog with locked := held } }

/-- What comes of some events, one after the other. -/
def run (paging : Paging) (events : List Event) : Paging :=
  events.foldl step paging

/-- A new cursor on the same catalog. -/
def again (paging : Paging) : Paging :=
  start paging.catalog

/-- The tickets that were given out. -/
def given (paging : Paging) : List Ticket :=
  paging.answers.flatMap PendingCursor.ticketOf

theorem run_append (paging : Paging) (first second : List Event) :
    paging.run (first ++ second) = (paging.run first).run second :=
  List.foldl_append

theorem run_concat (paging : Paging) (events : List Event) (event : Event) :
    paging.run (events ++ [event]) = (paging.run events).step event :=
  List.foldl_concat ..

end Paging

/-! ## Changes of the tickets -/

/-- Whether every row of the tickets can be read as a ticket, and has a number that is given to
tickets. -/
structure Table.HoldsTickets (tickets : Table TicketRow) : Prop where
  positive : ∀ entry ∈ tickets.rows, 0 < entry.1
  readable : ∀ entry ∈ tickets.rows, ∃ ticket, entry.2.read entry.1 = .ok ticket

/-- The tickets of a session are such. -/
theorem Catalog.Listable.holdsTickets {catalog : Catalog} (hlistable : catalog.Listable) :
    catalog.tickets.HoldsTickets := by
  obtain ⟨⟨ledger, -, -, hrows⟩, hpositive⟩ := hlistable
  exact ⟨hpositive.2, fun entry hentry => (hrows entry hentry).exists_read entry.1⟩

theorem TicketRow.exists_read_settled {row : TicketRow} {id : Int} {ticket : Ticket}
    (hread : row.read id = .ok ticket) (identity : Option IdentityId) (now : Timestamp) :
    ∃ settled, (row.settled identity now).read id = .ok settled := by
  rw [settled.eq_def]
  split
  · obtain ⟨path, hpath, hread⟩ := bind_eq_ok_iff.mp hread
    obtain ⟨requestedAt, hrequested, -⟩ := bind_eq_ok_iff.mp hread
    refine ⟨⟨⟨id⟩, .ofText path, .ofStored requestedAt, some (.ofStored now)⟩, ?_⟩
    simp only [read, hpath, hrequested, ok_bind, Cell.toInt?]
    rfl
  · exact ⟨ticket, hread⟩

/-- What additions and resolutions do to tickets: those that are pending afterwards were pending
before or are new, and what could be read still can be. -/
structure Catalog.Progresses (catalog next : Catalog) : Prop where
  pending : ∀ entry ∈ next.pendingRows,
    entry ∈ catalog.pendingRows ∨ catalog.tickets.greatestId < entry.1
  greatest : catalog.tickets.greatestId ≤ next.tickets.greatestId
  readable : (∀ entry ∈ catalog.tickets.rows, ∃ ticket, entry.2.read entry.1 = .ok ticket) →
    ∀ entry ∈ next.tickets.rows, ∃ ticket, entry.2.read entry.1 = .ok ticket

namespace Catalog.Progresses

variable {catalog next last : Catalog}

theorem of_tickets_eq (htickets : next.tickets = catalog.tickets) : catalog.Progresses next where
  pending entry hentry := .inl (by rwa [pendingRows, htickets] at hentry)
  greatest := by rw [htickets]
  readable hreadable := by rwa [htickets]

theorem trans (hfirst : catalog.Progresses next) (hsecond : next.Progresses last) :
    catalog.Progresses last where
  pending entry hentry := by
    rcases hsecond.pending entry hentry with hentry | hnew
    · exact hfirst.pending entry hentry
    · exact .inr (Int.lt_of_le_of_lt hfirst.greatest hnew)
  greatest := Int.le_trans hfirst.greatest hsecond.greatest
  readable hreadable := hsecond.readable (hfirst.readable hreadable)

theorem addTicket {current : Except FileError Pathname} {path : Pathname} {now : Timestamp}
    {ticket : Ticket} (hadded : catalog.addTicket current path now = .ok (ticket, next)) :
    catalog.Progresses next := by
  obtain ⟨text, tickets, -, hinserted, rfl⟩ := addTicket_eq_ok hadded
  obtain ⟨hid, hrows, -⟩ := Table.insert?_eq_some hinserted
  have hgreatest := Table.greatestId_of_insert? hinserted
  refine ⟨fun entry hentry => ?_, ?_, fun hreadable entry hentry => ?_⟩
  · rw [pendingRows, hrows, List.filter_append, List.mem_append] at hentry
    refine hentry.imp_right fun hnew => ?_
    rw [List.mem_singleton.mp (List.mem_filter.mp hnew).1, hid]
    exact Int.lt_succ _
  · show _ ≤ tickets.greatestId
    omega
  · rw [hrows, List.mem_append, List.mem_singleton] at hentry
    rcases hentry with hentry | rfl
    · exact hreadable entry hentry
    · exact ⟨_, rfl⟩

theorem markResolved {id : TicketId} {identity : Option IdentityId} {now : Timestamp} {done : Bool}
    (hresolved : catalog.markResolved id identity now = .ok (done, next)) :
    catalog.Progresses next := by
  obtain ⟨-, _, -, -, rfl⟩ := markResolved_eq_ok hresolved
  refine ⟨fun entry hentry => ?_, ?_, fun hreadable entry hentry => ?_⟩
  · rw [pendingRows_settle rfl] at hentry
    exact .inl (List.mem_filter.mp hentry).1
  · exact Int.le_of_eq (Table.greatestId_modify ..).symm
  · obtain ⟨before, hbefore, rfl⟩ := List.mem_map.mp hentry
    obtain ⟨ticket, hread⟩ := hreadable before hbefore
    dsimp only
    split
    · exact TicketRow.exists_read_settled hread identity now
    · exact ⟨ticket, hread⟩

/-- A transaction that fails changes nothing. -/
theorem afterwards {α : Type} {result : Except Error (α × Catalog)}
    (hresult : ∀ value next, result = .ok (value, next) → catalog.Progresses next) :
    catalog.Progresses (catalog.afterwards result) := by
  cases result with
  | ok written => exact hresult written.1 written.2 rfl
  | error error => exact of_tickets_eq rfl

/-- A ticket that is pending in the end, and was there in the beginning, was pending in between. -/
theorem mem_pendingRows {entry : Int × TicketRow} (hfirst : catalog.Progresses next)
    (hsecond : next.Progresses last) (hentry : entry ∈ catalog.pendingRows)
    (hlast : entry ∈ last.pendingRows) : entry ∈ next.pendingRows := by
  refine (hsecond.pending entry hlast).resolve_right fun hnew => ?_
  have hle := catalog.tickets.le_greatestId entry (List.mem_filter.mp hentry).1
  have hgreatest := hfirst.greatest
  omega

end Catalog.Progresses

namespace Paging

theorem progresses_step (paging : Paging) (event : Event) :
    paging.catalog.Progresses (paging.step event).catalog := by
  cases event with
  | next => exact .of_tickets_eq rfl
  | add current path now => exact .afterwards fun _ _ hadded => .addTicket hadded
  | resolve id identity now =>
      exact .afterwards fun _ _ hresolved =>
        .markResolved (Catalog.transaction_eq_ok hresolved)
  | lock held => exact .of_tickets_eq rfl

theorem progresses_run (paging : Paging) (events : List Event) :
    paging.catalog.Progresses (paging.run events).catalog := by
  induction events using List.reverseRecOn with
  | nil => exact .of_tickets_eq rfl
  | append_singleton events event ih =>
      rw [run_concat]
      exact ih.trans (progresses_step _ event)

end Paging

/-! ## Runs -/

namespace Paging

open PendingCursor (ticketOf)

variable {first : Catalog} {events : List Event}

/-- An event other than a question leaves the cursor alone, and a question leaves the catalog
alone. -/
theorem step_cases (paging : Paging) (event : Event) :
    (paging.step event).cursor = paging.cursor ∧
        (paging.step event).answers = paging.answers ∨
      (paging.step event).catalog = paging.catalog ∧
        paging.cursor.Asked paging.catalog paging.offer (paging.step event).cursor ∧
        (paging.step event).answers = paging.answers ++ [paging.offer] := by
  cases event with
  | next => exact .inr ⟨rfl, paging.cursor.asked paging.catalog, rfl⟩
  | add current path now => exact .inl ⟨rfl, rfl⟩
  | resolve id identity now => exact .inl ⟨rfl, rfl⟩
  | lock held => exact .inl ⟨rfl, rfl⟩

/-- What is known of every moment: what was given out and what is held is in order, and what is
held was pending at some moment before. -/
structure Keeps (first : Catalog) (events : List Event) (paging : Paging) : Prop where
  inOrder : paging.cursor.InOrder paging.given
  seen : ∀ ticket ∈ paging.cursor.buffer,
    ∃ earlier, earlier <+: events ∧ ((start first).run earlier).catalog.ShowsPending ticket

/-- What is given out or held after a question was pending at some moment before it. -/
theorem Keeps.exists_moment (hkeeps : Keeps first events ((start first).run events))
    {answer : Option (Except Error Ticket)} {after : PendingCursor}
    (hasked : ((start first).run events).cursor.Asked ((start first).run events).catalog answer
      after) {ticket : Ticket} (hticket : ticket ∈ ticketOf answer ++ after.buffer) :
    ∃ earlier, earlier <+: events ∧
      ((start first).run earlier).catalog.ShowsPending ticket :=
  (hasked.seen ticket hticket).elim (hkeeps.seen ticket) fun hshown =>
    ⟨events, List.prefix_refl _, hshown⟩

theorem given_of_answers {paging next : Paging} {answer : Option (Except Error Ticket)}
    (hanswers : next.answers = paging.answers ++ [answer]) :
    next.given = paging.given ++ ticketOf answer := by
  rw [given, hanswers, List.flatMap_append, List.flatMap_singleton, given]

theorem keeps_run (first : Catalog) (events : List Event) :
    Keeps first events ((start first).run events) := by
  induction events using List.reverseRecOn with
  | nil => exact ⟨.start, fun _ hticket => nomatch hticket⟩
  | append_singleton events event ih =>
      -- A moment before an event is a moment before the next one.
      have hlater : ∀ {ticket}, (∃ earlier, earlier <+: events ∧
          ((start first).run earlier).catalog.ShowsPending ticket) →
          ∃ earlier, earlier <+: events ++ [event] ∧
            ((start first).run earlier).catalog.ShowsPending ticket :=
        fun ⟨earlier, hbegins, hshown⟩ =>
          ⟨earlier, hbegins.trans (List.prefix_append ..), hshown⟩
      rw [run_concat]
      rcases step_cases ((start first).run events) event with
        ⟨hcursor, hanswers⟩ | ⟨-, hasked, hanswers⟩
      · refine ⟨?_, ?_⟩
        · rw [hcursor, given, hanswers]
          exact ih.inOrder
        · rw [hcursor]
          exact fun ticket hticket => hlater (ih.seen ticket hticket)
      · refine ⟨?_, fun ticket hticket => hlater ?_⟩
        · rw [given_of_answers hanswers]
          exact hasked.inOrder ih.inOrder
        · exact ih.exists_moment hasked (List.mem_append_right _ hticket)

/-- A cursor that has nothing more to give out has nothing more ever after. -/
theorem offer_run_of_spent {paging : Paging} (hspent : paging.cursor.Spent)
    (events : List Event) : (paging.run events).offer = none := by
  have hkept : (paging.run events).cursor.Spent := by
    induction events using List.reverseRecOn with
    | nil => exact hspent
    | append_singleton events event ih =>
        rw [run_concat]
        rcases step_cases (paging.run events) event with ⟨hcursor, -⟩ | ⟨-, hasked, -⟩
        · rw [hcursor]
          exact ih
        · rw [offer, ih.next_eq] at hasked
          exact hasked.spent
  rw [offer, hkept.next_eq]

section WellFormed

variable (htickets : first.tickets.HoldsTickets)

include htickets

theorem offer_ne_error (events : List Event) (error : Error) :
    ((start first).run events).offer ≠ some (.error error) := by
  have hreadable := (progresses_run (start first) events).readable htickets.readable
  obtain ⟨ready, hrefill⟩ :=
    PendingCursor.exists_refill hreadable ((start first).run events).cursor
  intro hoffer
  have hasked := ((start first).run events).cursor.asked ((start first).run events).catalog
  rw [← offer, hoffer] at hasked
  generalize (((start first).run events).cursor.next _).2 = after at hasked
  cases hasked with
  | fault failed =>
      rw [hrefill] at failed
      cases failed

/-- A ticket that stays pending is given out, or held, or still to be fetched. -/
theorem reaches_run {entry : Int × TicketRow} (hentry : entry ∈ first.pendingRows)
    (events : List Event) (hpending : entry ∈ ((start first).run events).catalog.pendingRows) :
    ((start first).run events).cursor.Reaches ((start first).run events).given entry.1 := by
  induction events using List.reverseRecOn with
  | nil => exact .inr (.inr ⟨rfl, htickets.positive entry (List.mem_filter.mp hentry).1⟩)
  | append_singleton events event ih =>
      rw [run_concat] at hpending ⊢
      have hbefore : entry ∈ ((start first).run events).catalog.pendingRows :=
        (progresses_run (start first) events).mem_pendingRows (progresses_step _ event) hentry
          hpending
      rcases step_cases ((start first).run events) event with
        ⟨hcursor, hanswers⟩ | ⟨-, hasked, hanswers⟩
      · rw [hcursor, given, hanswers]
        exact ih hbefore
      · rw [given_of_answers hanswers]
        exact hasked.reaches (offer_ne_error htickets events) hbefore (ih hbefore)

end WellFormed

/-- While nobody else does anything, the answers are the tickets that the cursor holds or has
still to fetch, and then nothing. -/
theorem run_replicate_next (count : Nat) :
    ∀ (paging : Paging) {more : List Ticket},
      readTickets (paging.cursor.rest paging.catalog) = .ok more →
        (paging.run (List.replicate count .next)).catalog = paging.catalog ∧
        (paging.run (List.replicate count .next)).answers = paging.answers ++
          (List.range count).map fun index => (paging.cursor.buffer ++ more)[index]?.map .ok := by
  induction count with
  | zero => exact fun _ _ _ => ⟨rfl, (List.append_nil _).symm⟩
  | succ count ih =>
      intro paging more hmore
      obtain ⟨hoffer, later, hlater, htail⟩ := PendingCursor.next_upcoming hmore
      obtain ⟨hcatalog, hanswers⟩ := ih (paging.step .next) hlater
      refine ⟨hcatalog, hanswers.trans ?_⟩
      have hfirst : (paging.step .next).answers =
          paging.answers ++ [(paging.cursor.buffer ++ more)[0]?.map .ok] := by
        rw [← List.head?_eq_getElem?, ← hoffer]
        rfl
      have hcursor : (paging.step .next).cursor.buffer ++ later =
          (paging.cursor.buffer ++ more).tail := htail
      rw [hfirst, hcursor, List.append_assoc, List.range_succ_eq_map, List.map_cons, List.map_map]
      simp only [List.getElem?_tail]
      rfl

/-- Paging loses and repeats nothing, also while others add tickets and resolve them.  Whatever
happens, the numbers of the tickets that are given out increase, each was pending at some moment
since the cursor was made, and once a cursor has answered that there is nothing more, that is
its answer for ever.  If the tickets are such as a session makes, no page fails, a ticket that
was pending in the beginning and still is when the cursor ends was given out exactly once, and
while nobody else does anything a cursor gives out the pending tickets in their order and then
nothing, and so does every later one. -/
theorem nothing_lost_or_repeated (first : Catalog) :
    (∀ events, (((start first).run events).given.map (·.id.value)).Pairwise (· < ·)) ∧
    (∀ events ticket, ((start first).run events).offer = some (.ok ticket) →
      ∃ earlier, earlier <+: events ∧
        ((start first).run earlier).catalog.ShowsPending ticket) ∧
    (∀ events later, ((start first).run events).offer = none →
      ((start first).run (events ++ .next :: later)).offer = none) ∧
    (first.tickets.HoldsTickets →
      (∀ events error, ((start first).run events).offer ≠ some (.error error)) ∧
      (∀ events, ((start first).run events).offer = none →
        ∀ entry ∈ first.pendingRows, entry ∈ ((start first).run events).catalog.pendingRows →
          (((start first).run events).given.map (·.id.value)).count entry.1 = 1) ∧
      ∃ tickets, readTickets first.pendingRows = .ok tickets ∧ ∀ earlier count,
        ((((start first).run (List.replicate earlier .next)).again).run
          (List.replicate count .next)).answers =
            (List.range count).map fun index => tickets[index]?.map .ok) := by
  have hincreasing : ∀ events,
      (((start first).run events).given.map (·.id.value)).Pairwise (· < ·) := by
    intro events
    have hinOrder := (keeps_run first events).inOrder.increasing
    exact List.pairwise_map.mpr (List.pairwise_append.mp hinOrder).1
  have hasked : ∀ events, ((start first).run events).cursor.Asked
      ((start first).run events).catalog ((start first).run events).offer
      (((start first).run events).step .next).cursor := fun events =>
    ((start first).run events).cursor.asked ((start first).run events).catalog
  refine ⟨hincreasing, fun events ticket hoffer => ?_, fun events later hoffer => ?_,
    fun htickets => ⟨offer_ne_error htickets, fun events hoffer entry hentry hpending => ?_, ?_⟩⟩
  · refine (keeps_run first events).exists_moment (hasked events) (List.mem_append_left _ ?_)
    rw [hoffer]
    exact List.mem_singleton.mpr rfl
  · have hspent := hasked events
    rw [hoffer] at hspent
    rw [List.append_cons, run_append, run_concat]
    exact offer_run_of_spent hspent.spent later
  · have hend := hasked events
    have hreaches := hend.reaches (offer_ne_error htickets events) hpending
      (reaches_run htickets hentry events hpending)
    rw [hoffer] at hend hreaches
    rw [ticketOf, List.append_nil] at hreaches
    refine List.count_eq_one_of_mem ?_ (hend.spent.mem_given hreaches)
    exact (hincreasing events).imp fun h => Int.ne_of_lt h
  · have hreadable : ∀ entry ∈ first.pendingRows, ∃ ticket, entry.2.read entry.1 = .ok ticket :=
      fun entry hentry => htickets.readable entry (List.mem_filter.mp hentry).1
    obtain ⟨tickets, hread⟩ := exists_readTickets hreadable
    have hrest : PendingCursor.start.rest first = first.pendingRows := by
      rw [PendingCursor.rest, if_neg (by decide), List.filter_eq_self]
      intro entry hentry
      exact decide_eq_true (htickets.positive entry (List.mem_filter.mp hentry).1)
    have hstart : readTickets ((start first).cursor.rest first) = .ok tickets := by
      rw [start, hrest, hread]
    refine ⟨tickets, hread, fun earlier count => ?_⟩
    have hcatalog := (run_replicate_next earlier (start first) hstart).1
    rw [again, hcatalog]
    exact (run_replicate_next count (start first) hstart).2

/-- While somebody pages through two tickets, the first is resolved and a third is added. -/
def resolving : List Event :=
  [.next, .resolve ⟨1⟩ none 0, .add (.ok ⟨[47]⟩) ⟨[47, 98]⟩ 0, .next]

/-- Paging then ends, and has given out the second ticket, which stays pending, once. -/
theorem nothing_lost_or_repeated_of_resolving :
    World.withSameTickets.catalog.tickets.HoldsTickets ∧
      ((start World.withSameTickets.catalog).run resolving).offer = none ∧
      ∃ entry ∈ World.withSameTickets.catalog.pendingRows,
        entry ∈ ((start World.withSameTickets.catalog).run resolving).catalog.pendingRows ∧
          (((start World.withSameTickets.catalog).run resolving).given.map
            (·.id.value)).count entry.1 = 1 := by
  obtain ⟨answers, hfresh, hrun⟩ := Session.run_withSameTickets
  have htickets := (Session.listable_of_run hfresh hrun (.refl _)).holdsTickets
  have hoffer : ((start World.withSameTickets.catalog).run resolving).offer = none := rfl
  have hfirst : (2, .ofPath "/a" 0) ∈ World.withSameTickets.catalog.pendingRows := by decide +kernel
  have hlast : (2, .ofPath "/a" 0) ∈
      ((start World.withSameTickets.catalog).run resolving).catalog.pendingRows := by decide +kernel
  obtain ⟨-, -, -, hwell⟩ := nothing_lost_or_repeated World.withSameTickets.catalog
  exact ⟨htickets, hoffer, _, hfirst, hlast,
    (hwell htickets).2.1 resolving hoffer _ hfirst hlast⟩

end Paging

end AudioCatalog
