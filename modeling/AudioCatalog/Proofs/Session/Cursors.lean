import AudioCatalog.Proofs.Session.Queues

/-!
# Cursors over the queue

`PendingCursor.asked` says what a cursor over the pending tickets does when it is asked for the
next one, whatever became of the catalog since it was asked last.  What it has given out and what
it holds together are in the order of the numbers (`InOrder`), and a pending ticket is given out,
or held, or behind the position of the cursor (`Reaches`).
-/

namespace AudioCatalog

/-! ## What the cursor does when it is asked -/

/-- The row of a ticket that is pending. -/
def Catalog.ShowsPending (catalog : Catalog) (ticket : Ticket) : Prop :=
  ∃ row, (ticket.id.value, row) ∈ catalog.pendingRows ∧ row.read ticket.id.value = .ok ticket

theorem exists_row_of_mem_readTickets {rows : List (Int × TicketRow)} {tickets : List Ticket}
    (hread : readTickets rows = .ok tickets) {ticket : Ticket} (hmem : ticket ∈ tickets) :
    ∃ row, (ticket.id.value, row) ∈ rows ∧ row.read ticket.id.value = .ok ticket := by
  rw [readTickets] at hread
  induction rows generalizing tickets with
  | nil =>
      cases hread
      cases hmem
  | cons entry rows ih =>
      rw [List.mapM_cons] at hread
      obtain ⟨first, hfirst, hread⟩ := bind_eq_ok_iff.mp hread
      obtain ⟨rest, hrest, hread⟩ := bind_eq_ok_iff.mp hread
      cases hread
      rcases List.mem_cons.mp hmem with rfl | hmem
      · rw [TicketRow.id_of_read hfirst]
        exact ⟨entry.2, List.mem_cons_self, hfirst⟩
      · obtain ⟨row, hrow, hticket⟩ := ih hrest hmem
        exact ⟨row, List.mem_cons_of_mem _ hrow, hticket⟩

namespace PendingCursor

/-- The ticket in an answer of a cursor, if there is one. -/
def ticketOf : Option (Except Error Ticket) → List Ticket
  | some (.ok ticket) => [ticket]
  | some (.error _) | none => []

variable {catalog : Catalog} {cursor ready : PendingCursor} {given : List Ticket}

/-- The cursor after it has fetched a page, if it needed one. -/
def refill (cursor : PendingCursor) (catalog : Catalog) : Except StoreFault PendingCursor :=
  if cursor.buffer.isEmpty && !cursor.exhausted then cursor.fetch catalog else .ok cursor

/-- A cursor fetches a page if it holds nothing and there may be more. -/
theorem refill_cases {result : Except StoreFault PendingCursor}
    (hrefill : cursor.refill catalog = result) :
    result = .ok cursor ∧ (cursor.buffer = [] → cursor.exhausted = true) ∨
      cursor.buffer = [] ∧ cursor.exhausted = false ∧ cursor.fetch catalog = result := by
  rw [refill] at hrefill
  split at hrefill
  · rename_i hneeds
    rw [Bool.and_eq_true, List.isEmpty_iff, Bool.not_eq_true'] at hneeds
    exact .inr ⟨hneeds.1, hneeds.2, hrefill⟩
  · rename_i hneeds
    refine .inl ⟨hrefill.symm, fun hbuffer => ?_⟩
    simpa [hbuffer] using hneeds

/-- What a cursor answers when it is asked for the next ticket, and how it goes on. -/
inductive Asked (cursor : PendingCursor) (catalog : Catalog) :
    Option (Except Error Ticket) → PendingCursor → Prop
  | fault {fault : StoreFault} (failed : cursor.refill catalog = .error fault) :
      Asked cursor catalog (some (.error (.store fault))) { cursor with exhausted := true }
  | done {ready : PendingCursor} (filled : cursor.refill catalog = .ok ready)
      (empty : ready.buffer = []) : Asked cursor catalog none ready
  | ticket {ready : PendingCursor} {ticket : Ticket} {rest : List Ticket}
      (filled : cursor.refill catalog = .ok ready) (holds : ready.buffer = ticket :: rest) :
      Asked cursor catalog (some (.ok ticket)) { ready with buffer := rest }

theorem asked (cursor : PendingCursor) (catalog : Catalog) :
    cursor.Asked catalog (cursor.next catalog).1 (cursor.next catalog).2 := by
  rw [next, ← refill]
  cases hrefill : cursor.refill catalog with
  | error fault => exact .fault hrefill
  | ok ready =>
      cases hbuffer : ready.buffer with
      | nil =>
          simp only [hbuffer]
          exact .done hrefill hbuffer
      | cons ticket rest =>
          simp only [hbuffer]
          exact .ticket hrefill hbuffer

/-! ## Nothing is repeated -/

/-- Whether what a cursor has given out and what it holds is in the order of the numbers, and
none of it is behind the position of the cursor. -/
structure InOrder (cursor : PendingCursor) (given : List Ticket) : Prop where
  increasing : (given ++ cursor.buffer).Pairwise fun a b => a.id.value < b.id.value
  fetched : ∀ ticket ∈ given ++ cursor.buffer, ticket.id.value ≤ cursor.after

/-- A page comes after what was fetched before, and is in the order of the numbers. -/
theorem page_of_fetch (hbuffer : cursor.buffer = []) (hexhausted : cursor.exhausted = false)
    (hfetch : cursor.fetch catalog = .ok ready) :
    (ready.buffer.Pairwise fun a b => a.id.value < b.id.value) ∧
      (∀ ticket ∈ ready.buffer, cursor.after < ticket.id.value ∧
        ticket.id.value ≤ ready.after ∧ catalog.ShowsPending ticket) ∧
      cursor.after ≤ ready.after := by
  obtain ⟨hpage, -⟩ := rest_of_fetch hbuffer hexhausted hfetch
  have hrest : cursor.rest catalog =
      catalog.pendingRows.filter fun entry => cursor.after < entry.1 :=
    if_neg (by rw [hexhausted]; exact Bool.false_ne_true)
  have hincreasing : ready.buffer.Pairwise fun a b => a.id.value < b.id.value := by
    have hrows : (((cursor.rest catalog).take pageLength).map (·.1)).Pairwise (· < ·) := by
      rw [hrest, List.pairwise_map]
      exact ((ordered_pendingRows catalog).filter _).take
    rw [← map_id_of_readTickets hpage, List.pairwise_map] at hrows
    exact hrows
  have hmem : ∀ ticket ∈ ready.buffer,
      cursor.after < ticket.id.value ∧ catalog.ShowsPending ticket := by
    intro ticket hticket
    obtain ⟨row, hrow, hread⟩ := exists_row_of_mem_readTickets hpage hticket
    have hrow := List.mem_of_mem_take hrow
    rw [hrest, List.mem_filter] at hrow
    exact ⟨of_decide_eq_true hrow.2, row, hrow.1, hread⟩
  rw [fetch_eq hbuffer hexhausted] at hfetch
  obtain ⟨page, -, rfl⟩ := map_eq_ok_iff.mp hfetch
  rcases List.eq_nil_or_concat page with rfl | ⟨front, last, rfl⟩
  · exact ⟨.nil, fun ticket hticket => (nomatch hticket), Int.le_refl _⟩
  · rw [List.concat_eq_append] at hincreasing hmem ⊢
    simp only [List.getLast?_append, List.getLast?_singleton, Option.some_or]
    refine ⟨hincreasing, fun ticket hticket => ?_, ?_⟩
    · obtain ⟨hafter, hshown⟩ := hmem ticket hticket
      refine ⟨hafter, ?_, hshown⟩
      rcases List.mem_append.mp hticket with hticket | hticket
      · exact Int.le_of_lt ((List.pairwise_append.mp hincreasing).2.2 ticket hticket last
          (List.mem_singleton.mpr rfl))
      · rw [List.mem_singleton.mp hticket]
    · exact Int.le_of_lt (hmem last (List.mem_append_right _ (List.mem_singleton.mpr rfl))).1

theorem InOrder.start : InOrder .start [] :=
  ⟨.nil, fun _ hticket => nomatch hticket⟩

theorem InOrder.refill (horder : cursor.InOrder given)
    (hrefill : cursor.refill catalog = .ok ready) : ready.InOrder given := by
  rcases refill_cases hrefill with ⟨hready, -⟩ | ⟨hbuffer, hexhausted, hfetch⟩
  · cases hready
    exact horder
  · obtain ⟨hincreasing, hpage, hafter⟩ := page_of_fetch hbuffer hexhausted hfetch
    obtain ⟨hbefore, hfetched⟩ := horder
    rw [hbuffer, List.append_nil] at hbefore hfetched
    refine ⟨List.pairwise_append.mpr ⟨hbefore, hincreasing, fun a ha b hb => ?_⟩,
      fun ticket hticket => ?_⟩
    · exact Int.lt_of_le_of_lt (hfetched a ha) (hpage b hb).1
    · rcases List.mem_append.mp hticket with hticket | hticket
      · exact Int.le_trans (hfetched ticket hticket) hafter
      · exact (hpage ticket hticket).2.1

/-- What is given out goes from the front of what is held to the end of what was given out. -/
theorem InOrder.give (horder : cursor.InOrder given) {ticket : Ticket} {rest : List Ticket}
    (hholds : cursor.buffer = ticket :: rest) :
    InOrder { cursor with buffer := rest } (given ++ [ticket]) := by
  obtain ⟨hincreasing, hfetched⟩ := horder
  rw [hholds, List.append_cons] at hincreasing hfetched
  exact ⟨hincreasing, hfetched⟩

/-! ## Nothing is lost -/

/-- Whether a cursor has given out the ticket with a number, or holds it, or can still fetch
it. -/
def Reaches (cursor : PendingCursor) (given : List Ticket) (id : Int) : Prop :=
  id ∈ given.map (·.id.value) ∨ id ∈ cursor.buffer.map (·.id.value) ∨
    cursor.exhausted = false ∧ cursor.after < id

theorem Reaches.refill {entry : Int × TicketRow} (hreaches : cursor.Reaches given entry.1)
    (hentry : entry ∈ catalog.pendingRows) (hrefill : cursor.refill catalog = .ok ready) :
    ready.Reaches given entry.1 := by
  rcases refill_cases hrefill with ⟨hready, -⟩ | ⟨hbuffer, hexhausted, hfetch⟩
  · cases hready
    exact hreaches
  rcases hreaches with hgiven | hheld | ⟨-, hafter⟩
  · exact .inl hgiven
  · rw [hbuffer] at hheld
    cases hheld
  obtain ⟨hpage, hdrop⟩ := rest_of_fetch hbuffer hexhausted hfetch
  have hrest : entry ∈ cursor.rest catalog := by
    rw [rest, hexhausted, if_neg Bool.false_ne_true]
    exact List.mem_filter.mpr ⟨hentry, decide_eq_true hafter⟩
  -- The ticket is on the page, or behind it, and then the page is full.
  rw [← List.take_append_drop pageLength (cursor.rest catalog), List.mem_append] at hrest
  rcases hrest with hnow | hlater
  · right
    left
    rw [map_id_of_readTickets hpage]
    exact List.mem_map_of_mem hnow
  · right
    right
    rw [← hdrop, rest] at hlater
    split at hlater
    · cases hlater
    · rename_i hmore
      exact ⟨Bool.eq_false_iff.mpr hmore, of_decide_eq_true (List.mem_filter.mp hlater).2⟩

theorem Reaches.give {id : Int} (hreaches : cursor.Reaches given id) {ticket : Ticket}
    {rest : List Ticket} (hholds : cursor.buffer = ticket :: rest) :
    Reaches { cursor with buffer := rest } (given ++ [ticket]) id := by
  rw [Reaches, hholds, List.map_cons, List.mem_cons] at hreaches
  rw [Reaches, List.map_append, List.mem_append, List.map_singleton, List.mem_singleton]
  tauto

/-- A cursor that has nothing to give out after it was filled has fetched everything. -/
theorem exhausted_of_refill (hrefill : cursor.refill catalog = .ok ready)
    (hempty : ready.buffer = []) : ready.exhausted = true := by
  rcases refill_cases hrefill with ⟨hready, hexhausted⟩ | ⟨hbuffer, hexhausted, hfetch⟩
  · cases hready
    exact hexhausted hempty
  · rw [fetch_eq hbuffer hexhausted] at hfetch
    obtain ⟨page, -, rfl⟩ := map_eq_ok_iff.mp hfetch
    have hpage : page = [] := hempty
    rw [hpage]
    rfl

/-- Where tickets can be read, no page fails. -/
theorem exists_refill (hreadable : ∀ entry ∈ catalog.tickets.rows,
      ∃ ticket, entry.2.read entry.1 = .ok ticket) (cursor : PendingCursor) :
    ∃ ready, cursor.refill catalog = .ok ready := by
  cases hrefill : cursor.refill catalog with
  | ok ready => exact ⟨ready, rfl⟩
  | error fault =>
      rcases refill_cases hrefill with ⟨hready, -⟩ | ⟨hbuffer, hexhausted, hfetch⟩
      · cases hready
      · have hfault := readTickets_of_fetch_error hbuffer hexhausted hfetch
        have hrest : ∀ entry ∈ cursor.rest catalog,
            ∃ ticket, entry.2.read entry.1 = .ok ticket := by
          intro entry hentry
          rw [rest, hexhausted, if_neg Bool.false_ne_true] at hentry
          exact hreadable entry (List.mem_filter.mp (List.mem_filter.mp hentry).1).1
        obtain ⟨tickets, htickets⟩ := exists_readTickets hrest
        rw [hfault] at htickets
        cases htickets

/-! ## Answers -/

section Answers

variable {answer : Option (Except Error Ticket)} {after : PendingCursor}

theorem Asked.inOrder (hasked : cursor.Asked catalog answer after)
    (horder : cursor.InOrder given) : after.InOrder (given ++ ticketOf answer) := by
  cases hasked with
  | fault failed =>
      rw [ticketOf, List.append_nil]
      exact ⟨horder.increasing, horder.fetched⟩
  | done filled empty =>
      rw [ticketOf, List.append_nil]
      exact horder.refill filled
  | ticket filled holds => exact (horder.refill filled).give holds

/-- What is given out or held afterwards was held before, or is pending now. -/
theorem Asked.seen (hasked : cursor.Asked catalog answer after) :
    ∀ ticket ∈ ticketOf answer ++ after.buffer,
      ticket ∈ cursor.buffer ∨ catalog.ShowsPending ticket := by
  have hseen : ∀ {ready : PendingCursor}, cursor.refill catalog = .ok ready →
      ∀ ticket ∈ ready.buffer, ticket ∈ cursor.buffer ∨ catalog.ShowsPending ticket := by
    intro ready hrefill ticket hticket
    rcases refill_cases hrefill with ⟨hready, -⟩ | ⟨hbuffer, hexhausted, hfetch⟩
    · cases hready
      exact .inl hticket
    · exact .inr ((page_of_fetch hbuffer hexhausted hfetch).2.1 ticket hticket).2.2
  cases hasked with
  | fault failed => exact fun ticket hticket => .inl hticket
  | done filled empty => exact hseen filled
  | ticket filled holds =>
      have hheld := hseen filled
      rw [holds] at hheld
      exact hheld

/-- A pending ticket is not lost, unless a page fails. -/
theorem Asked.reaches (hasked : cursor.Asked catalog answer after)
    (hanswer : ∀ error, answer ≠ some (.error error)) {entry : Int × TicketRow}
    (hentry : entry ∈ catalog.pendingRows) (hreaches : cursor.Reaches given entry.1) :
    after.Reaches (given ++ ticketOf answer) entry.1 := by
  cases hasked with
  | fault failed => exact absurd rfl (hanswer _)
  | done filled empty =>
      rw [ticketOf, List.append_nil]
      exact hreaches.refill hentry filled
  | ticket filled holds => exact (hreaches.refill hentry filled).give holds

/-- Whether a cursor has nothing more to give out. -/
def Spent (cursor : PendingCursor) : Prop :=
  cursor.buffer = [] ∧ cursor.exhausted = true

/-- A cursor that answers that there is nothing more has nothing more. -/
theorem Asked.spent (hasked : cursor.Asked catalog none after) : after.Spent := by
  cases hasked with
  | done filled empty => exact ⟨empty, exhausted_of_refill filled empty⟩

/-- A cursor that has nothing more has given out every ticket that it reaches. -/
theorem Spent.mem_given (hspent : cursor.Spent) {id : Int} (hreaches : cursor.Reaches given id) :
    id ∈ given.map (·.id.value) := by
  rw [Reaches, hspent.1, hspent.2] at hreaches
  simpa using hreaches

theorem Spent.next_eq (hspent : cursor.Spent) (catalog : Catalog) :
    cursor.next catalog = (none, cursor) := by
  obtain ⟨hbuffer, hexhausted⟩ := hspent
  simp [next, hbuffer, hexhausted]

end Answers

/-! ## Cursors that nobody interferes with -/

theorem upcoming_refill {more : List Ticket} (hmore : readTickets (cursor.rest catalog) = .ok more)
    (hrefill : cursor.refill catalog = .ok ready) :
    ∃ later, readTickets (ready.rest catalog) = .ok later ∧
      ready.buffer ++ later = cursor.buffer ++ more ∧ (ready.buffer = [] → later = []) := by
  rcases refill_cases hrefill with ⟨hready, hexhausted⟩ | ⟨hbuffer, hexhausted, hfetch⟩
  · cases hready
    refine ⟨more, hmore, rfl, fun hempty => ?_⟩
    rw [rest, hexhausted hempty, if_pos rfl] at hmore
    cases hmore
    rfl
  · obtain ⟨htickets, -, hend⟩ := readTickets_of_fetch_ok hbuffer hexhausted hfetch
    rw [hmore] at htickets
    obtain ⟨later, hlater, heq⟩ := map_eq_ok_iff.mp htickets.symm
    refine ⟨later, hlater, by rw [heq, hbuffer, List.nil_append], fun hempty => ?_⟩
    rw [hend hempty] at hlater
    cases hlater
    rfl

/-- A cursor gives out the first of the tickets that it holds or has still to fetch, and goes
on with the others. -/
theorem next_upcoming {more : List Ticket} (hmore : readTickets (cursor.rest catalog) = .ok more) :
    (cursor.next catalog).1 = (cursor.buffer ++ more).head?.map .ok ∧
      ∃ later, readTickets ((cursor.next catalog).2.rest catalog) = .ok later ∧
        (cursor.next catalog).2.buffer ++ later = (cursor.buffer ++ more).tail := by
  have hasked := cursor.asked catalog
  generalize cursor.next catalog = answered at hasked ⊢
  obtain ⟨answer, after⟩ := answered
  cases hasked with
  | fault failed =>
      rcases refill_cases failed with ⟨hready, -⟩ | ⟨hbuffer, hexhausted, hfetch⟩
      · cases hready
      · rw [readTickets_of_fetch_error hbuffer hexhausted hfetch] at hmore
        cases hmore
  | @done ready filled empty =>
      obtain ⟨later, hlater, heq, hend⟩ := upcoming_refill hmore filled
      have hnothing : cursor.buffer ++ more = [] := by
        rw [← heq, empty, hend empty]
        rfl
      rw [hnothing]
      refine ⟨rfl, later, hlater, ?_⟩
      rw [heq, hnothing]
      rfl
  | @ticket ready ticket rest filled holds =>
      obtain ⟨later, hlater, heq, -⟩ := upcoming_refill hmore filled
      rw [← heq, holds]
      exact ⟨rfl, later, hlater, rfl⟩

end PendingCursor

end AudioCatalog
