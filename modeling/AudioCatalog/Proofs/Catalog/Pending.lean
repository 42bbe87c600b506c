import AudioCatalog.Catalog.Tickets
import AudioCatalog.Proofs.Results
import Mathlib.Data.List.Basic

/-!
# Pending tickets

Page by page or not, the list of pending tickets is what their rows say, each row read once
and in the order of the numbers, and it ends with a fault at the first row that cannot be
read.  The first page begins after the number zero, so the numbers have to be positive.
-/

namespace AudioCatalog

theorem TicketRow.id_of_read {id : Int} {row : TicketRow} {ticket : Ticket}
    (h : row.read id = .ok ticket) : ticket.id = ⟨id⟩ := by
  obtain ⟨_, _, h⟩ := bind_eq_ok_iff.mp h
  obtain ⟨_, _, h⟩ := bind_eq_ok_iff.mp h
  obtain ⟨_, _, h⟩ := bind_eq_ok_iff.mp h
  cases h
  rfl

/-- Reads the rows of tickets. -/
def readTickets (rows : List (Int × TicketRow)) : Except StoreFault (List Ticket) :=
  rows.mapM fun entry => entry.2.read entry.1

theorem map_id_of_readTickets {rows : List (Int × TicketRow)} {tickets : List Ticket}
    (h : readTickets rows = .ok tickets) : tickets.map (·.id.value) = rows.map (·.1) := by
  rw [readTickets] at h
  induction rows generalizing tickets with
  | nil =>
      cases h
      rfl
  | cons row rows ih =>
      rw [List.mapM_cons] at h
      obtain ⟨ticket, hticket, h⟩ := bind_eq_ok_iff.mp h
      obtain ⟨rest, hrest, h⟩ := bind_eq_ok_iff.mp h
      cases h
      rw [List.map_cons, List.map_cons, ih hrest, TicketRow.id_of_read hticket]

/-- Rows that can be read one by one can be read together. -/
theorem exists_readTickets {rows : List (Int × TicketRow)}
    (h : ∀ entry ∈ rows, ∃ ticket, entry.2.read entry.1 = .ok ticket) :
    ∃ tickets, readTickets rows = .ok tickets := by
  induction rows with
  | nil => exact ⟨[], rfl⟩
  | cons row rows ih =>
      obtain ⟨ticket, hticket⟩ := h row List.mem_cons_self
      obtain ⟨tickets, htickets⟩ := ih fun entry hentry => h entry (List.mem_cons_of_mem _ hentry)
      refine ⟨ticket :: tickets, ?_⟩
      rw [readTickets] at htickets ⊢
      rw [List.mapM_cons, hticket, ok_bind, htickets, ok_bind]
      rfl

theorem readTickets_append (first second : List (Int × TicketRow)) :
    readTickets (first ++ second) =
      readTickets first >>= fun tickets => (readTickets second).map (tickets ++ ·) := by
  rw [readTickets, List.mapM_append]
  apply bind_congr
  intro tickets
  rw [← readTickets]
  cases readTickets second <;> rfl

/-- What comes after the last of the first rows, among rows in the order of their numbers,
is the rest. -/
theorem filter_lt_of_append {ρ : Type} {first second : List (Int × ρ)} {last : Int × ρ}
    (hordered : (first ++ second).Pairwise fun a b => a.1 < b.1)
    (hlast : first.getLast? = some last) :
    (first ++ second).filter (fun entry => last.1 < entry.1) = second := by
  obtain ⟨hfirst, _, hbetween⟩ := List.pairwise_append.mp hordered
  have hmem := List.mem_of_getLast? hlast
  have hnone : first.filter (fun entry => last.1 < entry.1) = [] := by
    obtain ⟨front, rfl⟩ := List.getLast?_eq_some_iff.mp hlast
    obtain ⟨_, _, hbefore⟩ := List.pairwise_append.mp hfirst
    rw [List.filter_eq_nil_iff]
    intro entry hentry
    rcases List.mem_append.mp hentry with hentry | hentry
    · have hlt := hbefore entry hentry last (List.mem_singleton.mpr rfl)
      simpa using Int.le_of_lt hlt
    · rw [List.mem_singleton.mp hentry]
      simp
  have hall : second.filter (fun entry => last.1 < entry.1) = second := by
    rw [List.filter_eq_self]
    intro entry hentry
    exact decide_eq_true (hbetween last hmem entry hentry)
  rw [List.filter_append, hnone, hall, List.nil_append]

namespace PendingCursor

variable {catalog : Catalog} {cursor next : PendingCursor}

/-- The rows that a cursor has still to fetch. -/
def rest (cursor : PendingCursor) (catalog : Catalog) : List (Int × TicketRow) :=
  if cursor.exhausted then []
  else catalog.pendingRows.filter fun entry => cursor.after < entry.1

theorem ordered_pendingRows (catalog : Catalog) :
    catalog.pendingRows.Pairwise fun a b => a.1 < b.1 :=
  catalog.tickets.ordered.filter _

/-- A page is the tickets of the next rows. -/
theorem fetch_eq (hbuffer : cursor.buffer = []) (hexhausted : cursor.exhausted = false) :
    cursor.fetch catalog = (readTickets ((cursor.rest catalog).take pageLength)).map fun page =>
      { after := match page.getLast? with
          | some ticket => ticket.id.value
          | none => cursor.after
        buffer := page
        exhausted := page.length < pageLength } := by
  rw [fetch, rest, hexhausted, if_neg Bool.false_ne_true, hbuffer]
  simp only [List.nil_append, Bool.false_or]
  rw [← readTickets]
  cases readTickets _ <;> rfl

/-- The rows behind the last one of a page are those that the page left out. -/
theorem filter_lt_last {last : Int × TicketRow}
    (hlast : ((cursor.rest catalog).take pageLength).getLast? = some last) :
    catalog.pendingRows.filter (fun entry => last.1 < entry.1) =
      (cursor.rest catalog).drop pageLength := by
  have hmem : last ∈ cursor.rest catalog := List.mem_of_mem_take (List.mem_of_getLast? hlast)
  rw [rest] at hmem hlast ⊢
  split at hmem
  · cases hmem
  · rename_i hexhausted
    rw [if_neg hexhausted] at hlast ⊢
    have hbegin : cursor.after < last.1 := of_decide_eq_true (List.mem_filter.mp hmem).2
    have hordered := (ordered_pendingRows catalog).filter fun entry => cursor.after < entry.1
    rw [← List.take_append_drop pageLength (catalog.pendingRows.filter _)] at hordered
    have hbehind := filter_lt_of_append hordered hlast
    rw [List.take_append_drop, List.filter_filter] at hbehind
    rw [← hbehind]
    apply List.filter_congr
    intro entry _
    rw [Bool.eq_iff_iff, Bool.and_eq_true, decide_eq_true_eq, decide_eq_true_eq]
    exact ⟨fun h => ⟨h, Int.lt_trans hbegin h⟩, And.left⟩

/-- A full page is followed by the rest of the rows, and a page that is not full by none. -/
theorem rest_of_fetch (hbuffer : cursor.buffer = []) (hexhausted : cursor.exhausted = false)
    (hfetch : cursor.fetch catalog = .ok next) :
    readTickets ((cursor.rest catalog).take pageLength) = .ok next.buffer ∧
      next.rest catalog = (cursor.rest catalog).drop pageLength := by
  rw [fetch_eq hbuffer hexhausted] at hfetch
  obtain ⟨page, hpage, rfl⟩ := map_eq_ok_iff.mp hfetch
  have hids := map_id_of_readTickets hpage
  have hlength : page.length = min pageLength (cursor.rest catalog).length := by
    have h := congrArg List.length hids
    rwa [List.length_map, List.length_map, List.length_take] at h
  refine ⟨hpage, ?_⟩
  by_cases hshort : page.length < pageLength
  · have hdrop : (cursor.rest catalog).drop pageLength = [] := by
      rw [List.drop_eq_nil_iff]
      omega
    rw [hdrop]
    exact if_pos (decide_eq_true hshort)
  · cases hlast : page.getLast? with
    | none =>
        rw [List.getLast?_eq_none_iff] at hlast
        rw [hlast] at hshort
        exact absurd (by decide) hshort
    | some ticket =>
        have hlastId := congrArg List.getLast? hids
        rw [List.getLast?_map, List.getLast?_map, hlast, Option.map_some, eq_comm,
          Option.map_eq_some_iff] at hlastId
        obtain ⟨last, hrow, hid⟩ := hlastId
        rw [← filter_lt_last hrow, hid]
        exact if_neg (by simpa using hshort)

/-- A page that cannot be read holds the first row that cannot be read. -/
theorem readTickets_of_fetch_error (hbuffer : cursor.buffer = [])
    (hexhausted : cursor.exhausted = false) {fault : StoreFault}
    (hfetch : cursor.fetch catalog = .error fault) :
    readTickets (cursor.rest catalog) = .error fault := by
  rw [fetch_eq hbuffer hexhausted] at hfetch
  cases hpage : readTickets ((cursor.rest catalog).take pageLength) with
  | ok page =>
      rw [hpage] at hfetch
      cases hfetch
  | error error =>
      rw [hpage] at hfetch
      cases hfetch
      rw [← List.take_append_drop pageLength (cursor.rest catalog), readTickets_append, hpage]
      rfl

/-- With each page fetched, as many rows fewer are left, and the tickets stay the same. -/
theorem readTickets_of_fetch_ok (hbuffer : cursor.buffer = [])
    (hexhausted : cursor.exhausted = false) (hfetch : cursor.fetch catalog = .ok next) :
    readTickets (cursor.rest catalog) =
        (readTickets (next.rest catalog)).map (next.buffer ++ ·) ∧
      next.buffer.length + (next.rest catalog).length = (cursor.rest catalog).length ∧
      (next.buffer = [] → next.rest catalog = []) := by
  obtain ⟨hpage, hdrop⟩ := rest_of_fetch hbuffer hexhausted hfetch
  have hlength := congrArg List.length (map_id_of_readTickets hpage)
  rw [List.length_map, List.length_map, List.length_take] at hlength
  have hpositive : 0 < pageLength := by decide
  refine ⟨?_, ?_, fun hempty => ?_⟩
  · rw [hdrop, ← ok_bind next.buffer fun page =>
      (readTickets ((cursor.rest catalog).drop pageLength)).map (page ++ ·), ← hpage,
      ← readTickets_append, List.take_append_drop]
  · rw [hdrop, List.length_drop]
    omega
  · rw [hempty, List.length_nil] at hlength
    rw [hdrop, List.drop_eq_nil_iff]
    omega

/-- The tickets from a cursor on are those that it holds and those of the rows that it has
still to fetch. -/
theorem collect_eq {limit : Nat} :
    ∀ {cursor : PendingCursor},
      cursor.buffer.length + (cursor.rest catalog).length < limit →
      cursor.collect catalog limit =
        ((readTickets (cursor.rest catalog)).map (cursor.buffer ++ ·)).mapError .store := by
  induction limit with
  | zero => exact fun h => absurd h (Nat.not_lt_zero _)
  | succ limit ih =>
      intro cursor hlimit
      -- A ticket that a cursor holds is given out first, and then the limit is one less.
      have hgive : ∀ {holding : PendingCursor} {ticket : Ticket} {more : List Ticket},
          holding.buffer = ticket :: more →
          more.length + (holding.rest catalog).length < limit →
          (collect catalog limit { holding with buffer := more }).map (ticket :: ·) =
            ((readTickets (holding.rest catalog)).map (holding.buffer ++ ·)).mapError .store := by
        intro holding ticket more hholding hmore
        have hrest : { holding with buffer := more }.rest catalog = holding.rest catalog := rfl
        rw [ih hmore, hrest, hholding]
        cases readTickets (holding.rest catalog) <;> rfl
      rw [collect, PendingCursor.next]
      cases hbuffer : cursor.buffer with
      | cons ticket more =>
          rw [hbuffer, List.length_cons] at hlimit
          simp only [List.isEmpty_cons, Bool.false_and, Bool.false_eq_true, if_false, hbuffer]
          rw [← hbuffer]
          exact hgive hbuffer (by omega)
      | nil =>
          rw [hbuffer, List.length_nil] at hlimit
          cases hexhausted : cursor.exhausted with
          | true =>
              have hrest : cursor.rest catalog = [] := if_pos hexhausted
              simp only [hrest, List.isEmpty_nil, Bool.not_true, Bool.and_false,
                Bool.false_eq_true, if_false, hbuffer]
              rfl
          | false =>
              simp only [List.isEmpty_nil, Bool.not_false, Bool.and_true, if_true]
              cases hfetch : cursor.fetch catalog with
              | error fault =>
                  rw [readTickets_of_fetch_error hbuffer hexhausted hfetch]
                  rfl
              | ok fetched =>
                  obtain ⟨htickets, hlength, hend⟩ :=
                    readTickets_of_fetch_ok hbuffer hexhausted hfetch
                  rw [htickets]
                  cases hholding : fetched.buffer with
                  | nil =>
                      simp only [hholding, hend hholding]
                      rfl
                  | cons ticket more =>
                      rw [hholding, List.length_cons] at hlength
                      have hrest := hgive hholding (by omega)
                      rw [hholding] at hrest
                      simp only [hholding]
                      refine Eq.trans hrest ?_
                      cases readTickets (fetched.rest catalog) <;> rfl

end PendingCursor

/-- The pending tickets are those of the pending rows, all of them and in their order. -/
theorem Catalog.pending_eq {catalog : Catalog}
    (hpositive : ∀ entry ∈ catalog.tickets.rows, 0 < entry.1) :
    catalog.pending = (readTickets catalog.pendingRows).mapError .store := by
  have hrest : PendingCursor.start.rest catalog = catalog.pendingRows := by
    rw [PendingCursor.rest, if_neg (by decide), List.filter_eq_self]
    intro entry hentry
    exact decide_eq_true (hpositive entry (List.mem_filter.mp hentry).1)
  have hlimit : PendingCursor.start.buffer.length + (PendingCursor.start.rest catalog).length <
      catalog.countPending + 1 := by
    rw [hrest, PendingCursor.start, List.length_nil, Nat.zero_add]
    exact Nat.lt_succ_self _
  rw [pending, PendingCursor.collect_eq hlimit, hrest]
  cases readTickets catalog.pendingRows <;> rfl

end AudioCatalog
