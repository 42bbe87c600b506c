import AudioCatalog.Proofs.Catalog.Refusals
import AudioCatalog.Proofs.Import.Orders
import AudioCatalog.Proofs.Import.Tickets
import AudioCatalog.Proofs.Session.Permanence
import AudioCatalog.Proofs.Session.Queues

/-!
# Tickets are resolved once

A ticket can be resolved by hand and by the commit of an import, and any number of imports may
be under way while a session goes on.  `Table.Turns` is what happens to the tickets then, with
every attempt to resolve one that found the ticket; a `Crowd` goes on by such turns whatever
the order of its steps.  From the turns alone, by induction, the first attempt on a ticket
resolves it, and nothing changes it afterwards.
-/

namespace AudioCatalog

/-! ## Settlements -/

/-- One attempt to resolve a ticket that is there. -/
inductive Settlement where
  /-- By hand, with the answer whether the ticket was pending until then. -/
  | byHand (ticket : TicketId) (done : Bool)
  /-- By the commit of an import to an identity. -/
  | byCommit (ticket : TicketId) (identity : IdentityId)

namespace Settlement

/-- The ticket that is named. -/
def ticket : Settlement → TicketId
  | byHand ticket _ | byCommit ticket _ => ticket

/-- The identity that a ticket is resolved to. -/
def identity : Settlement → Option IdentityId
  | byHand .. => none
  | byCommit _ identity => some identity

/-- Whether the answer to an attempt is right for the row of the ticket before it. -/
def Fits (row : TicketRow) : Settlement → Prop
  | byHand _ done => done = decide (row.resolvedAt = .null)
  | byCommit .. => True

/-- What the commit of an import with a ticket settles. -/
def ofCommit (ticket : Option TicketId) (identity : IdentityId) : List Settlement :=
  ticket.toList.map (byCommit · identity)

/-- The first of some attempts on a ticket. -/
def first? (settlements : List Settlement) (id : Int) : Option Settlement :=
  settlements.find? fun settlement => settlement.ticket.value = id

end Settlement

/-- Whether a ticket is as it was made, if there was no attempt to resolve it, or as the first
attempt made it. -/
def TicketRow.SettledBy (row : TicketRow) (settlement? : Option Settlement) : Prop :=
  ∃ path requestedAt, match settlement? with
    | none => row = .ofPath path requestedAt
    | some settlement =>
      ∃ now, row = (TicketRow.ofPath path requestedAt).settled settlement.identity now

namespace Table

/-- What happens to the tickets at once: a new one comes last, or there is an attempt to
resolve one of them. -/
inductive Turn : Table TicketRow → List Settlement → Table TicketRow → Prop
  | insert {tickets next : Table TicketRow} {path : String} {now : Timestamp} {id : Int}
      (inserted : tickets.insert? (.ofPath path now) = some (id, next)) : Turn tickets [] next
  | settle {tickets : Table TicketRow} (settlement : Settlement) {row : TicketRow}
      (there : (settlement.ticket.value, row) ∈ tickets.rows) (fits : settlement.Fits row)
      (now : Timestamp) :
      Turn tickets [settlement] (tickets.settle settlement.ticket settlement.identity now)

/-- What happens to the tickets in the course of time, with the attempts in their order. -/
inductive Turns : Table TicketRow → List Settlement → Table TicketRow → Prop
  | start (tickets : Table TicketRow) : Turns tickets [] tickets
  | step {first second third : Table TicketRow} {earlier later : List Settlement}
      (before : Turns first earlier second) (last : Turn second later third) :
      Turns first (earlier ++ later) third

variable {tickets next last : Table TicketRow} {earlier later : List Settlement}

theorem Turn.turns (hturn : tickets.Turn later next) : tickets.Turns later next :=
  .step (.start tickets) hturn

theorem Turns.trans (hfirst : tickets.Turns earlier next) (hsecond : next.Turns later last) :
    tickets.Turns (earlier ++ later) last := by
  induction hsecond with
  | start => rwa [List.append_nil]
  | step before turn ih =>
      rw [← List.append_assoc]
      exact .step ih turn

/-- A commit resolves its ticket, if it has one. -/
theorem turns_afterCommit {ticket : Option TicketId}
    (hknown : ∀ id ∈ ticket, (tickets.row? id.value).isSome) (identity : IdentityId)
    (now : Timestamp) :
    tickets.Turns (Settlement.ofCommit ticket identity)
      (tickets.afterCommit ticket identity now) := by
  cases ticket with
  | none => exact .start tickets
  | some id =>
      obtain ⟨row, hrow⟩ := Option.isSome_iff_exists.mp (hknown id rfl)
      exact (Turn.settle (.byCommit id identity) (row?_eq_some hrow) trivial now).turns

/-- A resolved ticket stays as it is, whatever happens. -/
theorem Turns.keeps_resolved (hturns : tickets.Turns later next) {entry : Int × TicketRow}
    (hentry : entry ∈ tickets.rows) (hresolved : entry.2.resolvedAt ≠ .null) :
    entry ∈ next.rows := by
  induction hturns with
  | start => exact hentry
  | step before turn ih =>
      cases turn with
      | insert inserted =>
          rw [(insert?_eq_some inserted).2.1]
          exact List.mem_append_left _ ih
      | settle settlement there fits now =>
          refine List.mem_map.mpr ⟨entry, ih, Prod.ext rfl ?_⟩
          simp only [TicketRow.settled, if_neg hresolved, ite_self]

/-! ## What turns tell -/

/-- What the attempts tell of the tickets: of each row the first attempt on it, and of each
answer whether there was an attempt before. -/
structure Tells (tickets : Table TicketRow) (settlements : List Settlement) : Prop where
  rows : ∀ entry ∈ tickets.rows, entry.2.SettledBy (Settlement.first? settlements entry.1)
  known : ∀ settlement ∈ settlements, ∃ row, (settlement.ticket.value, row) ∈ tickets.rows
  answers : ∀ before id done after, settlements = before ++ .byHand id done :: after →
    (done = true ↔ ∀ settlement ∈ before, settlement.ticket ≠ id)

theorem Tells.insert (htells : tickets.Tells earlier) {path : String} {now : Timestamp} {id : Int}
    (hinserted : tickets.insert? (.ofPath path now) = some (id, next)) : next.Tells earlier where
  rows := by
    obtain ⟨hid, hrows, -⟩ := insert?_eq_some hinserted
    intro entry hentry
    rw [hrows, List.mem_append, List.mem_singleton] at hentry
    rcases hentry with hentry | rfl
    · exact htells.rows entry hentry
    · have hnew : Settlement.first? earlier id = none := by
        rw [Settlement.first?, List.find?_eq_none]
        intro settlement hmem hnamed
        obtain ⟨row, hrow⟩ := htells.known settlement hmem
        rw [of_decide_eq_true hnamed, hid] at hrow
        exact tickets.not_mem_greatestId_add_one row hrow
      rw [hnew]
      exact ⟨path, now, rfl⟩
  known settlement hmem := by
    obtain ⟨row, hrow⟩ := htells.known settlement hmem
    rw [(insert?_eq_some hinserted).2.1]
    exact ⟨row, List.mem_append_left _ hrow⟩
  answers := htells.answers

/-- Whether a ticket is pending is whether there was an attempt on it. -/
theorem Tells.pending_iff (htells : tickets.Tells earlier) {id : TicketId} {row : TicketRow}
    (hrow : (id.value, row) ∈ tickets.rows) :
    row.resolvedAt = .null ↔ ∀ settlement ∈ earlier, settlement.ticket ≠ id := by
  obtain ⟨path, requestedAt, hsettled⟩ := htells.rows _ hrow
  have hnamed : ∀ settlement : Settlement,
      settlement.ticket.value = id.value ↔ settlement.ticket = id :=
    fun settlement => ⟨congrArg TicketId.mk, congrArg TicketId.value⟩
  cases hfirst : Settlement.first? earlier id.value with
  | none =>
      rw [hfirst] at hsettled
      simp only at hsettled
      rw [Settlement.first?, List.find?_eq_none] at hfirst
      refine ⟨fun _ settlement hmem hticket => ?_, fun _ => by rw [hsettled]; rfl⟩
      exact hfirst settlement hmem (decide_eq_true (congrArg TicketId.value hticket))
  | some settlement =>
      rw [hfirst] at hsettled
      obtain ⟨now, hsettled⟩ := hsettled
      simp only at hsettled
      refine ⟨fun hpending => ?_, fun hnone => ?_⟩
      · rw [hsettled] at hpending
        cases hpending
      · have hmem := List.mem_of_find?_eq_some hfirst
        have hticket := List.find?_some hfirst
        exact absurd ((hnamed settlement).mp (of_decide_eq_true hticket)) (hnone settlement hmem)

theorem Tells.settle (htells : tickets.Tells earlier) {settlement : Settlement} {row : TicketRow}
    (hthere : (settlement.ticket.value, row) ∈ tickets.rows) (hfits : settlement.Fits row)
    (now : Timestamp) :
    (tickets.settle settlement.ticket settlement.identity now).Tells (earlier ++ [settlement]) where
  rows := by
    intro entry hentry
    obtain ⟨before, hbefore, rfl⟩ := List.mem_map.mp hentry
    obtain ⟨path, requestedAt, hsettled⟩ := htells.rows before hbefore
    refine ⟨path, requestedAt, ?_⟩
    simp only [Settlement.first?, List.find?_append, List.find?_singleton] at hsettled ⊢
    by_cases hid : before.1 = settlement.ticket.value
    · rw [if_pos hid, if_pos (decide_eq_true hid.symm)]
      cases hfirst : earlier.find? fun other => other.ticket.value = before.1 with
      | none =>
          rw [hfirst] at hsettled
          simp only at hsettled
          exact ⟨now, by rw [hsettled]⟩
      | some other =>
          rw [hfirst] at hsettled
          obtain ⟨resolvedAt, hsettled⟩ := hsettled
          refine ⟨resolvedAt, ?_⟩
          rw [hsettled]
          exact TicketRow.settled_settled ..
    · have hother : ¬ decide (settlement.ticket.value = before.1) = true :=
        fun h => hid (of_decide_eq_true h).symm
      rw [if_neg hid, if_neg hother, Option.or_none]
      exact hsettled
  known other hmem := by
    have hthere : ∃ row, (other.ticket.value, row) ∈ tickets.rows := by
      rcases List.mem_append.mp hmem with hmem | hmem
      · exact htells.known other hmem
      · rw [List.mem_singleton.mp hmem]
        exact ⟨row, hthere⟩
    obtain ⟨row, hrow⟩ := hthere
    exact ⟨_, List.mem_map.mpr ⟨_, hrow, rfl⟩⟩
  answers before id done after heq := by
    rcases List.eq_nil_or_concat after with rfl | ⟨front, last, rfl⟩
    · obtain ⟨rfl, hlast⟩ := List.append_inj' heq rfl
      cases hlast
      exact (hfits ▸ decide_eq_true_iff).trans (htells.pending_iff hthere)
    · rw [List.concat_eq_append, ← List.cons_append, ← List.append_assoc] at heq
      obtain ⟨hearlier, -⟩ := List.append_inj' heq rfl
      exact htells.answers before id done front hearlier

theorem Turns.tells (hturns : tickets.Turns later next) (hstart : tickets.Tells []) :
    next.Tells later := by
  induction hturns with
  | start => exact hstart
  | step before turn ih =>
      cases turn with
      | insert inserted =>
          rw [List.append_nil]
          exact ih.insert inserted
      | settle settlement there fits now => exact ih.settle there fits now

end Table

/-- Whether the tickets of a catalog can be listed and have become so by some attempts to
resolve them, starting from those of another one. -/
structure Catalog.Settles (catalog : Catalog) (settlements : List Settlement) (next : Catalog) :
    Prop where
  listable : next.Listable
  turns : catalog.tickets.Turns settlements next.tickets

namespace Catalog.Settles

variable {catalog next last : Catalog} {earlier later : List Settlement}

theorem refl (hlistable : catalog.Listable) : catalog.Settles [] catalog :=
  ⟨hlistable, .start _⟩

theorem trans (hfirst : catalog.Settles earlier next) (hsecond : next.Settles later last) :
    catalog.Settles (earlier ++ later) last :=
  ⟨hsecond.listable, hfirst.turns.trans hsecond.turns⟩

theorem sameTables (hsettles : catalog.Settles earlier next) (hsame : last.SameTables next) :
    catalog.Settles earlier last where
  listable := hsettles.listable.congr hsame
  turns := by
    rw [hsame.tickets]
    exact hsettles.turns

end Catalog.Settles

/-! ## Imports -/

/-- What an import with a ticket has settled when it ends. -/
def Conclusion.settlements (conclusion : Conclusion) (ticket : Option TicketId) :
    List Settlement :=
  conclusion.receipt?.toList.flatMap fun receipt => Settlement.ofCommit ticket receipt.identity

namespace Phase

/-- What an import with a ticket has settled by the time it enters a phase. -/
def settlements (ticket : Option TicketId) (phase : Phase) : List Settlement :=
  phase.receipt?.toList.flatMap fun receipt => Settlement.ofCommit ticket receipt.identity

/-- What an import with a ticket settles on the way from a phase to the next. -/
def settles (ticket : Option TicketId) : Phase → Phase → List Settlement
  | claimed .., committed receipt => Settlement.ofCommit ticket receipt.identity
  | _, _ => []

theorem settles_eq_nil {entered : Phase} (h : entered.receipt? = none) (ticket : Option TicketId)
    (phase : Phase) : phase.settles ticket entered = [] := by
  rw [settles.eq_def]
  split
  · cases h
  · rfl

end Phase

/-- A commit resolves its ticket and changes no other. -/
theorem ImportJob.settles_write {job : ImportJob} {world : World} {decoded : Decoded}
    {resolution : Resolution} {id : IdentityId} {effect : CommitEffect} {catalog : Catalog}
    (hlistable : world.catalog.Listable)
    (h : job.write world decoded resolution = .ok (id, effect, catalog)) :
    world.catalog.Settles (Settlement.ofCommit job.ticket id) catalog := by
  refine ⟨hlistable.write (write_of_write h), ?_⟩
  obtain ⟨ledger, hkeeps, -, -⟩ := hlistable.1
  obtain ⟨⟨identities, sources, rfl⟩, -⟩ := write_cases hkeeps h
  exact Table.turns_afterCommit (openFor_of_write h).1.2.2 id world.now

namespace Importer

variable (importer : Importer)

/-- A step of an import settles what it says, which is nothing unless it commits. -/
theorem settles_advance (job : ImportJob) {world : World} (hlistable : world.catalog.Listable)
    (phase : Phase) :
    world.catalog.Settles (phase.settles job.ticket (importer.advance job world phase).2)
      (importer.advance job world phase).1.catalog := by
  cases hadvance : importer.advance job world phase with
  | mk next entered =>
      cases importer.advances hadvance with
      | quiet huncommitted hunreceipted hcatalog hfiles =>
          rw [Phase.settles_eq_nil hunreceipted, hcatalog]
          exact .refl hlistable
      | commit hwritten => exact ImportJob.settles_write hlistable hwritten
      | clear receipt =>
          rw [ImportJob.catalog_cleared]
          exact .refl hlistable
      | rest conclusion => exact .refl hlistable

theorem settlements_advance (job : ImportJob) (world : World) (phase : Phase)
    (ticket : Option TicketId) :
    (importer.advance job world phase).2.settlements ticket =
      phase.settlements ticket ++ phase.settles ticket (importer.advance job world phase).2 := by
  cases hadvance : importer.advance job world phase with
  | mk next entered =>
      cases importer.advances hadvance with
      | quiet huncommitted hunreceipted hcatalog hfiles =>
          rw [Phase.settles_eq_nil hunreceipted, Phase.settlements, Phase.settlements,
            huncommitted, hunreceipted]
          rfl
      | commit hwritten => exact List.flatMap_singleton ..
      | clear receipt =>
          simp only [Phase.settlements, Phase.settles, Phase.receipt?, Conclusion.receipt?,
            Option.toList_some, List.flatMap_singleton, ImportJob.receipt_cleared, List.append_nil]
      | rest conclusion => exact (List.append_nil _).symm

theorem settles_drive (job : ImportJob) (others : Others) (state : World × Unit)
    (hlistable : state.1.catalog.Listable) :
    let ended :=
      importer.drive job (fun phase state => (others.act phase state.1, ())) state .starting
    state.1.catalog.Settles (ended.2.settlements job.ticket) ended.1.1.catalog :=
  importer.drive_invariant job (fun phase state => (others.act phase state.1, ()))
    (fun phase now => state.1.catalog.Settles (phase.settlements job.ticket) now.1.catalog)
    (fun phase now hsettles => hsettles.sameTables (others.leave phase now.1).sameTables)
    (fun phase world _ _ hsettles => by
      rw [importer.settlements_advance job world phase]
      exact hsettles.trans (importer.settles_advance job hsettles.listable phase))
    state .starting (.refl hlistable)

theorem settles_replayInTurn (handling : Handling) (others : Pathname → Others)
    (tickets : List Ticket) :
    ∀ state : World × Unit, state.1.catalog.Listable →
      let replayed := importer.replayInTurn handling
        (fun path phase state => ((others path).act phase state.1, ())) tickets state
      state.1.catalog.Settles
        (replayed.2.flatMap fun entry => entry.conclusion.settlements (some entry.ticket.id))
        replayed.1.1.catalog := by
  induction tickets with
  | nil => exact fun state hlistable => .refl hlistable
  | cons ticket tickets ih =>
      intro state hlistable
      have hfirst := importer.settles_drive (.replay ticket handling none) (others ticket.path)
        state hlistable
      exact hfirst.trans (ih _ hfirst.listable)

theorem settles_replayAmong (handling : Handling) (others : Pathname → Others)
    {world next : World} {batch : Batch} (hlistable : world.catalog.Listable)
    (h : importer.replayAmong handling others world = .ok (next, batch)) :
    world.catalog.Settles
      (batch.entries.flatMap fun entry => entry.conclusion.settlements (some entry.ticket.id))
      next.catalog := by
  obtain ⟨⟨state, batch⟩, hreplay, h⟩ := map_eq_ok_iff.mp h
  cases h
  obtain ⟨tickets, _, hreplay⟩ := bind_eq_ok_iff.mp hreplay
  cases hreplay
  exact importer.settles_replayInTurn handling others tickets (world, ()) hlistable

end Importer

/-! ## Calls -/

/-- What a call settles, in order. -/
def World.settlements (world : World) (call : Call) : List Settlement :=
  let answer := (world.call call).2
  match call with
  | .run _ job _ =>
    match answer with
    | .ran conclusion => conclusion.settlements job.ticket
    | _ => []
  | .resolve id =>
    match answer with
    | .resolved (.ok done) => [.byHand id done]
    | _ => []
  | .replayPending .. =>
    match answer with
    | .replayed (.ok batch) =>
      batch.entries.flatMap fun entry => entry.conclusion.settlements (some entry.ticket.id)
    | _ => []
  | .insert .. | .attach .. | .find .. | .addTicket _ => []

/-- A call does to the tickets what it settles, and may add one. -/
theorem World.settles_call {world : World} (hlistable : world.catalog.Listable) (call : Call) :
    world.catalog.Settles (world.settlements call) (world.call call).1.catalog := by
  have hnext : (world.call call).1.catalog.Listable :=
    (world.writes_call call).keeps Catalog.Listable.write hlistable
  refine ⟨hnext, ?_⟩
  obtain ⟨ledger, hkeeps, -, -⟩ := hlistable.1
  cases call with
  | insert draft source =>
      rw [World.call]
      cases hinserted : world.catalog.insert draft source world.now with
      | error error => exact .start _
      | ok inserted =>
          obtain ⟨-, -, -, ⟨identities, sources, heq, -, -⟩, -⟩ :=
            hkeeps.addIdentity (Catalog.insert_eq_ok hinserted)
          have htickets : inserted.2.tickets = world.catalog.tickets := by
            rw [heq]
            rfl
          simp only [wrote, htickets]
          exact .start _
  | attach id source =>
      rw [World.call, Catalog.attach]
      cases hadded : world.catalog.addSource id source none none world.now with
      | error error => exact .start _
      | ok added =>
          obtain ⟨-, -, ⟨identities, sources, rfl, -, -⟩, -⟩ := hkeeps.addSource hadded
          exact .start _
  | run importer job others => exact (importer.settles_drive job others (world, ()) hlistable).turns
  | find importer path careful => exact .start _
  | addTicket path =>
      rw [World.call]
      cases hadded : world.catalog.addTicket world.files.currentPath path world.now with
      | error error => exact .start _
      | ok added =>
          obtain ⟨text, tickets, -, hinserted, heq⟩ := Catalog.addTicket_eq_ok hadded
          have htickets : added.2.tickets = tickets := by
            rw [heq]
          simp only [wrote, htickets]
          exact (Table.Turn.insert hinserted).turns
  | resolve id =>
      simp only [settlements, World.call]
      cases hresolved : world.catalog.resolve id world.now with
      | error error => exact .start _
      | ok resolved =>
          obtain ⟨-, row, hrow, hdone, heq⟩ :=
            Catalog.markResolved_eq_ok (Catalog.transaction_eq_ok hresolved)
          have htickets : resolved.2.tickets = world.catalog.tickets.settle id none world.now := by
            rw [heq]
          simp only [wrote, htickets]
          exact (Table.Turn.settle (.byHand id resolved.1) hrow hdone world.now).turns
  | replayPending importer handling others =>
      simp only [settlements, World.call]
      cases hreplay : importer.replayAmong handling others world with
      | error error => exact .start _
      | ok replayed => exact (importer.settles_replayAmong handling others hlistable hreplay).turns

/-! ## Tickets that are not there -/

/-- A ticket that is not there cannot be resolved by hand, and the catalog says so if it can be
written to. -/
theorem Catalog.resolve_unknown {catalog : Catalog} {id : TicketId}
    (hunknown : catalog.tickets.row? id.value = none) (now : Timestamp) :
    ∃ error, catalog.resolve id now = .error error ∧
      (error = .unknownTicket id ∨ catalog.locked = true ∧ error = .store .locked ∨
        catalog.access = .readOnly ∧ error = .store .readOnly) := by
  cases hresolved : catalog.resolve id now with
  | ok resolved =>
      obtain ⟨-, row, hrow, -⟩ := markResolved_eq_ok (transaction_eq_ok hresolved)
      rw [catalog.tickets.row?_of_mem hrow] at hunknown
      cases hunknown
  | error error =>
      refine ⟨error, rfl, ?_⟩
      rcases transaction_eq_error hresolved with hlocked | hmarked
      · exact .inr (.inl hlocked)
      rcases bind_eq_error_iff.mp hmarked with hreadOnly | ⟨_, -, hmissing⟩
      · exact .inr (.inr (demandWritable_eq_error hreadOnly))
      · rw [hunknown] at hmissing
        exact .inl (Except.error.inj hmissing).symm

/-- Each step of an import either commits it, and then the source is there and the ticket is
resolved at once, or leaves the catalog as it is. -/
theorem Importer.commits_or_keeps (importer : Importer) (job : ImportJob) {world next : World}
    (hsound : world.catalog.Sound) {phase entered : Phase}
    (hadvance : importer.advance job world phase = (next, entered)) :
    (∃ decoded resolution receipt,
      phase = .claimed decoded resolution ∧ entered = .committed receipt ∧
      next.catalog.Refers receipt.identity (job.deposit decoded world.now).source.state ∧
      ∀ id ∈ job.ticket, ∃ row, (id.value, row) ∈ world.catalog.tickets.rows ∧
        (id.value, row.settled (some receipt.identity) world.now) ∈ next.catalog.tickets.rows) ∨
      (∀ decoded resolution receipt,
        phase = .claimed decoded resolution → entered ≠ .committed receipt) ∧
      next.catalog = world.catalog := by
  cases importer.advances hadvance with
  | quiet huncommitted hunreceipted hcatalog hfiles =>
      refine .inr ⟨?_, hcatalog⟩
      rintro decoded resolution receipt - rfl
      cases hunreceipted
  | @commit decoded resolution id effect catalog hwritten =>
      refine .inl ⟨decoded, resolution, _, rfl, rfl,
        (ImportJob.refers_of_write hsound hwritten).1, fun ticket hticket => ?_⟩
      obtain ⟨ledger, hkeeps, -, -⟩ := hsound
      obtain ⟨⟨identities, sources, rfl⟩, -⟩ := ImportJob.write_cases hkeeps hwritten
      obtain ⟨row, hrow⟩ := Option.isSome_iff_exists.mp
        ((ImportJob.openFor_of_write hwritten).1.2.2 ticket hticket)
      have hmem := Table.row?_eq_some hrow
      refine ⟨row, hmem, ?_⟩
      rw [Option.mem_def.mp hticket]
      refine List.mem_map.mpr ⟨_, hmem, ?_⟩
      simp only [if_true, ImportJob.receipt]
  | clear receipt =>
      refine .inr ⟨fun _ _ _ h => ?_, job.catalog_cleared world receipt⟩
      cases h
  | rest conclusion =>
      refine .inr ⟨fun _ _ _ h => ?_, rfl⟩
      cases h

/-! ## Crowds -/

/-- A session, and how far the imports have got that are under way in it. -/
structure Crowd (ι : Type) where
  session : Session
  phase : ι → Phase

namespace Crowd

variable {ι : Type} [DecidableEq ι]

/-- One step of a crowd, with what it settles: a call, one step of one of the imports, or
something that others do or that is done to the session. -/
inductive Step (errands : ι → Errand) : Crowd ι → List Settlement → Crowd ι → Prop
  | call {storage : Storage} {world : World} {phase : ι → Phase} (call : Call) :
      Step errands ⟨.opened storage world, phase⟩ (world.settlements call)
        ⟨.opened storage (world.call call).1, phase⟩
  | proceed {storage : Storage} {world next : World} {phase : ι → Phase} {entrant : ι}
      {entered : Phase}
      (advanced : (errands entrant).importer.advance (errands entrant).job world
        (phase entrant) = (next, entered)) :
      Step errands ⟨.opened storage world, phase⟩
        ((phase entrant).settles (errands entrant).job.ticket entered)
        ⟨.opened storage next, Function.update phase entrant entered⟩
  | other {first second : Session} {phase : ι → Phase} (step : Session.Step first none second) :
      Step errands ⟨first, phase⟩ [] ⟨second, phase⟩

/-- Any number of steps, with what they settle in its order. -/
inductive Run (errands : ι → Errand) : Crowd ι → List Settlement → Crowd ι → Prop
  | start (crowd : Crowd ι) : Run errands crowd [] crowd
  | step {first second third : Crowd ι} {earlier later : List Settlement}
      (before : Run errands first earlier second) (last : Step errands second later third) :
      Run errands first (earlier ++ later) third

variable {errands : ι → Errand} {first last : Crowd ι} {settlements : List Settlement}

/-- A step does to the tickets what it settles. -/
theorem Step.settles (hstep : Step errands first settlements last) {catalog : Catalog}
    (hholds : first.session.Holds catalog) (hlistable : catalog.Listable) :
    ∃ next, last.session.Holds next ∧ catalog.Settles settlements next := by
  cases hstep with
  | @call storage world phase call =>
      have hsame : world.catalog.SameTables catalog := hholds
      have hsettles := World.settles_call (hlistable.congr hsame) call
      exact ⟨_, .refl _, hsettles.listable, hsame.tickets ▸ hsettles.turns⟩
  | @proceed storage world next phase entrant entered advanced =>
      have hsame : world.catalog.SameTables catalog := hholds
      have hsettles := (errands entrant).importer.settles_advance (errands entrant).job
        (hlistable.congr hsame) (phase entrant)
      rw [advanced] at hsettles
      exact ⟨_, .refl _, hsettles.listable, hsame.tickets ▸ hsettles.turns⟩
  | other step => exact ⟨catalog, hholds.step step, .refl hlistable⟩

/-- A run does to the tickets what its steps settle. -/
theorem Run.settles (hrun : Run errands first settlements last) {catalog : Catalog}
    (hholds : first.session.Holds catalog) (hlistable : catalog.Listable) :
    ∃ next, last.session.Holds next ∧ catalog.Settles settlements next := by
  induction hrun with
  | start => exact ⟨catalog, hholds, .refl hlistable⟩
  | step before step ih =>
      obtain ⟨between, hbetween, hsettles⟩ := ih
      obtain ⟨next, hnext, hlast⟩ := step.settles hbetween hsettles.listable
      exact ⟨next, hnext, hsettles.trans hlast⟩

/-- A ticket is resolved once.  Whatever a session with a new catalog and the imports under way
in it do, and in whatever order, the first attempt on a ticket resolves it: by hand the answer
is yes exactly if there was none before, each ticket is as the first attempt made it, and once
resolved it never changes again.  All pending tickets are listed, as many as are counted.  To
name a ticket that is not there fails, for that reason if nothing else is the matter (by hand:
if the catalog can be written to), and changes nothing; and a ticket is resolved in the step in
which the commit shows, and in no other step of an import. -/
theorem settled_once (hfresh : first.session.Fresh) (hrun : Run errands first settlements last) :
    (∀ before id done after, settlements = before ++ .byHand id done :: after →
      (done = true ↔ ∀ settlement ∈ before, settlement.ticket ≠ id)) ∧
    (∃ catalog, last.session.Holds catalog) ∧
    (∀ catalog, last.session.Holds catalog →
      (∀ entry ∈ catalog.tickets.rows,
        entry.2.SettledBy (Settlement.first? settlements entry.1)) ∧
      (∀ more later next, Run errands last more later → later.session.Holds next →
        ∀ entry ∈ catalog.tickets.rows, entry.2.resolvedAt ≠ .null →
          entry ∈ next.tickets.rows) ∧
      ∃ tickets, catalog.pending = .ok tickets ∧ tickets.length = catalog.countPending) ∧
    ∀ storage world, last.session = .opened storage world →
      (∀ id, world.catalog.tickets.row? id.value = none →
        (∃ error, world.call (.resolve id) = (world, .resolved (.error error)) ∧
          (error = .unknownTicket id ∨ world.catalog.locked = true ∧ error = .store .locked ∨
            world.catalog.access = .readOnly ∧ error = .store .readOnly)) ∧
        ∀ entrant decoded resolution, (errands entrant).job.ticket = some id →
          last.phase entrant = .claimed decoded resolution →
          ∃ error, (errands entrant).importer.advance (errands entrant).job world
              (last.phase entrant) = (world, .rolledBack error) ∧
            ((∃ written,
              (errands entrant).job.unticketed.write world decoded resolution = .ok written) →
                error = .unknownTicket id)) ∧
      ∀ entrant next entered,
        (errands entrant).importer.advance (errands entrant).job world (last.phase entrant) =
          (next, entered) →
        (∃ decoded resolution receipt,
          last.phase entrant = .claimed decoded resolution ∧ entered = .committed receipt ∧
          next.catalog.Refers receipt.identity
            ((errands entrant).job.deposit decoded world.now).source.state ∧
          ∀ id ∈ (errands entrant).job.ticket, ∃ row,
            (id.value, row) ∈ world.catalog.tickets.rows ∧
            (id.value, row.settled (some receipt.identity) world.now) ∈
              next.catalog.tickets.rows) ∨
        (∀ decoded resolution receipt,
          last.phase entrant = .claimed decoded resolution → entered ≠ .committed receipt) ∧
        next.catalog = world.catalog := by
  have hempty : Table.Tells (.empty : Table TicketRow) [] := by
    constructor
    case rows => exact fun entry hentry => nomatch hentry
    case known => exact fun settlement hmem => nomatch hmem
    case answers =>
      intro before id done after heq
      cases before <;> cases heq
  obtain ⟨known, hknown, hsettles⟩ := hrun.settles (Session.Knows.of_fresh hfresh).holds .of_empty
  have htells := hsettles.turns.tells hempty
  refine ⟨htells.answers, ⟨known, hknown⟩, fun catalog hcatalog => ?_, ?_⟩
  · have hsame := hcatalog.sameTables hknown
    have hlistable := hsettles.listable.congr hsame
    refine ⟨?_, fun more later next hmore hnext => ?_, ?_⟩
    · rw [hsame.tickets]
      exact htells.rows
    · obtain ⟨held, hheld, hlater⟩ := hmore.settles hcatalog hlistable
      rw [(hnext.sameTables hheld).tickets]
      exact fun entry => hlater.turns.keeps_resolved
    · obtain ⟨tickets, hread, hpending⟩ := hlistable.exists_pending
      exact ⟨tickets, hpending, length_of_readTickets hread⟩
  · intro storage world hopened
    have hsame : world.catalog.SameTables known := by
      rwa [hopened] at hknown
    have hsound := (hsettles.listable.congr hsame).1
    refine ⟨fun id hunknown => ⟨?_, ?_⟩, fun entrant next entered hadvance => ?_⟩
    · obtain ⟨error, herror, hreason⟩ := Catalog.resolve_unknown hunknown world.now
      refine ⟨error, ?_, hreason⟩
      rw [World.call, herror]
      rfl
    · intro entrant decoded resolution hticket hphase
      obtain ⟨⟨error, herror⟩, hsole⟩ :=
        ImportJob.write_unknown (errands entrant).job decoded resolution hsound hticket hunknown
      refine ⟨error, ?_, fun hwritten => ?_⟩
      · rw [hphase]
        simp only [Importer.advance, ImportJob.commit, herror]
      · rw [hsole hwritten] at herror
        exact (Except.error.inj herror).symm
    · exact (errands entrant).importer.commits_or_keeps (errands entrant).job hsound hadvance

/-- A ticket is resolved by hand twice, which does something once.  A ticket with another number
is not there. -/
theorem settled_once_by_hand : ∃ world : World,
    Run (fun _ : Unit => ⟨.clicking, .ofUnknownTicket⟩)
      ⟨.opened .exclusive .withOneFile, fun _ => .starting⟩
      [.byHand ⟨1⟩ true, .byHand ⟨1⟩ false] ⟨.opened .exclusive world, fun _ => .starting⟩ ∧
    (∀ entry ∈ world.catalog.tickets.rows, entry.1 = 1 → entry.2.resolvedAt ≠ .null) ∧
    world.call (.resolve ⟨7⟩) = (world, .resolved (.error (.unknownTicket ⟨7⟩))) := by
  have hfresh : (Session.opened .exclusive .withOneFile).Fresh := .refl _
  have hrun : Run (fun _ : Unit => ⟨.clicking, .ofUnknownTicket⟩) _
      [.byHand ⟨1⟩ true, .byHand ⟨1⟩ false] _ :=
    .step (.step (.step (.start ⟨.opened .exclusive .withOneFile, fun _ => .starting⟩)
      (.call (.addTicket ⟨[47, 97]⟩))) (.call (.resolve ⟨1⟩))) (.call (.resolve ⟨1⟩))
  obtain ⟨-, -, htickets, hopened⟩ := settled_once hfresh hrun
  refine ⟨_, hrun, fun entry hentry hid hpending => ?_, ?_⟩
  · obtain ⟨path, requestedAt, now, hsettled⟩ := hid ▸ (htickets _ (.refl _)).1 entry hentry
    rw [hsettled] at hpending
    cases hpending
  · obtain ⟨⟨error, hcall, rfl | ⟨hlocked, -⟩ | ⟨hreadOnly, -⟩⟩, -⟩ := (hopened _ _ rfl).1 ⟨7⟩ rfl
    · exact hcall
    · cases hlocked
    · cases hreadOnly

end Crowd

end AudioCatalog
