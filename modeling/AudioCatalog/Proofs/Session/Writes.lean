import AudioCatalog.Proofs.Session.Consistency
import Mathlib.Logic.Relation

/-!
# Sessions as sequences of writes

Whatever is asked of a catalog, the catalog changes by one transaction after the other, and
by others who hold its lock or let go of it.  What each such write preserves is therefore
preserved by every call, and what depends on the tables only also by a session as a whole.
-/

namespace AudioCatalog

open Relation

/-- One write to a catalog. -/
inductive Catalog.Write : Catalog → Catalog → Prop
  | addIdentity {catalog next : Catalog} {draft : Draft} {source : Source}
      {ticket : Option TicketId} {now : Timestamp} {id : IdentityId}
      (written : catalog.addIdentity draft source ticket now = .ok (id, next)) :
      Write catalog next
  | addSource {catalog next : Catalog} {id : IdentityId} {source : Source}
      {metadata : Option Metadata} {ticket : Option TicketId} {now : Timestamp}
      (written : catalog.addSource id source metadata ticket now = .ok next) :
      Write catalog next
  | addTicket {catalog next : Catalog} {current : Except FileError Pathname} {path : Pathname}
      {now : Timestamp} {ticket : Ticket}
      (written : catalog.addTicket current path now = .ok (ticket, next)) :
      Write catalog next
  | resolve {catalog next : Catalog} {id : TicketId} {now : Timestamp} {done : Bool}
      (written : catalog.resolve id now = .ok (done, next)) :
      Write catalog next
  /-- Others hold the lock or let go of it. -/
  | lock (catalog : Catalog) (locked : Bool) : Write catalog { catalog with locked := locked }

/-- Any number of writes. -/
abbrev Catalog.Writes : Catalog → Catalog → Prop :=
  ReflTransGen Catalog.Write

namespace Catalog

variable {catalog next : Catalog}

/-- What every write preserves is preserved by any number of them. -/
theorem Writes.keeps {holds : Catalog → Prop}
    (hwrite : ∀ {a b : Catalog}, a.Write b → holds a → holds b) (hwrites : catalog.Writes next)
    (hstart : holds catalog) : holds next := by
  induction hwrites with
  | refl => exact hstart
  | tail _ hlast ih => exact hwrite hlast ih

theorem Sound.congr_tables (hsame : next.SameTables catalog) (hsound : catalog.Sound) :
    next.Sound :=
  hsound.congr hsame.identities hsame.sources hsame.tickets

theorem Sound.write (hwrite : catalog.Write next) (hsound : catalog.Sound) : next.Sound := by
  cases hwrite with
  | addIdentity written => exact hsound.addIdentity written
  | addSource written => exact hsound.addSource written
  | addTicket written => exact hsound.addTicket written
  | resolve written => exact hsound.resolve written
  | lock locked => exact hsound.congr rfl rfl rfl

theorem Writes.sound (hwrites : catalog.Writes next) (hsound : catalog.Sound) : next.Sound :=
  hwrites.keeps Sound.write hsound

end Catalog

/-! ## Calls -/

/-- A commit is one write. -/
theorem ImportJob.write_of_write {job : ImportJob} {world : World} {decoded : Decoded}
    {resolution : Resolution} {id : IdentityId} {effect : CommitEffect} {catalog : Catalog}
    (h : job.write world decoded resolution = .ok (id, effect, catalog)) :
    world.catalog.Write catalog := by
  rw [write] at h
  simp only at h
  split at h
  · obtain ⟨added, hadded, h⟩ := map_eq_ok_iff.mp h
    cases h
    exact .addSource hadded
  · obtain ⟨⟨number, added⟩, hadded, h⟩ := map_eq_ok_iff.mp h
    cases h
    exact .addIdentity hadded

theorem World.LeftAlone.write {world next : World} (hleft : world.LeftAlone next) :
    world.catalog.Write next.catalog := by
  obtain ⟨locked, heq⟩ := hleft
  rw [heq]
  exact .lock world.catalog locked

namespace Importer

variable (importer : Importer)

/-- A step of an import writes at most once. -/
theorem writes_advance (job : ImportJob) (world : World) (phase : Phase) :
    world.catalog.Writes (importer.advance job world phase).1.catalog := by
  cases hadvance : importer.advance job world phase with
  | mk next entered =>
      cases importer.advances hadvance with
      | quiet huncommitted hunreceipted hcatalog hfiles =>
          rw [hcatalog]
      | commit hwritten => exact .single (ImportJob.write_of_write hwritten)
      | clear receipt =>
          rw [ImportJob.catalog_cleared]
      | rest conclusion => exact .refl

theorem writes_drive (job : ImportJob) (others : Others) (state : World × Unit) (phase : Phase) :
    state.1.catalog.Writes
      (importer.drive job (fun phase state => (others.act phase state.1, ())) state
        phase).1.1.catalog :=
  importer.drive_invariant job (fun phase state => (others.act phase state.1, ()))
    (fun _ now => state.1.catalog.Writes now.1.catalog)
    (fun phase now hwrites => hwrites.tail (others.leave phase now.1).write)
    (fun phase world _ _ hwrites => hwrites.trans (importer.writes_advance job world phase))
    state phase .refl

theorem writes_replayInTurn (handling : Handling) (others : Pathname → Others)
    (tickets : List Ticket) :
    ∀ state : World × Unit, state.1.catalog.Writes
      (importer.replayInTurn handling
        (fun path phase state => ((others path).act phase state.1, ())) tickets
        state).1.1.catalog := by
  induction tickets with
  | nil => exact fun _ => .refl
  | cons ticket tickets ih =>
      intro state
      exact (importer.writes_drive (.replay ticket handling none) (others ticket.path) state
        .starting).trans (ih _)

theorem writes_replayAmong (handling : Handling) (others : Pathname → Others) {world next : World}
    {batch : Batch} (h : importer.replayAmong handling others world = .ok (next, batch)) :
    world.catalog.Writes next.catalog := by
  obtain ⟨⟨state, batch⟩, hreplay, h⟩ := map_eq_ok_iff.mp h
  cases h
  obtain ⟨tickets, _, hreplay⟩ := bind_eq_ok_iff.mp hreplay
  cases hreplay
  exact importer.writes_replayInTurn handling others tickets (world, ())

end Importer

/-- A call changes the catalog by writes. -/
theorem World.writes_call (world : World) (call : Call) :
    world.catalog.Writes (world.call call).1.catalog := by
  cases call with
  | insert draft source =>
      rw [World.call]
      cases hinserted : world.catalog.insert draft source world.now with
      | error error => exact .refl
      | ok inserted => exact .single (.addIdentity (Catalog.insert_eq_ok hinserted))
  | attach id source =>
      rw [World.call, Catalog.attach]
      cases hadded : world.catalog.addSource id source none none world.now with
      | error error => exact .refl
      | ok added => exact .single (.addSource hadded)
  | run importer job others => exact importer.writes_drive job others (world, ()) .starting
  | find importer path careful => exact .refl
  | addTicket path =>
      rw [World.call]
      cases hadded : world.catalog.addTicket world.files.currentPath path world.now with
      | error error => exact .refl
      | ok added => exact .single (.addTicket hadded)
  | resolve id =>
      rw [World.call]
      cases hresolved : world.catalog.resolve id world.now with
      | error error => exact .refl
      | ok resolved => exact .single (.resolve hresolved)
  | replayPending importer handling others =>
      rw [World.call]
      cases hreplay : importer.replayAmong handling others world with
      | error error => exact .refl
      | ok replayed => exact importer.writes_replayAmong handling others hreplay

/-! ## Sessions -/

namespace Session

/-- Whether a session holds a catalog with a property. -/
def HoldsSome (session : Session) (holds : Catalog → Prop) : Prop :=
  ∃ catalog, session.Holds catalog ∧ holds catalog

theorem HoldsSome.run {holds : Catalog → Prop}
    (htables : ∀ {a b : Catalog}, a.SameTables b → holds b → holds a)
    (hwrite : ∀ {a b : Catalog}, a.Write b → holds a → holds b) {first last : Session}
    {answers : List Answer} (hrun : Run first answers last) (hstart : first.HoldsSome holds) :
    last.HoldsSome holds := by
  induction hrun with
  | start => exact hstart
  | @step second third answers answer before step ih =>
      obtain ⟨catalog, hcatalog, hholds⟩ := ih
      cases answer with
      | none => exact ⟨catalog, hcatalog.step step, hholds⟩
      | some answer =>
          cases step with
          | @call storage world call =>
              have hworld := htables hcatalog hholds
              exact ⟨_, .refl _, (world.writes_call call).keeps hwrite hworld⟩

/-- What depends on the tables only and is preserved by every write holds of whatever catalog
a session comes to hold. -/
theorem holds_of_run {holds : Catalog → Prop}
    (htables : ∀ {a b : Catalog}, a.SameTables b → holds b → holds a)
    (hwrite : ∀ {a b : Catalog}, a.Write b → holds a → holds b) {first last : Session}
    {answers : List Answer} (hrun : Run first answers last) (hstart : first.HoldsSome holds)
    {catalog : Catalog} (hcatalog : last.Holds catalog) : holds catalog := by
  obtain ⟨known, hknown, hholds⟩ := HoldsSome.run htables hwrite hrun hstart
  exact htables (hcatalog.sameTables hknown) hholds

theorem HoldsSome.of_fresh {holds : Catalog → Prop} {session : Session} (hfresh : session.Fresh)
    (hempty : holds .empty) : session.HoldsSome holds :=
  ⟨.empty, (Knows.of_fresh hfresh).holds, hempty⟩

/-- The catalog of a session that began with a new one is sound. -/
theorem sound_of_run {first last : Session} {answers : List Answer} (hfresh : first.Fresh)
    (hrun : Run first answers last) {catalog : Catalog} (hcatalog : last.Holds catalog) :
    catalog.Sound :=
  holds_of_run Catalog.Sound.congr_tables Catalog.Sound.write hrun
    (.of_fresh hfresh (Catalog.Sound.of_empty rfl rfl rfl)) hcatalog

end Session

end AudioCatalog
