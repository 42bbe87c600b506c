import AudioCatalog.Proofs.Import.Writing
import AudioCatalog.Proofs.Session.BucketScan
import AudioCatalog.Proofs.Session.ExactRuns
import AudioCatalog.Proofs.Session.Writes

/-!
# What is read is what was written

Whatever is asked in a session, what it writes down are new identities and sources for known
ones.  `Record.ledger` says what a sequence of such records amounts to, without tables or
cells: an identity comes last, a source extends the entry of its identity.  The catalog keeps
that ledger from call to call, so every look-up, by whichever way, gives entries of it, each
value as it was written.
-/

namespace AudioCatalog

/-! ## Records -/

/-- One thing that is written to a catalog: a recording as a new identity, with its first
source and the time, or a source of an identity, with metadata that replaces the old. -/
inductive Record where
  | identity (id : IdentityId) (draft : Draft) (source : Source) (createdAt : Timestamp)
  | source (id : IdentityId) (source : Source) (metadata : Option Metadata)

namespace Record

/-- The ledger with what one record says. -/
def enter (ledger : List Identity) : Record → List Identity
  | .identity id draft first createdAt => ledger ++ [draft.entry id [first] createdAt]
  | .source id added metadata => extendEntry ledger id added metadata

/-- The ledger that some records amount to, the oldest record first. -/
def ledger (records : List Record) : List Identity :=
  records.foldl enter []

theorem ledger_append (records : List Record) (record : Record) :
    ledger (records ++ [record]) = enter (ledger records) record := by
  rw [ledger, List.foldl_append]
  rfl

end Record

/-- What an import wrote that is committed: its deposit, under the identity of the receipt. -/
def Receipt.record (receipt : Receipt) (deposit : Deposit) : Record :=
  match receipt.effect with
  | .inserted =>
    .identity receipt.identity deposit.draft deposit.source deposit.source.importedAt
  | .attached => .source receipt.identity deposit.source (some deposit.draft.metadata)

/-- What a call writes, in the order of its commits. -/
def World.records (world : World) (call : Call) : List Record :=
  let answer := (world.call call).2
  match call with
  | .insert draft source =>
    answer.identities.map fun id => .identity id draft source world.now
  | .attach id source =>
    match answer with
    | .attached (.ok ()) => [.source id source none]
    | _ => []
  | .run .. | .replayPending .. =>
    List.zipWith Receipt.record answer.receipts (world.deposits call)
  | .find .. | .addTicket _ | .resolve _ => []

/-- Any number of steps of a session, with what its calls write. -/
inductive Session.Recorded : Session → List Record → Session → Prop
  | start (session : Session) : Recorded session [] session
  | call {first : Session} {storage : Storage} {world : World} {records : List Record}
      (before : Recorded first records (opened storage world)) (call : Call) :
      Recorded first (records ++ world.records call) (opened storage (world.call call).1)
  | other {first second third : Session} {records : List Record}
      (before : Recorded first records second) (step : Step second none third) :
      Recorded first records third

namespace Session

variable {first last : Session}

/-- Every run of a session is recorded. -/
theorem Run.exists_recorded {answers : List Answer} (hrun : Run first answers last) :
    ∃ records, Recorded first records last := by
  induction hrun with
  | start => exact ⟨[], .start _⟩
  | @step _ _ _ answer before step ih =>
      obtain ⟨records, hrecorded⟩ := ih
      cases answer with
      | none => exact ⟨records, .other hrecorded step⟩
      | some answer =>
          cases step with
          | call call => exact ⟨_, .call hrecorded call⟩

theorem Recorded.exists_run {records : List Record} (hrecorded : Recorded first records last) :
    ∃ answers, Run first answers last := by
  induction hrecorded with
  | start => exact ⟨[], .start _⟩
  | call before call ih =>
      obtain ⟨answers, hrun⟩ := ih
      exact ⟨_, .step hrun (.call call)⟩
  | other before step ih =>
      obtain ⟨answers, hrun⟩ := ih
      exact ⟨_, .step hrun step⟩

end Session

/-! ## Imports -/

/-- A commit enters its record. -/
theorem ImportJob.keeps_write {job : ImportJob} {world : World} {ledger : List Identity}
    (hkeeps : world.catalog.Keeps ledger) {decoded : Decoded} {resolution : Resolution}
    {receipt : Receipt} {catalog : Catalog}
    (h : job.write world decoded resolution = .ok (receipt.identity, receipt.effect, catalog)) :
    catalog.Keeps (Record.enter ledger (receipt.record (job.deposit decoded world.now))) := by
  obtain ⟨-, ⟨heffect, -, -, -, hkept⟩ | ⟨heffect, -, -, hkept⟩⟩ := write_cases hkeeps h
  · simp only [Receipt.record, heffect]
    exact hkept
  · simp only [Receipt.record, heffect]
    exact hkept

/-- Whether the catalog keeps earlier records and that of the import, if it is committed, as
the import enters a phase.  The log then tells of one deposit more than it did. -/
def Phase.Recorded (earlier : List Record) (noted : List Deposit) (catalog : Catalog)
    (log : DepositLog) : Phase → Prop
  | .committed receipt => log.committed = noted ∧ ∃ deposit, log.claimed = some deposit ∧
      catalog.Keeps (Record.ledger (earlier ++ [receipt.record deposit]))
  | .finished conclusion => ∃ deposits, log.committed = noted ++ deposits ∧
      deposits.length = conclusion.receipt?.toList.length ∧
      catalog.Keeps (Record.ledger
        (earlier ++ List.zipWith Receipt.record conclusion.receipt?.toList deposits))
  | .starting | .admitted _ | .fingerprinted _ | .resolved .. | .claimed .. | .rolledBack _ =>
    log.committed = noted ∧ catalog.Keeps (Record.ledger earlier)

theorem Phase.Recorded.congr {earlier : List Record} {noted : List Deposit}
    {catalog next : Catalog} {log : DepositLog} {phase : Phase}
    (hrecorded : phase.Recorded earlier noted catalog log) (hsame : next.SameTables catalog) :
    phase.Recorded earlier noted next log := by
  have hkeeps : ∀ {ledger : List Identity}, catalog.Keeps ledger → next.Keeps ledger :=
    fun h => h.congr (by rw [hsame.identities]) (by rw [hsame.sources])
  cases phase with
  | committed receipt =>
      obtain ⟨hnoted, deposit, hdeposit, hkept⟩ := hrecorded
      exact ⟨hnoted, deposit, hdeposit, hkeeps hkept⟩
  | finished conclusion =>
      obtain ⟨deposits, hnoted, hlength, hkept⟩ := hrecorded
      exact ⟨deposits, hnoted, hlength, hkeeps hkept⟩
  | starting | admitted _ | fingerprinted _ | resolved _ _ | claimed _ _ | rolledBack _ =>
      exact ⟨hrecorded.1, hkeeps hrecorded.2⟩

/-- Without a commit there is nothing but the earlier records. -/
theorem Phase.recorded_iff {earlier : List Record} {noted : List Deposit} {catalog : Catalog}
    {log : DepositLog} {phase : Phase} (h : phase.receipt? = none) :
    phase.Recorded earlier noted catalog log ↔
      log.committed = noted ∧ catalog.Keeps (Record.ledger earlier) := by
  cases phase with
  | committed receipt => cases h
  | finished conclusion =>
      have hnone : conclusion.receipt? = none := h
      simp only [Recorded, hnone, Option.toList_none, List.length_nil, List.length_eq_zero_iff,
        List.zipWith_nil_left, List.append_nil]
      constructor
      · rintro ⟨deposits, hnoted, rfl, hkept⟩
        exact ⟨hnoted.trans (List.append_nil _), hkept⟩
      · rintro ⟨hnoted, hkept⟩
        exact ⟨[], hnoted.trans (List.append_nil _).symm, rfl, hkept⟩
  | starting | admitted _ | fingerprinted _ | resolved _ _ | claimed _ _ | rolledBack _ =>
      exact Iff.rfl

/-- No deposit is noted without a commit. -/
theorem DepositLog.committed_note (log : DepositLog) (job : ImportJob) (world : World)
    {phase : Phase} (h : phase.receipt? = none) :
    (log.note job world phase).committed = log.committed := by
  cases phase with
  | committed receipt => cases h
  | starting | admitted _ | fingerprinted _ | resolved _ _ | claimed _ _ | rolledBack _
  | finished _ => rfl

namespace Importer

variable (importer : Importer) {earlier : List Record} {noted : List Deposit}

/-- A step of an import keeps the records true. -/
theorem recorded_advance {job : ImportJob} {world : World} {log : DepositLog} {phase : Phase}
    (hrecorded : phase.Recorded earlier noted world.catalog log) :
    (importer.advance job world phase).2.Recorded earlier noted
      (importer.advance job world phase).1.catalog (log.note job world phase) := by
  cases hadvance : importer.advance job world phase with
  | mk next entered =>
      cases importer.advances hadvance with
      | quiet huncommitted hunreceipted hcatalog hfiles =>
          rw [Phase.recorded_iff hunreceipted, log.committed_note job world huncommitted, hcatalog]
          exact (Phase.recorded_iff huncommitted).mp hrecorded
      | @commit decoded resolution id effect catalog hwritten =>
          obtain ⟨hnoted, hkeeps⟩ := hrecorded
          refine ⟨hnoted, job.deposit decoded world.now, rfl, ?_⟩
          rw [Record.ledger_append]
          apply ImportJob.keeps_write hkeeps
          exact hwritten
      | clear receipt =>
          obtain ⟨hnoted, deposit, hdeposit, hkeeps⟩ := hrecorded
          have hrecord : (job.cleared world receipt).2.record deposit = receipt.record deposit := by
            simp only [Receipt.record, ImportJob.receipt_cleared]
          rw [ImportJob.catalog_cleared]
          refine ⟨[deposit], ?_, rfl, ?_⟩
          · simp only [DepositLog.note, hnoted, hdeposit, Option.toList_some]
          · simp only [Conclusion.receipt?, Option.toList_some, List.zipWith_cons_cons,
              List.zipWith_nil_left, hrecord]
            exact hkeeps
      | rest conclusion => exact hrecorded

/-- An import writes what its receipt and its deposit say. -/
theorem recorded_drive (job : ImportJob) (others : Others) (state : World × DepositLog)
    (hkeeps : state.1.catalog.Keeps (Record.ledger earlier)) :
    let ended := importer.drive job (others.logging job) state .starting
    (Phase.finished ended.2).Recorded earlier state.2.committed ended.1.1.catalog ended.1.2 :=
  importer.drive_observed job (others.logging job)
    (fun phase now => phase.Recorded earlier state.2.committed now.1.catalog now.2)
    (fun phase now _ hrecorded => importer.recorded_advance
      (Phase.Recorded.congr hrecorded (others.leave phase now.1).sameTables))
    state .starting ⟨rfl, hkeeps⟩

/-- Replayed tickets write what their receipts and their deposits say, one ticket after the
other. -/
theorem recorded_replayInTurn (handling : Handling) (others : Pathname → Others)
    (tickets : List Ticket) :
    ∀ (earlier : List Record) (state : World × DepositLog),
      state.1.catalog.Keeps (Record.ledger earlier) →
      let logged := importer.replayInTurn handling
        (fun path => (others path).logging ⟨path, handling, .deferred, none, none⟩) tickets state
      ∃ deposits, logged.1.2.committed = state.2.committed ++ deposits ∧
        logged.1.1.catalog.Keeps (Record.ledger (earlier ++ List.zipWith Receipt.record
          (logged.2.flatMap fun entry => entry.conclusion.receipt?.toList) deposits)) := by
  induction tickets with
  | nil =>
      intro earlier state hkeeps
      refine ⟨[], (List.append_nil _).symm, ?_⟩
      rw [List.zipWith_nil_right, List.append_nil]
      exact hkeeps
  | cons ticket tickets ih =>
      intro earlier state hkeeps
      obtain ⟨first, hfirst, hlength, hkept⟩ :=
        importer.recorded_drive (.replay ticket handling none) (others ticket.path) state hkeeps
      obtain ⟨rest, hrest, hlast⟩ := ih _ _ hkept
      refine ⟨first ++ rest, hrest.trans ?_, ?_⟩
      · rw [hfirst, List.append_assoc]
      · rw [List.append_assoc, ← List.zipWith_append hlength.symm] at hlast
        exact hlast

end Importer

/-! ## Calls -/

/-- After a call the catalog keeps what the call writes, on top of what it kept. -/
theorem World.keeps_call {world : World} {earlier : List Record}
    (hkeeps : world.catalog.Keeps (Record.ledger earlier)) (call : Call) :
    (world.call call).1.catalog.Keeps (Record.ledger (earlier ++ world.records call)) := by
  have hnothing : world.catalog.Keeps (Record.ledger (earlier ++ [])) := by
    rwa [List.append_nil]
  cases call with
  | insert draft source =>
      simp only [records, World.call]
      cases hinserted : world.catalog.insert draft source world.now with
      | error error => exact hnothing
      | ok inserted =>
          have hkept := (hkeeps.addIdentity (Catalog.insert_eq_ok hinserted)).2.2.2.2
          simp only [wrote, Answer.identities, List.map_singleton, Record.ledger_append]
          exact hkept
  | attach id source =>
      simp only [records, World.call, Catalog.attach]
      cases hadded : world.catalog.addSource id source none none world.now with
      | error error => exact hnothing
      | ok added =>
          have hkept := (hkeeps.addSource hadded).2.2.2
          simp only [wrote, Except.map, Record.ledger_append]
          exact hkept
  | find importer path careful => exact hnothing
  | addTicket path =>
      simp only [records, World.call]
      cases hadded : world.catalog.addTicket world.files.currentPath path world.now with
      | error error => exact hnothing
      | ok added =>
          obtain ⟨_, tickets, _, _, heq⟩ := Catalog.addTicket_eq_ok hadded
          have hkept : added.2.Keeps (Record.ledger (earlier ++ [])) :=
            hnothing.congr (by rw [heq]) (by rw [heq])
          exact hkept
  | resolve id =>
      simp only [records, World.call]
      cases hresolved : world.catalog.resolve id world.now with
      | error error => exact hnothing
      | ok resolved =>
          obtain ⟨_, _, _, _, heq⟩ :=
            Catalog.markResolved_eq_ok (Catalog.transaction_eq_ok hresolved)
          have hkept : resolved.2.Keeps (Record.ledger (earlier ++ [])) :=
            hnothing.congr (by rw [heq]) (by rw [heq])
          exact hkept
  | run importer job others =>
      obtain ⟨deposits, hdeposits, -, hkept⟩ :=
        importer.recorded_drive job others (world, .blank) hkeeps
      rw [DepositLog.blank, List.nil_append] at hdeposits
      simp only [records, World.call, Importer.runAmong, Answer.receipts, World.deposits,
        importer.drive_logging job others (world, .blank)]
      rw [← hdeposits] at hkept
      exact hkept
  | replayPending importer handling others =>
      simp only [records, World.call, World.deposits, Importer.replayAmong,
        Importer.replayPendingObserved]
      cases hpending : world.catalog.pending with
      | error error => exact hnothing
      | ok tickets =>
          obtain ⟨deposits, hdeposits, hkept⟩ :=
            importer.recorded_replayInTurn handling others tickets earlier (world, .blank) hkeeps
          rw [DepositLog.blank, List.nil_append] at hdeposits
          rw [← hdeposits] at hkept
          simp only [ok_bind, importer.replayInTurn_logging handling others tickets
            (world, .blank)]
          exact hkept

/-! ## Look-ups -/

/-- What a look-up gives that finds a value in the tables: that value, unless look-ups see no
tables at all. -/
def Catalog.shown {α : Type} (catalog : Catalog) (value : α) : Except Error α :=
  if catalog.access = .blind then .error (.store (.noTable "identities")) else .ok value

namespace Catalog

variable {catalog : Catalog} {ledger : List Identity}

theorem mapError_demandVisible {α : Type} (catalog : Catalog) (value : α) :
    (catalog.demandVisible.map fun () => value).mapError .store = catalog.shown value := by
  rw [demandVisible, shown]
  split <;> rfl

theorem map_shown {α β : Type} (catalog : Catalog) (f : α → β) (value : α) :
    (catalog.shown value).map f = catalog.shown (f value) := by
  rw [shown, shown]
  split <;> rfl

theorem Keeps.shown_contents (hkeeps : catalog.Keeps ledger) :
    catalog.contents = catalog.shown (ledger.map Identity.asStored) := by
  rw [hkeeps.contents, mapError_demandVisible]

theorem Keeps.shown_size (hkeeps : catalog.Keeps ledger) :
    catalog.size = catalog.shown (ledger.map Identity.asStored).length := by
  rw [size, mapError_demandVisible, hkeeps.identities, List.length_map, List.length_map]

theorem Keeps.shown_get? (hkeeps : catalog.Keeps ledger) (id : IdentityId) :
    catalog.get? id =
      catalog.shown ((ledger.map Identity.asStored).find? fun entry => entry.id = id) := by
  have hid : (fun identity : Identity => decide (identity.id.value = id.value)) =
      (fun entry => decide (entry.id = id)) ∘ Identity.asStored := by
    funext identity
    exact decide_eq_decide.mpr ⟨congrArg IdentityId.mk, congrArg IdentityId.value⟩
  rw [get?, hkeeps.select, mapError_demandVisible, map_shown, hid, List.find?_map, List.head?_map,
    List.head?_filter]

theorem Keeps.shown_byDigest (hkeeps : catalog.Keeps ledger) (digest : Digest) :
    catalog.byDigest digest =
      catalog.shown ((ledger.map Identity.asStored).find? fun entry => entry.digest = digest) := by
  rw [hkeeps.byDigest, mapError_demandVisible, List.find?_map]
  rfl

theorem Keeps.shown_byBucket (hkeeps : catalog.Keeps ledger) (first last : Nat) :
    catalog.byBucket first last =
      catalog.shown ((ledger.map Identity.asStored).filter fun entry =>
        entry.key.any fun key => first ≤ key.bucket && key.bucket ≤ last) := by
  rw [hkeeps.byBucket, mapError_demandVisible, List.filter_map]
  rfl

/-- In the ledger of a sound catalog no two entries have the same digest. -/
theorem Keeps.nodup_digests (hkeeps : catalog.Keeps ledger) (hsound : catalog.Sound) :
    (ledger.map (·.digest)).Nodup := by
  have hcells := hsound.consistent.digests_distinct
  have hmap : catalog.identities.rows.map (·.2.digest) =
      (ledger.map (·.digest)).map fun digest => Cell.blob digest.bytes := by
    rw [hkeeps.identities, List.map_map, List.map_map]
    rfl
  rw [hmap] at hcells
  exact hcells.of_map

end Catalog

/-! ## Sessions -/

/-- The catalog of a session keeps what the session wrote. -/
theorem Session.keeps_of_recorded {first last : Session} {records : List Record}
    (hfresh : first.Fresh) (hrecorded : Recorded first records last) :
    ∃ catalog, last.Holds catalog ∧ catalog.Keeps (Record.ledger records) := by
  induction hrecorded with
  | start =>
      have hempty : Catalog.empty.Keeps [] := (Catalog.Amounts.of_empty rfl rfl).keeps
      exact ⟨.empty, (Knows.of_fresh hfresh).holds, hempty⟩
  | call before call ih =>
      obtain ⟨catalog, hholds, hkeeps⟩ := ih
      have hsame : Catalog.SameTables _ catalog := hholds
      have hworld := hkeeps.congr (by rw [hsame.identities]) (by rw [hsame.sources])
      exact ⟨_, .refl _, World.keeps_call hworld call⟩
  | other before step ih =>
      obtain ⟨catalog, hholds, hkeeps⟩ := ih
      exact ⟨catalog, hholds.step step, hkeeps⟩

/-- However a session with a new catalog goes on, its look-ups give what it wrote, and they
agree.  The snapshot is the ledger of its records, in the order of their numbers and with
times to the millisecond; the identity with a number or with a digest is the one in the
snapshot, those in a range of buckets are the ones there with a key in it, and the size is
its length.  Only where look-ups go to empty databases of their own do they all fail instead,
and for that reason alone. -/
theorem Session.reads_of_recorded {first last : Session} {records : List Record}
    (hfresh : first.Fresh) (hrecorded : Recorded first records last) :
    let entries := (Record.ledger records).map Identity.asStored
    entries.Pairwise (fun a b => a.id.value < b.id.value) ∧ (entries.map (·.digest)).Nodup ∧
      (∃ catalog, last.Holds catalog) ∧ ∀ catalog, last.Holds catalog →
        catalog.contents = catalog.shown entries ∧
        catalog.size = catalog.shown entries.length ∧
        (∀ id, catalog.get? id = catalog.shown (entries.find? fun entry => entry.id = id)) ∧
        (∀ digest, catalog.byDigest digest =
          catalog.shown (entries.find? fun entry => entry.digest = digest)) ∧
        ∀ least greatest, catalog.byBucket least greatest =
          catalog.shown (entries.filter fun entry => entry.key.any fun key =>
            least ≤ key.bucket && key.bucket ≤ greatest) := by
  intro entries
  obtain ⟨known, hknown, hkeeps⟩ := keeps_of_recorded hfresh hrecorded
  obtain ⟨answers, hrun⟩ := hrecorded.exists_run
  have hsound := sound_of_run hfresh hrun hknown
  refine ⟨List.pairwise_map.mpr hkeeps.ordered, ?_, ⟨known, hknown⟩, fun catalog hholds => ?_⟩
  · rw [List.map_map]
    exact hkeeps.nodup_digests hsound
  · have hsame := hholds.sameTables hknown
    have hkept : catalog.Keeps (Record.ledger records) :=
      hkeeps.congr (by rw [hsame.identities]) (by rw [hsame.sources])
    exact ⟨hkept.shown_contents, hkept.shown_size, hkept.shown_get?, hkept.shown_byDigest,
      hkept.shown_byBucket⟩

/-- A recording of the greatest length that a key can have. -/
def Draft.longest : Draft :=
  { Draft.blank with
    key := some { AcousticKey.silent with
      frames := 4294967295
      frames_pos := Nat.zero_lt_succ 4294967294
      frames_lt := Nat.lt_succ_self 4294967295 } }

/-- A file of the greatest size there is. -/
def Source.largest : Source :=
  { Source.blank with size := 18446744073709551615 }

/-- The longest recording in the largest file is read as it was written. -/
theorem Session.reads_of_longest :
    let next := (World.blank.call (.insert .longest .largest)).1
    let entry := Draft.longest.entry ⟨1⟩ [.largest] 0
    next.catalog.contents = .ok [entry] ∧ next.catalog.get? ⟨1⟩ = .ok (some entry) ∧
      next.catalog.byDigest Draft.blank.digest = .ok (some entry) ∧
      next.catalog.byBucket 134217727 134217727 = .ok [entry] := by
  intro next entry
  have hrecorded : Recorded (opened .exclusive .blank)
      [.identity ⟨1⟩ .longest .largest World.blank.now] (opened .exclusive next) :=
    .call (.start _) (.insert .longest .largest)
  have hfresh : (opened .exclusive .blank).Fresh := .refl _
  obtain ⟨-, -, -, hreads⟩ := reads_of_recorded hfresh hrecorded
  obtain ⟨hcontents, -, hget, hdigest, hbucket⟩ := hreads next.catalog (.refl _)
  exact ⟨hcontents, hget ⟨1⟩, hdigest Draft.blank.digest, hbucket 134217727 134217727⟩

/-- A catalog in memory, opened with connections that only read, is another one for each of them.
An identity that was written to it is then not read, by its number or with all others. -/
theorem Session.unread_in_memory : ∃ catalog identity,
    let world : World := { World.blank with catalog := catalog }
    let next := world.call (.insert .blank .blank)
    World.blank.files.openCatalog ⟨DatabaseName.memoryName⟩ 2 0 =
        (World.blank.files, .ok (.exclusive, catalog)) ∧
      (opened .exclusive world).Fresh ∧ next.2 = .inserted (.ok identity) ∧
      next.1.catalog.identities.rows.map (·.1) = [identity.id.value] ∧
      next.1.catalog.get? identity.id = .error (.store (.noTable "identities")) ∧
      next.1.catalog.contents = .error (.store (.noTable "identities")) :=
  ⟨{ Catalog.empty with access := .blind }, _, rfl, ⟨rfl, rfl, rfl⟩, rfl, rfl, rfl, rfl⟩

end AudioCatalog
