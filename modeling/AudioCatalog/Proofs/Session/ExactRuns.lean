import AudioCatalog.Proofs.Import.Deposits
import AudioCatalog.Proofs.Session.Consistency

/-!
# Sessions that go by the digest

In an exact session nothing but imports writes to the catalog, and they compare digests
only.  A log that is kept beside each import notes what it deposits, and the catalog always
holds what all the deposits so far amount to: rejected, failed and cancelled imports leave no
trace in it, whoever acts between the steps of an import and whatever happens to its file.
-/

namespace AudioCatalog

open Deposit (ledgerOf entryOf?)

/-! ## Noting deposits -/

/-- What an import deposits if its commit succeeds, and what was deposited so far. -/
structure DepositLog where
  claimed : Option Deposit
  committed : List Deposit

namespace DepositLog

/-- A log in which nothing is noted yet. -/
def blank : DepositLog :=
  ⟨none, []⟩

/-- Notes what happens as an import enters a phase.  The source is noted as of the time of
the commit. -/
def note (log : DepositLog) (job : ImportJob) (world : World) : Phase → DepositLog
  | .claimed decoded _ => { log with claimed := some (job.deposit decoded world.now) }
  | .committed _ => { log with committed := log.committed ++ log.claimed.toList }
  | .starting | .admitted _ | .fingerprinted _ | .resolved .. | .rolledBack _ | .finished _ => log

end DepositLog

/-- Lets others act, and keeps a log. -/
def Others.logging (others : Others) (job : ImportJob) (phase : Phase)
    (state : World × DepositLog) : World × DepositLog :=
  let world := others.act phase state.1
  (world, state.2.note job world phase)

/-- What a call deposits.  A log for replayed tickets needs to know their files only. -/
def World.deposits (world : World) : Call → List Deposit
  | .run importer job others =>
    (importer.drive job (others.logging job) (world, .blank) .starting).1.2.committed
  | .replayPending importer handling others =>
    let logging (path : Pathname) := (others path).logging ⟨path, handling, .deferred, none, none⟩
    match importer.replayPendingObserved handling logging (world, .blank) with
    | .ok (state, _) => state.2.committed
    | .error _ => []
  | .insert .. | .attach .. | .find .. | .addTicket _ | .resolve _ => []

/-- Whether a call writes to the catalog by imports alone, and they compare digests only. -/
def Call.Exact : Call → Prop
  | run _ job _ => job.handling.careful = false
  | replayPending _ handling _ => handling.careful = false
  | find .. | addTicket _ | resolve _ => True
  | insert .. | attach .. => False

/-- Any number of steps of a session in which all calls are exact, with what they deposit. -/
inductive Session.ExactRun : Session → List Deposit → Session → Prop
  | start (session : Session) : ExactRun session [] session
  | call {first : Session} {storage : Storage} {world : World} {deposits : List Deposit}
      (before : ExactRun first deposits (opened storage world)) (call : Call) (exact : call.Exact) :
      ExactRun first (deposits ++ world.deposits call) (opened storage (world.call call).1)
  | other {first second third : Session} {deposits : List Deposit}
      (before : ExactRun first deposits second) (step : Step second none third) :
      ExactRun first deposits third

/-! ## Logs of imports -/

/-- Whether the catalog holds earlier deposits and those that the log tells of, and a
resolution fits them, as an import enters a phase. -/
def Phase.Logged (earlier : List Deposit) (catalog : Catalog) (log : DepositLog) : Phase → Prop
  | .resolved decoded resolution | .claimed decoded resolution =>
    catalog.Amounts (earlier ++ log.committed) ∧
      resolution.verdict.matched =
        (entryOf? (earlier ++ log.committed) decoded.digest).map (·.id)
  | .committed _ => catalog.Amounts (earlier ++ (log.committed ++ log.claimed.toList))
  | .starting | .admitted _ | .fingerprinted _ | .rolledBack _ | .finished _ =>
    catalog.Amounts (earlier ++ log.committed)

theorem Phase.Logged.congr {earlier : List Deposit} {catalog next : Catalog} {log : DepositLog}
    {phase : Phase} (hlogged : phase.Logged earlier catalog log)
    (hsame : next.SameTables catalog) : phase.Logged earlier next log := by
  cases phase with
  | starting | admitted _ | fingerprinted _ | rolledBack _ | committed _ | finished _ =>
      exact Catalog.Amounts.congr hlogged hsame.identities hsame.sources
  | resolved decoded resolution | claimed decoded resolution =>
      exact ⟨hlogged.1.congr hsame.identities hsame.sources, hlogged.2⟩

namespace Importer

variable (importer : Importer) {earlier : List Deposit}

/-- A step of an import keeps the log true. -/
theorem logged_advance {job : ImportJob} (hexact : job.handling.careful = false) {world : World}
    {log : DepositLog} {phase : Phase} (hlogged : phase.Logged earlier world.catalog log) :
    (importer.advance job world phase).2.Logged earlier
      (importer.advance job world phase).1.catalog (log.note job world phase) := by
  cases phase with
  | starting =>
      simp only [advance, ImportJob.start]
      split <;> exact hlogged
  | admitted facts =>
      simp only [advance, examine]
      split
      · exact hlogged
      · split <;> exact hlogged
  | fingerprinted decoded =>
      have hamounts : world.catalog.Amounts (earlier ++ log.committed) := hlogged
      simp only [advance, ImportJob.compare, hexact, hamounts.identify]
      split
      · exact hamounts
      · by_cases hblind : world.catalog.access = .blind
        · rw [if_pos hblind]
          exact hamounts
        · rw [if_neg hblind]
          refine ⟨hamounts, ?_⟩
          cases hentry : entryOf? (earlier ++ log.committed) decoded.digest with
          | none => simp [DepositLog.note, hentry, Verdict.matched]
          | some identity => simp [DepositLog.note, hentry, Verdict.matched]
  | resolved decoded resolution =>
      simp only [advance, ImportJob.claim_eq]
      split
      · rename_i claimed hclaimed
        rw [(job.claimed?_eq_some hclaimed).1]
        exact hlogged
      · exact hlogged.1
  | claimed decoded resolution =>
      simp only [advance, ImportJob.commit]
      split
      · exact hlogged.1
      · rename_i id effect catalog hwritten
        have hamounts := hlogged.1.write hlogged.2 hwritten
        rw [List.append_assoc] at hamounts
        exact hamounts
  | rolledBack error =>
      simp only [advance, ImportJob.release]
      split <;> exact hlogged
  | committed receipt =>
      simp only [advance, ImportJob.clear_eq, ImportJob.catalog_cleared]
      exact hlogged
  | finished conclusion => exact hlogged

/-- What an import deposits comes on top of what the catalog held. -/
theorem amounts_drive {job : ImportJob} (hexact : job.handling.careful = false) (others : Others)
    (state : World × DepositLog)
    (hamounts : state.1.catalog.Amounts (earlier ++ state.2.committed)) :
    let ended := importer.drive job (others.logging job) state .starting
    ended.1.1.catalog.Amounts (earlier ++ ended.1.2.committed) :=
  importer.drive_observed job (others.logging job)
    (fun phase state => phase.Logged earlier state.1.catalog state.2)
    (fun phase state _ hlogged => importer.logged_advance hexact
      (Phase.Logged.congr hlogged (others.leave phase state.1).sameTables))
    state .starting hamounts

/-- The log has no influence on the import. -/
theorem drive_logging (job : ImportJob) (others : Others) (state : World × DepositLog) :
    importer.drive job (fun phase state => (others.act phase state.1, ())) (state.1, ())
        .starting =
      (((importer.drive job (others.logging job) state .starting).1.1, ()),
        (importer.drive job (others.logging job) state .starting).2) :=
  importer.drive_forget job (fun _ _ => rfl) state .starting

theorem replayInTurn_logging (handling : Handling) (others : Pathname → Others)
    (tickets : List Ticket) :
    ∀ state : World × DepositLog,
      let logged := importer.replayInTurn handling
        (fun path => (others path).logging ⟨path, handling, .deferred, none, none⟩) tickets state
      importer.replayInTurn handling
        (fun path phase state => ((others path).act phase state.1, ())) tickets (state.1, ()) =
          ((logged.1.1, ()), logged.2) := by
  induction tickets with
  | nil =>
      intro state
      rfl
  | cons ticket tickets ih =>
      intro state
      simp only [replayInTurn]
      rw [importer.drive_logging (.replay ticket handling none) (others ticket.path) state, ih]
      rfl

theorem amounts_replayInTurn {handling : Handling} (hexact : handling.careful = false)
    (others : Pathname → Others) (tickets : List Ticket) :
    ∀ state : World × DepositLog, state.1.catalog.Amounts (earlier ++ state.2.committed) →
      let logged := importer.replayInTurn handling
        (fun path => (others path).logging ⟨path, handling, .deferred, none, none⟩) tickets state
      logged.1.1.catalog.Amounts (earlier ++ logged.1.2.committed) := by
  induction tickets with
  | nil =>
      intro state hamounts
      exact hamounts
  | cons ticket tickets ih =>
      intro state hamounts
      have hreplay : (ImportJob.replay ticket handling none).handling.careful = false := hexact
      exact ih _ (importer.amounts_drive hreplay (others ticket.path) state hamounts)

end Importer

/-! ## Logs and receipts -/

/-- The receipts of the imports that a call committed, in their order. -/
def Answer.receipts : Answer → List Receipt
  | ran conclusion => conclusion.receipt?.toList
  | replayed (.ok batch) => batch.entries.flatMap fun entry => entry.conclusion.receipt?.toList
  | _ => []

/-- What a deposit and the receipt of its import have in common. -/
def Deposit.label (deposit : Deposit) : Pathname × Digest :=
  (deposit.source.path, deposit.draft.digest)

/-- The same of a receipt. -/
def Receipt.label (receipt : Receipt) : Pathname × Digest :=
  (receipt.path, receipt.digest)

/-- Whether a log tells of the commit of an import exactly if the import is committed, and
else of earlier deposits only. -/
def Phase.Noted (earlier : List Deposit) (log : DepositLog) : Phase → Prop
  | .committed receipt =>
    log.committed = earlier ∧ log.claimed.map Deposit.label = some receipt.label
  | .finished conclusion =>
    log.committed.map Deposit.label =
      earlier.map Deposit.label ++ conclusion.receipt?.toList.map Receipt.label
  | .starting | .admitted _ | .fingerprinted _ | .resolved .. | .claimed .. | .rolledBack _ =>
    log.committed = earlier

theorem ImportJob.label_cleared (job : ImportJob) (world : World) (receipt : Receipt) :
    (job.cleared world receipt).2.label = receipt.label := by
  rw [cleared]
  split
  · rfl
  · split <;> rfl

namespace Importer

variable (importer : Importer) {earlier : List Deposit}

theorem noted_advance {job : ImportJob} {world : World} {log : DepositLog} {phase : Phase}
    (hnoted : phase.Noted earlier log) :
    (importer.advance job world phase).2.Noted earlier (log.note job world phase) := by
  have hfailed : log.committed = earlier → ∀ stage error,
      (job.failed stage error).Noted earlier log := by
    rintro rfl stage error
    exact (List.append_nil _).symm
  cases phase with
  | starting =>
      simp only [advance, ImportJob.start]
      split
      · exact hfailed hnoted _ _
      · exact (congrArg (List.map Deposit.label) hnoted).trans (List.append_nil _).symm
      · exact hnoted
  | admitted facts =>
      simp only [advance, examine]
      split
      · exact hfailed hnoted _ _
      · split
        · exact hfailed hnoted _ _
        · exact hnoted
  | fingerprinted decoded =>
      simp only [advance, ImportJob.compare]
      split
      · exact hfailed hnoted _ _
      · split
        · exact hfailed hnoted _ _
        · exact hnoted
  | resolved decoded resolution =>
      simp only [advance, ImportJob.claim_eq]
      split
      · exact hnoted
      · exact hfailed hnoted _ _
  | claimed decoded resolution =>
      simp only [advance, ImportJob.commit]
      split
      · exact hnoted
      · exact ⟨hnoted, rfl⟩
  | rolledBack error => exact hfailed hnoted _ _
  | committed receipt =>
      obtain ⟨hcommitted, hclaimed⟩ := hnoted
      obtain ⟨deposit, hdeposit, hlabel⟩ := Option.map_eq_some_iff.mp hclaimed
      simp only [advance, ImportJob.clear_eq, DepositLog.note, Phase.Noted, hcommitted, hdeposit,
        Option.toList_some, List.map_append, List.map_singleton, hlabel, Conclusion.receipt?,
        ImportJob.label_cleared]
  | finished conclusion => exact hnoted

theorem label_drive (job : ImportJob) (others : Others) (state : World × DepositLog) :
    let ended := importer.drive job (others.logging job) state .starting
    ended.1.2.committed.map Deposit.label =
      state.2.committed.map Deposit.label ++ ended.2.receipt?.toList.map Receipt.label :=
  importer.drive_observed job (others.logging job)
    (fun phase now => phase.Noted state.2.committed now.2)
    (fun _ _ _ hnoted => importer.noted_advance hnoted) state .starting rfl

theorem label_replayInTurn (handling : Handling) (others : Pathname → Others)
    (tickets : List Ticket) :
    ∀ state : World × DepositLog,
      let logged := importer.replayInTurn handling
        (fun path => (others path).logging ⟨path, handling, .deferred, none, none⟩) tickets state
      logged.1.2.committed.map Deposit.label = state.2.committed.map Deposit.label ++
        (logged.2.flatMap fun entry => entry.conclusion.receipt?.toList).map Receipt.label := by
  induction tickets with
  | nil =>
      intro state
      exact (List.append_nil _).symm
  | cons ticket tickets ih =>
      intro state
      have hfirst := importer.label_drive (.replay ticket handling none) (others ticket.path) state
      refine (ih _).trans ((congrArg (· ++ _) hfirst).trans ?_)
      rw [List.append_assoc, ← List.map_append]
      rfl

end Importer

/-- A call deposits once for each import that it commits. -/
theorem World.label_deposits (world : World) (call : Call) :
    (world.deposits call).map Deposit.label = (world.call call).2.receipts.map Receipt.label := by
  cases call with
  | insert draft source =>
      rw [World.call]
      cases world.catalog.insert draft source world.now <;> rfl
  | attach id source =>
      rw [World.call]
      cases world.catalog.attach id source world.now <;> rfl
  | find importer path careful => rfl
  | addTicket path =>
      rw [World.call]
      cases world.catalog.addTicket world.files.currentPath path world.now <;> rfl
  | resolve id =>
      rw [World.call]
      cases world.catalog.resolve id world.now <;> rfl
  | run importer job others =>
      rw [World.call, Importer.runAmong, importer.drive_logging job others (world, .blank)]
      exact importer.label_drive job others (world, .blank)
  | replayPending importer handling others =>
      rw [World.call, deposits, Importer.replayAmong]
      simp only [Importer.replayPendingObserved]
      cases world.catalog.pending with
      | error error => rfl
      | ok tickets =>
          rw [ok_bind, ok_bind,
            importer.replayInTurn_logging handling others tickets (world, .blank)]
          exact importer.label_replayInTurn handling others tickets (world, .blank)

/-! ## Exact sessions -/

/-- What an exact call deposits comes on top of what the catalog held. -/
theorem World.amounts_call {world : World} {earlier : List Deposit}
    (hamounts : world.catalog.Amounts earlier) {call : Call} (hexact : call.Exact) :
    (world.call call).1.catalog.Amounts (earlier ++ world.deposits call) := by
  have hstart : world.catalog.Amounts (earlier ++ DepositLog.blank.committed) := by
    rwa [DepositLog.blank, List.append_nil]
  cases call with
  | insert draft source => cases hexact
  | attach id source => cases hexact
  | run importer job others =>
      rw [World.call, Importer.runAmong,
        importer.drive_logging job others (world, .blank)]
      exact importer.amounts_drive hexact others (world, .blank) hstart
  | find importer path careful =>
      rw [deposits, List.append_nil]
      exact hamounts
  | addTicket path =>
      rw [deposits, List.append_nil, World.call]
      cases hadded : world.catalog.addTicket world.files.currentPath path world.now with
      | error error => exact hamounts
      | ok added =>
          obtain ⟨_, _, _, _, heq⟩ := Catalog.addTicket_eq_ok hadded
          have hnext : added.2.Amounts earlier :=
            hamounts.congr (by rw [heq]) (by rw [heq])
          exact hnext
  | resolve id =>
      rw [deposits, List.append_nil, World.call]
      cases hresolved : world.catalog.resolve id world.now with
      | error error => exact hamounts
      | ok resolved =>
          obtain ⟨_, _, _, _, heq⟩ :=
            Catalog.markResolved_eq_ok (Catalog.transaction_eq_ok hresolved)
          have hnext : resolved.2.Amounts earlier :=
            hamounts.congr (by rw [heq]) (by rw [heq])
          exact hnext
  | replayPending importer handling others =>
      rw [World.call, deposits, Importer.replayAmong]
      simp only [Importer.replayPendingObserved]
      cases world.catalog.pending with
      | error error =>
          rw [error_bind, error_bind, List.append_nil]
          exact hamounts
      | ok tickets =>
          rw [ok_bind, ok_bind,
            importer.replayInTurn_logging handling others tickets (world, .blank)]
          exact importer.amounts_replayInTurn hexact others tickets (world, .blank) hstart

/-- The catalog of an exact session holds what the session deposited. -/
theorem Session.amounts_of_exactRun {first last : Session} {deposits : List Deposit}
    (hfresh : first.Fresh) (hrun : ExactRun first deposits last) :
    ∃ catalog, last.Holds catalog ∧ catalog.Amounts deposits := by
  induction hrun with
  | start =>
      exact ⟨.empty, (Knows.of_fresh hfresh).holds, Catalog.Amounts.of_empty rfl rfl⟩
  | call before call exact ih =>
      obtain ⟨catalog, hholds, hamounts⟩ := ih
      have hsame : Catalog.SameTables _ catalog := hholds
      have hworld := hamounts.congr hsame.identities hsame.sources
      exact ⟨_, Catalog.SameTables.refl _, World.amounts_call hworld exact⟩
  | other before step ih =>
      obtain ⟨catalog, hholds, hamounts⟩ := ih
      exact ⟨catalog, Holds.step hholds step, hamounts⟩

/-- The snapshot of an exact session is determined by what the session deposited. -/
theorem Session.contents_of_exactRun {first last : Session} {deposits : List Deposit}
    (hfresh : first.Fresh) (hrun : ExactRun first deposits last) {catalog : Catalog}
    (hholds : last.Holds catalog) :
    catalog.contents = if catalog.access = .blind then .error (.store (.noTable "identities"))
      else .ok ((ledgerOf deposits).map Identity.asStored) := by
  obtain ⟨known, hknown, hamounts⟩ := amounts_of_exactRun hfresh hrun
  have hsame := Holds.sameTables hholds hknown
  exact (hamounts.congr hsame.identities hsame.sources).contents

end AudioCatalog
