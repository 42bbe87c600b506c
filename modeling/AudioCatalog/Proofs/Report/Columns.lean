import AudioCatalog.Proofs.Report.Csv
import AudioCatalog.Proofs.Report.Wording
import Mathlib.Data.List.Forall2

/-!
# Reports read back

The report of a batch is a table with a heading and a record of seven columns for each ticket.
Whatever the paths, reasons and messages hold, a reader of comma-separated values gets these
records back in the order of the tickets, and finds by their status what the batch lists as
committed, rejected and failed.  What the columns have to hold is said in `BatchEntry.Columns`
letter by letter.
-/

namespace AudioCatalog

/-- What a record says of a ticket and of how its import ended: the ticket, its path, the
status, the stage, the identity, the action and the detail. -/
inductive BatchEntry.Columns : BatchEntry → List String → Prop
  | committed (ticket : Ticket) (receipt : Receipt) {path effect verdict detail : String}
      (hpath : ticket.path.Says path) (heffect : receipt.effect.Says effect)
      (hverdict : receipt.verdict.Says verdict) (hdetail : Remark.Says receipt.remarks detail) :
      Columns ⟨ticket, .ok (.committed receipt)⟩
        ["ticket-" ++ toString ticket.id.value, path, "committed", "committed",
          "#" ++ toString receipt.identity.value, effect ++ " (" ++ verdict ++ ")", detail]
  | rejected (ticket : Ticket) (file : Pathname) (reason : Rejection) {path detail : String}
      (hpath : ticket.path.Says path) (hdetail : reason.Says detail) :
      Columns ⟨ticket, .ok (.rejected file reason)⟩
        ["ticket-" ++ toString ticket.id.value, path, "rejected", "started", "", "", detail]
  | failed (ticket : Ticket) (fault : ImportFault) {path stage detail : String}
      (hpath : ticket.path.Says path) (hstage : fault.stage.Says stage)
      (hdetail : fault.error.Says detail) :
      Columns ⟨ticket, .error fault⟩
        ["ticket-" ++ toString ticket.id.value, path, "failed", stage, "", "", detail]

/-- Whether a record has a status. -/
def hasStatus (status : String) (record : List String) : Bool :=
  record[2]? = some status

namespace BatchEntry

theorem columns_fields (entry : BatchEntry) : entry.Columns entry.fields := by
  obtain ⟨ticket, conclusion⟩ := entry
  have hpath := ticket.path.says_shown
  cases conclusion with
  | error fault =>
      exact .failed ticket fault hpath fault.stage.says_label fault.error.says_message
  | ok outcome =>
      cases outcome with
      | committed receipt =>
          exact .committed ticket receipt hpath receipt.effect.says_label
            receipt.verdict.says_label (Remark.says_remarkText receipt.remarks)
      | rejected file reason => exact .rejected ticket file reason hpath reason.says_message

theorem Columns.length_eq {entry : BatchEntry} {record : List String}
    (hcolumns : entry.Columns record) : record.length = 7 := by
  cases hcolumns <;> rfl

end BatchEntry

namespace Batch

/-- Reading the report gives the heading and the records of the tickets. -/
theorem read_csv (batch : Batch) :
    Csv.read batch.csv = reportHeading :: batch.entries.map BatchEntry.fields := by
  refine Csv.read_table fun record hrecord => ?_
  rcases List.mem_cons.mp hrecord with rfl | hrecord
  · decide
  · obtain ⟨entry, -, rfl⟩ := List.mem_map.mp hrecord
    rw [entry.columns_fields.length_eq]
    decide

theorem columns_records (batch : Batch) :
    List.Forall₂ BatchEntry.Columns batch.entries (batch.entries.map BatchEntry.fields) := by
  rw [List.forall₂_map_right_iff, List.forall₂_same]
  exact fun entry _ => entry.columns_fields

section Statuses

variable {entries : List BatchEntry} {records : List (List String)} {α : Type}
  {pick : BatchEntry → Option α} {Shows : α → List String → Prop} {status : String}

/-- The records with a status are those of the tickets that are picked, if this is so for each
ticket. -/
theorem shows_filter (hrecords : List.Forall₂ BatchEntry.Columns entries records)
    (heach : ∀ entry record, entry.Columns record →
      Option.Rel Shows (pick entry) (Option.guard (hasStatus status) record)) :
    List.Forall₂ Shows (entries.filterMap pick) (records.filter (hasStatus status)) := by
  rw [← List.filterMap_eq_filter]
  exact List.rel_filterMap heach hrecords

end Statuses

variable {batch : Batch} {records : List (List String)}

theorem committed_records (hrecords : List.Forall₂ BatchEntry.Columns batch.entries records) :
    List.Forall₂
      (fun committed record =>
        BatchEntry.Columns ⟨committed.1, .ok (.committed committed.2)⟩ record)
      batch.committed (records.filter (hasStatus "committed")) := by
  refine shows_filter hrecords fun entry record hcolumns => ?_
  cases hcolumns with
  | committed ticket receipt hpath heffect hverdict hdetail =>
      exact .some (.committed ticket receipt hpath heffect hverdict hdetail)
  | rejected => exact .none
  | failed => exact .none

theorem rejected_records (hrecords : List.Forall₂ BatchEntry.Columns batch.entries records) :
    List.Forall₂
      (fun ticket record =>
        ∃ path reason, BatchEntry.Columns ⟨ticket, .ok (.rejected path reason)⟩ record)
      batch.rejected (records.filter (hasStatus "rejected")) := by
  refine shows_filter hrecords fun entry record hcolumns => ?_
  cases hcolumns with
  | committed => exact .none
  | rejected ticket file reason hpath hdetail =>
      exact .some ⟨file, reason, .rejected ticket file reason hpath hdetail⟩
  | failed => exact .none

theorem failed_records (hrecords : List.Forall₂ BatchEntry.Columns batch.entries records) :
    List.Forall₂ (fun failed record => BatchEntry.Columns ⟨failed.1, .error failed.2⟩ record)
      batch.failed (records.filter (hasStatus "failed")) := by
  refine shows_filter hrecords fun entry record hcolumns => ?_
  cases hcolumns with
  | committed => exact .none
  | rejected => exact .none
  | failed ticket fault hpath hstage hdetail =>
      exact .some (.failed ticket fault hpath hstage hdetail)

/-- Each ticket is committed, rejected or failed. -/
theorem size_eq (batch : Batch) :
    batch.committed.length + batch.rejected.length + batch.failed.length = batch.size := by
  rw [committed, rejected, failed, size]
  induction batch.entries with
  | nil => rfl
  | cons entry entries ih =>
      obtain ⟨ticket, conclusion⟩ := entry
      rcases conclusion with fault | ⟨receipt⟩ | ⟨path, reason⟩ <;>
        simp only [List.filterMap_cons, List.length_cons] <;> omega

theorem demandComplete_eq_error_iff (batch : Batch) :
    (∃ error, batch.demandComplete = .error error) ↔ 0 < batch.failed.length := by
  rw [demandComplete, failedCount]
  split
  case isTrue hfailed => exact ⟨fun _ => hfailed, fun _ => ⟨_, rfl⟩⟩
  case isFalse hnone =>
    exact ⟨fun ⟨_, herror⟩ => (nomatch herror), fun hfailed => absurd hfailed hnone⟩

/-- Reading the report of a batch gives the heading and one record of seven columns for each
ticket, in their order, with what the columns hold unchanged; a path that is text is shown as
it.  The records with a status are those of the tickets that the batch lists with it, each
ticket has one status, and the batch is incomplete if and only if a record says that its ticket
failed. -/
theorem report_reads_back (batch : Batch) :
    ∃ records, Csv.read batch.csv =
        ["Ticket", "Path", "Status", "Stage", "Identity", "Action", "Detail"] :: records ∧
      List.Forall₂ BatchEntry.Columns batch.entries records ∧
      (∀ record ∈ records, record.length = 7) ∧
      (∀ entry ∈ batch.entries, ∀ text, entry.ticket.path.text? = some text →
        entry.ticket.path.shown = text) ∧
      List.Forall₂
        (fun committed record =>
          BatchEntry.Columns ⟨committed.1, .ok (.committed committed.2)⟩ record)
        batch.committed (records.filter (hasStatus "committed")) ∧
      List.Forall₂
        (fun ticket record =>
          ∃ path reason, BatchEntry.Columns ⟨ticket, .ok (.rejected path reason)⟩ record)
        batch.rejected (records.filter (hasStatus "rejected")) ∧
      List.Forall₂ (fun failed record => BatchEntry.Columns ⟨failed.1, .error failed.2⟩ record)
        batch.failed (records.filter (hasStatus "failed")) ∧
      batch.committed.length + batch.rejected.length + batch.failed.length = batch.size ∧
      ((∃ error, batch.demandComplete = .error error) ↔
        ∃ record ∈ records, hasStatus "failed" record) := by
  have hrecords := batch.columns_records
  refine ⟨_, batch.read_csv, hrecords, fun record hrecord => ?_,
    fun entry _ text htext => Pathname.shown_of_text? htext, committed_records hrecords,
    rejected_records hrecords, failed_records hrecords, batch.size_eq, ?_⟩
  · obtain ⟨entry, -, rfl⟩ := List.mem_map.mp hrecord
    exact entry.columns_fields.length_eq
  · rw [demandComplete_eq_error_iff, (failed_records hrecords).length_eq,
      List.length_pos_iff_exists_mem]
    simp only [List.mem_filter]

end Batch

end AudioCatalog
