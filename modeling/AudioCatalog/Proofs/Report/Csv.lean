import AudioCatalog.Report.Csv

/-!
# Comma-separated values read back

`Csv.read` reads comma-separated values in one pass, as it is usually done: fields are
separated by commas, and a quote in front of a field opens a quoted one, in which a quote is
written twice and commas and line ends stand for themselves.  A record ends with a line feed, a
carriage return or both, and empty lines are skipped.  So a record with a single empty field
would be lost, but a table whose records have more fields is read back as it was.
-/

namespace AudioCatalog.Csv

/-! ## Reading -/

/-- Where in a table a reader stands. -/
inductive Place where
  /-- In front of a record. -/
  | record
  /-- Behind a comma, in front of a field. -/
  | field
  /-- In a field that is not quoted, or behind the quote that closes one. -/
  | bare
  /-- Between the quotes of a field. -/
  | quoted
  /-- Behind a quote in a quoted field, which closes the field if no other quote follows. -/
  | closing

/-- What a reader knows of the text that it has read: the records, the fields of the record that
it is in, and the characters of the field that it is in. -/
structure Reader where
  place : Place
  held : List Char
  done : List String
  records : List (List String)

/-- Whether a character ends a record. -/
def endsLine (c : Char) : Bool :=
  c = '\r' || c = '\n'

namespace Reader

/-- A reader in front of a record. -/
def before (records : List (List String)) : Reader :=
  ⟨.record, [], [], records⟩

/-- The reader behind the comma that ends a field. -/
def endField (reader : Reader) : Reader :=
  ⟨.field, [], reader.done ++ [String.ofList reader.held], reader.records⟩

/-- The reader behind the end of a record. -/
def endRecord (reader : Reader) : Reader :=
  before (reader.records ++ [reader.done ++ [String.ofList reader.held]])

/-- What becomes of a reader with a character outside of quotes. -/
def bare (reader : Reader) (c : Char) : Reader :=
  if c = ',' then reader.endField
  else if endsLine c then reader.endRecord
  else { reader with place := .bare, held := reader.held ++ [c] }

/-- What becomes of a reader with the next character. -/
def step (reader : Reader) (c : Char) : Reader :=
  match reader.place with
  | .record =>
    if endsLine c then reader
    else if c = '"' then { reader with place := .quoted }
    else reader.bare c
  | .field => if c = '"' then { reader with place := .quoted } else reader.bare c
  | .bare => reader.bare c
  | .quoted =>
    if c = '"' then { reader with place := .closing }
    else { reader with held := reader.held ++ [c] }
  | .closing =>
    if c = '"' then { reader with place := .quoted, held := reader.held ++ [c] }
    else reader.bare c

/-- What becomes of a reader with some text. -/
def run (reader : Reader) (text : List Char) : Reader :=
  text.foldl step reader

/-- The records at the end of the text, where the last one needs no line end. -/
def finish (reader : Reader) : List (List String) :=
  match reader.place with
  | .record => reader.records
  | _ => reader.endRecord.records

end Reader

/-- The records of a text. -/
def read (text : String) : List (List String) :=
  ((Reader.before []).run text.toList).finish

/-! ## One field -/

namespace Reader

variable {held : List Char} {done : List String} {records : List (List String)}

theorem run_append (reader : Reader) (first second : List Char) :
    reader.run (first ++ second) = (reader.run first).run second :=
  List.foldl_append

theorem bare_of_not_needsQuotes {c : Char} (hplain : needsQuotes c = false) (reader : Reader) :
    reader.bare c = { reader with place := .bare, held := reader.held ++ [c] } := by
  simp only [needsQuotes, Bool.or_eq_false_iff, decide_eq_false_iff_not] at hplain
  simp [bare, endsLine, hplain]

theorem run_bare {chars : List Char} (hplain : chars.any needsQuotes = false) :
    run ⟨.bare, held, done, records⟩ chars = ⟨.bare, held ++ chars, done, records⟩ := by
  induction chars generalizing held with
  | nil =>
      rw [List.append_nil]
      rfl
  | cons c chars ih =>
      rw [List.any_cons, Bool.or_eq_false_iff] at hplain
      show run (bare _ c) chars = _
      rw [bare_of_not_needsQuotes hplain.1, ih hplain.2, List.append_assoc]
      rfl

/-- Between quotes, what is read is the field with every quote doubled. -/
theorem run_doubled (chars : List Char) :
    run ⟨.quoted, held, done, records⟩ (doubled chars) =
      ⟨.quoted, held ++ chars, done, records⟩ := by
  induction chars generalizing held with
  | nil =>
      rw [List.append_nil]
      rfl
  | cons c chars ih =>
      rw [List.append_cons, ← ih, doubled]
      split
      case isTrue hquote =>
        rw [hquote]
        rfl
      case isFalse hquote =>
        show run (if c = '"' then _ else _) (doubled chars) = _
        rw [if_neg hquote]

/-- A reader in front of a field holds the field once it has read what is written for it.  It is
still where it was if the field is empty. -/
theorem run_field {place : Place} (hplace : place = .record ∨ place = .field) (done : List String)
    (records : List (List String)) (chars : List Char) :
    ∃ behind, behind ≠ .quoted ∧ (behind = .record → place = .record) ∧
      run ⟨place, [], done, records⟩ (field chars) = ⟨behind, chars, done, records⟩ := by
  rw [field]
  split
  case isTrue =>
    have hopen : step ⟨place, [], done, records⟩ '"' = ⟨.quoted, [], done, records⟩ := by
      rcases hplace with rfl | rfl <;> rfl
    refine ⟨.closing, nofun, nofun, ?_⟩
    show run (step _ '"') (doubled chars ++ ['"']) = _
    rw [hopen, run_append, run_doubled]
    rfl
  case isFalse hplain =>
    rw [Bool.not_eq_true] at hplain
    cases chars with
    | nil => exact ⟨place, by rcases hplace with rfl | rfl <;> nofun, id, rfl⟩
    | cons c chars =>
        have hparts := hplain
        rw [List.any_cons, Bool.or_eq_false_iff] at hparts
        have hfirst : step ⟨place, [], done, records⟩ c = bare ⟨place, [], done, records⟩ c := by
          obtain ⟨hc, -⟩ := hparts
          simp only [needsQuotes, Bool.or_eq_false_iff, decide_eq_false_iff_not] at hc
          rcases hplace with rfl | rfl <;> simp [step, endsLine, hc]
        refine ⟨.bare, nofun, nofun, ?_⟩
        show run (step _ c) chars = _
        rw [hfirst, bare_of_not_needsQuotes hparts.1, run_bare hparts.2]
        rfl

/-! ## Records -/

theorem step_comma {reader : Reader} (hplace : reader.place ≠ .quoted) :
    reader.step ',' = reader.endField := by
  obtain ⟨place, held, done, records⟩ := reader
  cases place with
  | quoted => exact absurd rfl hplace
  | record | field | bare | closing => rfl

theorem step_lineFeed {reader : Reader} (hquoted : reader.place ≠ .quoted)
    (hrecord : reader.place ≠ .record) : reader.step '\n' = reader.endRecord := by
  obtain ⟨place, held, done, records⟩ := reader
  cases place with
  | quoted => exact absurd rfl hquoted
  | record => exact absurd rfl hrecord
  | field | bare | closing => rfl

/-- A reader behind a comma reads the rest of a record. -/
theorem run_fields {texts : List String} (htexts : texts ≠ []) :
    run ⟨.field, [], done, records⟩ (record texts) = before (records ++ [done ++ texts]) := by
  induction texts generalizing done with
  | nil => exact absurd rfl htexts
  | cons text texts ih =>
      obtain ⟨behind, hquoted, hrecord, hfield⟩ :=
        run_field (.inr rfl) done records text.toList
      cases texts with
      | nil =>
          show run _ (Csv.field text.toList ++ ['\n']) = _
          rw [run_append, hfield]
          show step _ '\n' = _
          rw [step_lineFeed hquoted (fun h => nomatch hrecord h), endRecord, String.ofList_toList]
      | cons next texts =>
          have hwritten : record (text :: next :: texts) =
              Csv.field text.toList ++ (',' :: record (next :: texts)) := by
            simp [record, fields]
          rw [hwritten, run_append, hfield]
          show run (step _ ',') _ = _
          rw [step_comma hquoted, endField, ih (List.cons_ne_nil _ _), String.ofList_toList,
            List.append_assoc]
          rfl

/-- A reader in front of a record of two fields or more reads it. -/
theorem run_record {texts : List String} (htexts : 2 ≤ texts.length) :
    (before records).run (record texts) = before (records ++ [texts]) := by
  match texts, htexts with
  | first :: second :: texts, _ =>
      obtain ⟨behind, hquoted, -, hfield⟩ :=
        run_field (.inl rfl) [] records first.toList
      have hwritten : record (first :: second :: texts) =
          Csv.field first.toList ++ (',' :: record (second :: texts)) := by
        simp [record, fields]
      rw [hwritten, run_append, before, hfield]
      show run (step _ ',') _ = _
      rw [step_comma hquoted, endField, run_fields (List.cons_ne_nil _ _), String.ofList_toList]
      rfl

theorem run_table {table : List (List String)} (htable : ∀ texts ∈ table, 2 ≤ texts.length) :
    (before records).run (table.flatMap record) = before (records ++ table) := by
  induction table generalizing records with
  | nil =>
      rw [List.append_nil]
      rfl
  | cons texts table ih =>
      rw [List.forall_mem_cons] at htable
      rw [List.flatMap_cons, run_append, run_record htable.1, ih htable.2, List.append_assoc]
      rfl

end Reader

/-- A table whose records have two fields or more is read back as it was, whatever the fields
hold. -/
theorem read_table {records : List (List String)}
    (hrecords : ∀ texts ∈ records, 2 ≤ texts.length) : read (table records) = records := by
  rw [read, table, String.toList_ofList, Reader.run_table hrecords]
  rfl

end AudioCatalog.Csv
