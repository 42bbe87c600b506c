import AudioCatalog.Proofs.Metadata.TimeBases
import AudioCatalog.Proofs.Session.Records

/-!
# Where metadata comes from

Whichever look-up gives an identity, its metadata is read of the text in a row of the catalog,
and in a session with a new catalog it is what some record handed over.  Nothing on the way looks
at the denominators of time bases, so that the one of zero comes back as well.
-/

namespace AudioCatalog

/-! ## Rows -/

/-- The metadata of an identity that is read of a row is read of the text in that row. -/
theorem IdentityRow.exists_text_of_read {id : Int} {row : IdentityRow} {identity : Identity}
    (h : row.read id = .ok identity) : identity.id = ⟨id⟩ ∧
      ∃ text, row.metadata = .text text ∧ Metadata.parse? text = some identity.metadata := by
  rw [read] at h
  obtain ⟨bytes, -, h⟩ := bind_eq_ok_iff.mp h
  split at h
  · cases h
  · obtain ⟨key, -, h⟩ := bind_eq_ok_iff.mp h
    obtain ⟨text, htext, h⟩ := bind_eq_ok_iff.mp h
    split at h
    · cases h
    · rename_i metadata hmetadata
      obtain ⟨created, -, h⟩ := bind_eq_ok_iff.mp h
      cases h
      refine ⟨rfl, text, ?_, hmetadata⟩
      cases hcell : row.metadata with
      | text value =>
          rw [hcell] at htext
          cases htext
          rfl
      | _ =>
          rw [hcell] at htext
          cases htext

namespace Catalog

variable {catalog : Catalog} {identity : Identity}

/-- Whether some look-up in a catalog gives an identity. -/
inductive Gives (catalog : Catalog) (identity : Identity) : Prop
  | contents {all : List Identity} (hread : catalog.contents = .ok all) (hmem : identity ∈ all)
  | get {id : IdentityId} (hread : catalog.get? id = .ok (some identity))
  | byDigest {digest : Digest} (hread : catalog.byDigest digest = .ok (some identity))
  | byBucket {first last : Nat} {found : List Identity}
      (hread : catalog.byBucket first last = .ok found) (hmem : identity ∈ found)

/-- Whichever look-up gives an identity, it selects rows and reads them. -/
theorem Gives.exists_select (h : catalog.Gives identity) :
    ∃ condition found, catalog.select condition = .ok found ∧ identity ∈ found := by
  cases h with
  | contents hread hmem => exact ⟨_, _, hread, hmem⟩
  | get hread =>
      obtain ⟨found, hfound, hhead⟩ := map_eq_ok_iff.mp hread
      exact ⟨_, found, hfound, List.mem_of_head? hhead⟩
  | byDigest hread =>
      obtain ⟨found, hfound, hhead⟩ := map_eq_ok_iff.mp hread
      exact ⟨_, found, hfound, List.mem_of_head? hhead⟩
  | byBucket hread hmem => exact ⟨_, _, hread, hmem⟩

/-- An identity that a look-up gives is the one of a row, and its metadata is read of the text
there. -/
theorem Gives.exists_row (h : catalog.Gives identity) :
    ∃ row text, (identity.id.value, row) ∈ catalog.identities.rows ∧ row.metadata = .text text ∧
      Metadata.parse? text = some identity.metadata := by
  obtain ⟨condition, found, hselect, hmem⟩ := h.exists_select
  obtain ⟨_, -, hread⟩ := bind_eq_ok_iff.mp (mapError_eq_ok_iff.mp hselect)
  obtain ⟨bare, hbare, hfound⟩ := bind_eq_ok_iff.mp hread
  obtain ⟨read, hread, hsources⟩ := exists_of_mem_mapM hfound hmem
  obtain ⟨entry, hentry, hrow⟩ := exists_of_mem_mapM hbare hread
  obtain ⟨hid, text, htext, hmetadata⟩ := IdentityRow.exists_text_of_read hrow
  obtain ⟨sources, -, hsame⟩ := bind_eq_ok_iff.mp hsources
  cases hsame
  refine ⟨entry.2, text, ?_, htext, hmetadata⟩
  rw [hid]
  exact (List.mem_filter.mp hentry).1

end Catalog

/-! ## Records -/

/-- The metadata that a record hands over. -/
def Record.metadata? : Record → Option Metadata
  | .identity _ draft _ _ => some draft.metadata
  | .source _ _ metadata => metadata

/-- Every entry of a ledger has the metadata that some record handed over. -/
theorem Record.exists_of_mem_ledger {records : List Record} {entry : Identity}
    (hmem : entry ∈ ledger records) :
    ∃ record ∈ records, record.metadata? = some entry.metadata := by
  induction records using List.reverseRecOn generalizing entry with
  | nil => cases hmem
  | append_singleton records record ih =>
      have hearlier {old : Identity} (hold : old ∈ ledger records) :
          ∃ other ∈ records ++ [record], other.metadata? = some old.metadata := by
        obtain ⟨other, hother, hmetadata⟩ := ih hold
        exact ⟨other, List.mem_append_left _ hother, hmetadata⟩
      have hlast : record ∈ records ++ [record] :=
        List.mem_append_right _ (List.mem_singleton_self record)
      rw [ledger_append] at hmem
      cases record with
      | identity id draft source createdAt =>
          rcases List.mem_append.mp hmem with hold | hnew
          · exact hearlier hold
          · cases List.mem_singleton.mp hnew
            exact ⟨_, hlast, rfl⟩
      | source id source metadata =>
          obtain ⟨old, hold, hextended⟩ := List.mem_map.mp hmem
          split at hextended
          · cases metadata with
            | none =>
                have hsame : entry.metadata = old.metadata := hextended ▸ rfl
                rw [hsame]
                exact hearlier hold
            | some metadata =>
                have hsame : entry.metadata = metadata := hextended ▸ rfl
                rw [hsame]
                exact ⟨_, hlast, rfl⟩
          · rw [← hextended]
            exact hearlier hold

/-- Whichever look-up gives an identity in a session, some record of the session handed over its
metadata. -/
theorem Session.exists_record_of_gives {first last : Session} {records : List Record}
    (hfresh : first.Fresh) (hrecorded : Recorded first records last) {catalog : Catalog}
    (hholds : last.Holds catalog) {identity : Identity} (hgives : catalog.Gives identity) :
    ∃ record ∈ records, record.metadata? = some identity.metadata := by
  obtain ⟨known, hknown, hkeeps⟩ := keeps_of_recorded hfresh hrecorded
  have hsame := hholds.sameTables hknown
  have hkept : catalog.Keeps (Record.ledger records) :=
    hkeeps.congr (by rw [hsame.identities]) (by rw [hsame.sources])
  obtain ⟨row, text, hmem, htext, hread⟩ := hgives.exists_row
  obtain ⟨entry, hentry, hrow⟩ := hkept.exists_of_mem_rows hmem
  rw [(Prod.mk.inj hrow).2] at htext
  rw [← Cell.text.inj htext, Metadata.parse?_print] at hread
  rw [← hread]
  exact Record.exists_of_mem_ledger hentry

/-! ## Conversion of ticks -/

/-- Ticks of every time base in metadata that is read can be converted unless a zero denominator is
written in the text, whether the text is given or stands in the row of an identity that a look-up
gives.  The reader takes the numbers as they are; only a time base that is made of two numbers is
left unset instead.  What a session stores writes a zero denominator only if metadata with one
was handed over. -/
theorem Catalog.convertible_iff_not_textWrites (text : String) (catalog : Catalog) :
    (∀ metadata, Metadata.parse? text = some metadata →
      (metadata.Convertible ↔ ¬ Metadata.TextWrites text 0)) ∧
    (∀ identity, catalog.Gives identity →
      ∃ row text, (identity.id.value, row) ∈ catalog.identities.rows ∧
        row.metadata = .text text ∧ Metadata.parse? text = some identity.metadata ∧
        (identity.metadata.Convertible ↔ ¬ Metadata.TextWrites text 0)) ∧
    (∀ (first last : Session) records identity, first.Fresh →
      Session.Recorded first records last → last.Holds catalog → catalog.Gives identity →
      (∀ record ∈ records, ∀ metadata ∈ record.metadata?, metadata.Convertible) →
      identity.metadata.Convertible) ∧
    ∀ numer denom base, TimeBase.make? numer denom = some base → base.denom ≠ 0 := by
  have htext {text : String} {metadata : Metadata} (hread : Metadata.parse? text = some metadata) :
      metadata.Convertible ↔ ¬ Metadata.TextWrites text 0 := by
    rw [metadata.convertible_iff, Metadata.mem_denominators_iff_textWrites hread]
  refine ⟨fun _ => htext, fun identity hgives => ?_, ?_,
    fun _ _ _ => TimeBase.denom_ne_zero_of_make?⟩
  · obtain ⟨row, text, hmem, hcell, hread⟩ := hgives.exists_row
    exact ⟨row, text, hmem, hcell, hread, htext hread⟩
  · intro first last records identity hfresh hrecorded hholds hgives hconvertible
    obtain ⟨record, hmem, hmetadata⟩ :=
      Session.exists_record_of_gives hfresh hrecorded hholds hgives
    exact hconvertible record hmem _ hmetadata

/-- A blank recording with metadata of its own. -/
def Draft.describing (metadata : Metadata) : Draft :=
  { Draft.blank with metadata := metadata }

theorem Session.recorded_describing (metadata : Metadata) :
    Recorded (.opened .exclusive .blank) [.identity ⟨1⟩ (.describing metadata) .blank 0]
      (.opened .exclusive (World.blank.call (.insert (.describing metadata) .blank)).1) :=
  .call (.start _) (.insert (.describing metadata) .blank)

/-- The first recording of a catalog is given with its metadata. -/
theorem Session.get?_describing (metadata : Metadata) :
    (World.blank.call (.insert (.describing metadata) .blank)).1.catalog.get? ⟨1⟩ =
      .ok (some ((Draft.describing metadata).entry ⟨1⟩ [.blank] 0)) := by
  have hfresh : (Session.opened .exclusive .blank).Fresh := .refl _
  obtain ⟨catalog, hsame, hkeeps⟩ := keeps_of_recorded hfresh (recorded_describing metadata)
  have hkept := hkeeps.congr (by rw [hsame.identities]) (by rw [hsame.sources])
  exact hkept.shown_get? ⟨1⟩

/-- Metadata of one stream that has a time base. -/
def Metadata.ofTimeBase (base : TimeBase) : Metadata :=
  { Metadata.empty with
    streams := [⟨0, "audio", "pcm", none, none, none, none, none, some base, .empty⟩] }

/-- What is read of a recording with a stream of 44100 ticks a second can be converted. -/
theorem Catalog.convertible_after_insert :
    let metadata := Metadata.ofTimeBase ⟨1, 44100⟩
    let next := (World.blank.call (.insert (.describing metadata) .blank)).1
    let entry := (Draft.describing metadata).entry ⟨1⟩ [.blank] 0
    next.catalog.Gives entry ∧ entry.metadata.Convertible ∧
      ¬ Metadata.TextWrites entry.metadata.print 0 ∧ (⟨1, 44100⟩ : TimeBase).denom ≠ 0 := by
  intro metadata next entry
  obtain ⟨htext, -, hsession, hmade⟩ :=
    convertible_iff_not_textWrites entry.metadata.print next.catalog
  have hfresh : (Session.opened .exclusive .blank).Fresh := .refl _
  have hgives : next.catalog.Gives entry := .get (Session.get?_describing metadata)
  have htimed : metadata.Convertible := by
    rintro stream hstream base hbase ticks
    obtain rfl := List.mem_singleton.mp hstream
    obtain rfl := Option.some.inj hbase
    exact (TimeBase.isSome_millis?_iff ..).mpr (by decide)
  have hconvertible : entry.metadata.Convertible := by
    refine hsession _ _ _ _ hfresh (Session.recorded_describing metadata) (.refl _) hgives ?_
    intro record hmem given hgiven
    cases List.mem_singleton.mp hmem
    cases hgiven
    exact htimed
  exact ⟨hgives, hconvertible,
    (htext _ entry.metadata.parse?_print).mp hconvertible, hmade 1 44100 _ rfl⟩

/-- Metadata of one stream that has a time base with a zero denominator. -/
def Metadata.zeroBased : Metadata :=
  .ofTimeBase ⟨1, 0⟩

/-- The text of that metadata. -/
def Metadata.zeroBasedText : String :=
  "\x7b\"format_name\":\"\",\"streams\":[\x7b\"index\":0,\"codec_type\":\"audio\"," ++
    "\"codec_name\":\"pcm\",\"time_base\":\x7b\"numer\":1,\"denom\":0\x7d\x7d]\x7d"

theorem Metadata.print_zeroBased : zeroBased.print = zeroBasedText := by
  decide +kernel

/-- A zero denominator that is written in a text is read, and given by a look-up once it is stored,
although two numbers with this denominator do not make a time base.  No ticks of it can be
converted. -/
theorem Catalog.unconvertible_of_zero_denominator :
    let next := (World.blank.call (.insert (.describing .zeroBased) .blank)).1
    Metadata.parse? Metadata.zeroBasedText = some .zeroBased ∧
      (∃ identity, next.catalog.get? ⟨1⟩ = .ok (some identity) ∧
        identity.metadata = .zeroBased) ∧
      ∃ stream ∈ Metadata.zeroBased.streams, ∃ base ∈ stream.timeBase,
        TimeBase.make? base.numer base.denom = none ∧ ∀ ticks, base.millis? ticks = none := by
  intro next
  refine ⟨?_, ⟨_, Session.get?_describing .zeroBased, rfl⟩, _, List.mem_singleton_self _, _, rfl,
    rfl, fun _ => rfl⟩
  rw [← Metadata.print_zeroBased]
  exact Metadata.parse?_print .zeroBased

end AudioCatalog
