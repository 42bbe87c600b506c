import AudioCatalog.Proofs.Metadata.RoundTrip
import AudioCatalog.Proofs.Wave.Rates
import AudioCatalog.Wave.Decoder

/-!
# Denominators of time bases

A time base that is made of two numbers has a denominator that is not zero, and so have those
of a wave file.  One that is read has the numbers that stand in the text: what is read as
metadata has a zero denominator exactly if a time base is written with one.
-/

namespace AudioCatalog

/-! ## Fields of values -/

/-- Which fields a value has: an object those under the name, and an array the one in the place
that the names give it. -/
inductive Json.HasField (names : List String) (name : String) : Json → Json → Prop
  | named {members : List (Option String × Json)} {field : Json}
      (hmem : (some name, field) ∈ members) : HasField names name (.object members) field
  | placed {items : List Json} {field : Json} {i : Nat} (hname : names[i]? = some name)
      (hitem : items[i]? = some field) : HasField names name (.array items) field

namespace Fields

variable {names : List String} {value field : Json} {fields : Fields}

theorem getD_ofJson?_array {items : List Json} (h : ofJson? names (.array items) = some fields)
    (i : Nat) : fields.getD i none = items[i]? := by
  rw [ofJson?] at h
  split at h
  · cases h
    rw [List.getD_eq_getElem?_getD, List.getElem?_append, List.length_map]
    split
    · rename_i hi
      simp [hi]
    · rename_i hi
      rw [List.getElem?_eq_none (Nat.not_lt.mp hi), List.getElem?_replicate]
      split <;> rfl
  · cases h

theorem getD_ofJson?_object {members : List (Option String × Json)}
    (h : ofJson? names (.object members) = some fields) {i : Nat} {name : String}
    (hname : names[i]? = some name) :
    fields.getD i none = some field ↔ (some name, field) ∈ members := by
  rw [ofJson?] at h
  obtain ⟨named, hnamed, hfields⟩ := Option.bind_eq_some_iff.mp h
  have hmem : (name, field) ∈ named.filter (·.1 = name) ↔ (some name, field) ∈ members := by
    rw [List.mem_filter, mem_of_mapM_iff hnamed]
    constructor
    · rintro ⟨⟨⟨other, value⟩, hmem, hother⟩, -⟩
      obtain ⟨text, rfl, hpair⟩ := Option.map_eq_some_iff.mp hother
      cases hpair
      exact hmem
    · exact fun hmem => ⟨⟨_, hmem, rfl⟩, by simp⟩
  have hfield := congrArg (·[i]?) (mapM_eq_some_iff.mp hfields)
  simp only [List.getElem?_map, hname, Option.map_some] at hfield
  obtain ⟨found, hfound, hread⟩ := Option.map_eq_some_iff.mp hfield.symm
  rw [List.getD_eq_getElem?_getD, hfound, ← hmem, Option.getD_some]
  -- A name that is given twice is refused, so that the filter leaves one member at most.
  split at hread
  · rename_i hnone
    cases hread
    rw [hnone]
    simp
  · rename_i other value hone
    cases hread
    have hmem : (other, value) ∈ named.filter (·.1 = name) := hone ▸ List.mem_singleton_self _
    have hother : other = name := of_decide_eq_true (List.mem_filter.mp hmem).2
    rw [hone, hother]
    simp [eq_comm]
  · cases hread

/-- The fields that are read of a value are those that it has. -/
theorem getD_ofJson?_eq_some_iff (hnodup : names.Nodup) (h : ofJson? names value = some fields)
    {i : Nat} {name : String} (hname : names[i]? = some name) :
    fields.getD i none = some field ↔ value.HasField names name field := by
  cases value with
  | object members =>
      rw [getD_ofJson?_object h hname]
      constructor
      · exact .named
      · rintro ⟨hmem⟩
        exact hmem
  | array items =>
      rw [getD_ofJson?_array h]
      constructor
      · exact .placed hname
      · rintro (_ | ⟨hplace, hitem⟩)
        have hi := (List.getElem?_eq_some_iff.mp hplace).1
        have hsame := (List.getElem?_inj hi hnodup).mp (hplace.trans hname.symm)
        rwa [hsame] at hitem
  | _ => cases h

end Fields

/-! ## Denominators as they are written -/

/-- Which denominator stands in a value that is read as a time base. -/
def TimeBase.Writes (value : Json) (denom : UInt32) : Prop :=
  ∃ field, value.HasField fieldNames "denom" field ∧ field.uint32? = some denom

/-- Which denominator stands in a value that is read as a stream. -/
def StreamFacts.Writes (value : Json) (denom : UInt32) : Prop :=
  ∃ field, value.HasField fieldNames "time_base" field ∧ TimeBase.Writes field denom

namespace Metadata

/-- Which denominators stand in a value that is read as metadata. -/
def Writes (value : Json) (denom : UInt32) : Prop :=
  ∃ items, value.HasField fieldNames "streams" (.array items) ∧
    ∃ item ∈ items, StreamFacts.Writes item denom

/-- Which denominators stand in a JSON text that is read as metadata. -/
def TextWrites (text : String) (denom : UInt32) : Prop :=
  ∃ value ∈ Json.parse? text, Writes value denom

/-- The denominators of the time bases of all streams. -/
def denominators (m : Metadata) : List UInt32 :=
  m.streams.filterMap fun stream => stream.timeBase.map (·.denom)

end Metadata

variable {value : Json} {denom : UInt32}

theorem TimeBase.denom_eq_iff_writes {base : TimeBase} (h : ofJson? value = some base) :
    base.denom = denom ↔ Writes value denom := by
  simp only [ofJson?, Option.bind_eq_bind, Option.bind_eq_some_iff, Option.pure_def,
    Option.some.injEq] at h
  obtain ⟨fields, hfields, numer, -, written, hwritten, rfl⟩ := h
  obtain ⟨field, hfield, hread⟩ := Option.bind_eq_some_iff.mp hwritten
  simp only [Writes, ← Fields.getD_ofJson?_eq_some_iff (by decide) hfields (i := 1) rfl, hfield,
    Option.some.injEq, exists_eq_left', hread]

theorem StreamFacts.denom_eq_iff_writes {stream : StreamFacts} (h : ofJson? value = some stream) :
    stream.timeBase.map (·.denom) = some denom ↔ Writes value denom := by
  simp only [ofJson?, Option.bind_eq_bind, Option.bind_eq_some_iff, Option.pure_def,
    Option.some.injEq] at h
  obtain ⟨fields, hfields, _, -, _, -, _, -, _, -, _, -, _, -, _, -, _, -, base, hbase, _, -,
    rfl⟩ := h
  simp only [Writes, ← Fields.getD_ofJson?_eq_some_iff (by decide) hfields (i := 8) rfl]
  rw [Fields.optional?] at hbase
  split at hbase
  case h_1 hfield =>
      cases hbase
      simp only [hfield, reduceCtorEq, false_and, exists_false, Option.map_none]
  case h_2 hfield =>
      cases hbase
      simp only [hfield, Option.some.injEq, exists_eq_left', Option.map_none, reduceCtorEq,
        false_iff]
      rintro ⟨_, ⟨⟩, _⟩
  case h_3 field _ hfield =>
      obtain ⟨base, hread, rfl⟩ := Option.map_eq_some_iff.mp hbase
      simp only [hfield, Option.some.injEq, exists_eq_left', Option.map_some]
      exact TimeBase.denom_eq_iff_writes hread

namespace Metadata

theorem mem_denominators_iff_writes {m : Metadata} (h : ofJson? value = some m) :
    denom ∈ m.denominators ↔ Writes value denom := by
  simp only [ofJson?, Option.bind_eq_bind, Option.bind_eq_some_iff, Option.pure_def,
    Option.some.injEq] at h
  obtain ⟨fields, hfields, _, -, _, -, _, -, _, -, _, -, streams, hstreams, rfl⟩ := h
  simp only [Writes, ← Fields.getD_ofJson?_eq_some_iff (by decide) hfields (i := 5) rfl]
  rw [Fields.defaulted?] at hstreams
  split at hstreams
  case h_1 hfield =>
      cases hstreams
      simp [denominators, hfield, -List.getD_eq_getElem?_getD]
  case h_2 field hfield =>
      cases field with
      | array items =>
          have hitems : items.mapM StreamFacts.ofJson? = some streams := hstreams
          simp only [denominators, List.mem_filterMap, hfield, Option.some.injEq, Json.array.injEq,
            exists_eq_left']
          constructor
          · rintro ⟨stream, hmem, hdenom⟩
            obtain ⟨item, hitem, hread⟩ := (mem_of_mapM_iff hitems).mp hmem
            exact ⟨item, hitem, (StreamFacts.denom_eq_iff_writes hread).mp hdenom⟩
          · rintro ⟨item, hitem, hwrites⟩
            have hread : StreamFacts.ofJson? item ∈ streams.map some := by
              rw [← mapM_eq_some_iff.mp hitems]
              exact List.mem_map_of_mem hitem
            obtain ⟨stream, hmem, hread⟩ := List.mem_map.mp hread
            exact ⟨stream, hmem, (StreamFacts.denom_eq_iff_writes hread.symm).mpr hwrites⟩
      | _ => cases hstreams

/-- Metadata that is read of a text has those denominators that are written there. -/
theorem mem_denominators_iff_textWrites {text : String} {m : Metadata}
    (h : parse? text = some m) : denom ∈ m.denominators ↔ TextWrites text denom := by
  obtain ⟨value, hvalue, hread⟩ := Option.bind_eq_some_iff.mp h
  simp only [mem_denominators_iff_writes hread, TextWrites, hvalue, Option.mem_def,
    Option.some.injEq, exists_eq_left']

/-! ## Conversion -/

/-- Whether ticks of every time base can be converted to milliseconds. -/
def Convertible (m : Metadata) : Prop :=
  ∀ stream ∈ m.streams, ∀ base ∈ stream.timeBase, ∀ ticks, (base.millis? ticks).isSome

end Metadata

theorem TimeBase.isSome_millis?_iff (base : TimeBase) (ticks : UInt64) :
    (base.millis? ticks).isSome ↔ base.denom ≠ 0 := by
  rw [millis?]
  split <;> simpa

/-- A time base that is made of two numbers can be converted. -/
theorem TimeBase.denom_ne_zero_of_make? {numer denom : UInt32} {base : TimeBase}
    (h : make? numer denom = some base) : base.denom ≠ 0 := by
  rw [make?] at h
  split at h
  · cases h
  · rename_i hdenom
    cases h
    exact hdenom

namespace Metadata

theorem convertible_iff (m : Metadata) : m.Convertible ↔ 0 ∉ m.denominators := by
  simp only [Convertible, TimeBase.isSome_millis?_iff, denominators, List.mem_filterMap,
    Option.map_eq_some_iff, not_exists, not_and, Option.mem_def]
  exact forall₂_congr fun stream _ => forall₂_congr fun base _ => forall_const UInt64

end Metadata

/-! ## Wave files -/

theorem Metadata.streams_fillBitRate (m : Metadata) (size : Nat) :
    (m.fillBitRate size).streams = m.streams := by
  rw [fillBitRate]
  split
  · split <;> rfl
  · rfl

theorem Metadata.durationMillis_fillBitRate (m : Metadata) (size : Nat) :
    (m.fillBitRate size).durationMillis = m.durationMillis := by
  rw [fillBitRate]
  split
  · split <;> rfl
  · rfl

/-- The stream of a wave file has one tick for each frame, so that its duration is known. -/
theorem WaveDecoder.timeBase_of_decode {wave : WaveDecoder} {path : Pathname}
    {bytes : List UInt8} {recording : Recording} (h : wave.decode path bytes = .ok recording) :
    ∃ stream base, recording.metadata.streams = [stream] ∧ stream.timeBase = some base ∧
      base = ⟨1, recording.stream.rate⟩ ∧ base.denom ≠ 0 ∧
        recording.metadata.durationMillis = stream.frames.bind base.millis? := by
  rw [decode] at h
  obtain ⟨file, hfile, h⟩ := bind_eq_ok_iff.mp h
  obtain ⟨packets, -, h⟩ := bind_eq_ok_iff.mp h
  cases h
  have hrate := WaveFile.rate_ne_zero_of_parse hfile
  have hbase : file.streamFacts.timeBase = some ⟨1, file.format.rate⟩ := if_neg hrate
  refine ⟨file.streamFacts, _, ?_, hbase, rfl, hrate, ?_⟩
  · exact Metadata.streams_fillBitRate _ _
  · rw [WaveFile.metadata, Metadata.durationMillis_fillBitRate, hbase]
    rfl

/-- What the decoder for wave files says of a file can be converted. -/
theorem WaveDecoder.convertible_of_decode {wave : WaveDecoder} {path : Pathname}
    {bytes : List UInt8} {recording : Recording} (h : wave.decode path bytes = .ok recording) :
    recording.metadata.Convertible := by
  obtain ⟨stream, base, hstreams, hbase, -, hdenom, -⟩ := timeBase_of_decode h
  rw [Metadata.Convertible, hstreams]
  intro other hmem found hfound ticks
  rw [List.mem_singleton.mp hmem, hbase] at hfound
  rw [← Option.some.inj hfound]
  exact (base.isSome_millis?_iff ticks).mpr hdenom

end AudioCatalog
