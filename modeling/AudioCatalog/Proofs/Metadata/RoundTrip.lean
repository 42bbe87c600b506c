import AudioCatalog.Metadata.Json
import AudioCatalog.Proofs.Results
import AudioCatalog.Proofs.Json.Controls

/-!
# Metadata read back

What is stored of metadata is read back as the same metadata: the text of a metadata
object is that of a plain value, its members have distinct names, and each field is read
from what it was written to.  What the texts in it hold makes no difference, since no character
of them is written in a way that ends their literal, or as a control character.
-/

namespace AudioCatalog

/-! ## Tags -/

namespace TagMap

/-- An entry whose name comes after all others is put at the end. -/
theorem insertEntry_of_last {name value : String} {entries : List (String × String)}
    (h : ∀ entry ∈ entries, entry.1 < name) :
    insertEntry name value entries = entries ++ [(name, value)] := by
  induction entries with
  | nil => rfl
  | cons first rest ih =>
      have hfirst : first.1 < name := h first List.mem_cons_self
      have hnot : ¬ name < first.1 := String.lt_asymm hfirst
      have hne : name ≠ first.1 := by
        intro heq
        rw [heq] at hfirst
        exact String.lt_irrefl _ hfirst
      rw [insertEntry, if_neg hnot, if_neg hne,
        ih fun entry hmem => h entry (List.mem_cons_of_mem _ hmem), List.cons_append]

theorem entries_foldl_insert (entries : List (String × String)) (tags : TagMap)
    (h : (tags.entries ++ entries).Pairwise fun a b => a.1 < b.1) :
    (entries.foldl (fun tags entry => tags.insert entry.1 entry.2) tags).entries =
      tags.entries ++ entries := by
  induction entries generalizing tags with
  | nil => simp
  | cons entry entries ih =>
      have hinsert : (tags.insert entry.1 entry.2).entries = tags.entries ++ [entry] :=
        insertEntry_of_last fun other hmem =>
          (List.pairwise_append.mp h).2.2 other hmem entry List.mem_cons_self
      have hsplit : tags.entries ++ entry :: entries =
          (tags.insert entry.1 entry.2).entries ++ entries := by
        rw [hinsert, List.append_assoc, List.singleton_append]
      rw [List.foldl_cons, ih _ (hsplit ▸ h), hsplit]

theorem ext {a b : TagMap} (h : a.entries = b.entries) : a = b := by
  cases a
  cases b
  cases h
  rfl

/-- Tags are what their entries make. -/
theorem ofList_entries (tags : TagMap) : ofList tags.entries = tags := by
  have hentries := entries_foldl_insert tags.entries empty (by simpa [empty] using tags.sorted)
  exact ext (by simpa [ofList, empty] using hentries)

theorem ofJson?_toJson (tags : TagMap) : ofJson? tags.toJson = some tags := by
  have hmembers : tags.toJson =
      .object (tags.entries.map fun entry => (some entry.1, Json.ofText entry.2)) := by
    simp [toJson, Json.ofMembers]
  rw [hmembers, ofJson?, mapM_map_eq_pure]
  · exact congrArg some (ofList_entries tags)
  · exact fun _ _ => rfl

theorem plain_toJson (tags : TagMap) : tags.toJson.Plain := by
  apply Json.Plain.object
  intro member hmem
  obtain ⟨entry, _, rfl⟩ := List.mem_map.mp hmem
  exact .text entry.2

end TagMap

/-! ## Fields by name -/

namespace Fields

/-- Where names are distinct, those members that have a name are the one that is found. -/
theorem filter_eq_toList_lookup {members : List (String × Json)}
    (hnodup : (members.map (·.1)).Nodup) (name : String) :
    members.filter (·.1 = name) = ((members.lookup name).map (name, ·)).toList := by
  induction members with
  | nil => rfl
  | cons member members ih =>
      rw [List.map_cons, List.nodup_cons] at hnodup
      have hrest := ih hnodup.2
      by_cases hname : member.1 = name
      · have hlookup : members.lookup name = none := by
          rw [List.lookup_eq_none_iff]
          rintro other hmem
          rw [← hname, bne_iff_ne]
          rintro heq
          exact hnodup.1 (heq ▸ List.mem_map_of_mem hmem)
        rw [List.filter_cons_of_pos (by simpa using hname), hrest, hlookup]
        subst hname
        rw [List.lookup_cons, beq_self_eq_true]
        rfl
      · rw [List.filter_cons_of_neg (by simpa using hname), hrest, List.lookup_cons,
          beq_false_of_ne (Ne.symm hname)]

/-- The fields of an object whose members have distinct names are found by their names. -/
theorem ofJson?_ofMembers (names : List String) {members : List (String × Json)}
    (hnodup : (members.map (·.1)).Nodup) :
    ofJson? names (.ofMembers members) = some (names.map fun name => members.lookup name) := by
  rw [Json.ofMembers, ofJson?, mapM_map_eq_pure]
  · apply mapM_eq_pure_map
    intro name _
    rw [filter_eq_toList_lookup hnodup]
    cases members.lookup name <;> rfl
  · exact fun _ _ => rfl

theorem required?_eq_some {α : Type} {read : Json → Option α} {fields : Fields} {position : Nat}
    {value : Json} {result : α} (hfield : fields.getD position none = some value)
    (hread : read value = some result) : fields.required? read position = some result := by
  rw [required?, hfield, Option.bind_some, hread]

/-- An optional field is read back from what it was written to, unless that is null. -/
theorem optional?_eq_some {α : Type} {read : Json → Option α} {write : α → Json} {fields : Fields}
    {position : Nat} {field : Option α} (hfield : fields.getD position none = field.map write)
    (hread : ∀ value ∈ field, read (write value) = some value)
    (hnull : ∀ value ∈ field, write value ≠ .null) :
    fields.optional? read position = some field := by
  cases field with
  | none => rw [optional?, hfield]; rfl
  | some value =>
      have hnull := hnull value rfl
      rw [optional?, hfield, Option.map_some]
      split
      · rename_i heq
        cases heq
      · rename_i heq
        exact absurd (Option.some.inj heq) hnull
      · rename_i heq
        cases heq
        rw [hread value rfl, Option.map_some]

theorem defaulted?_eq_some {α : Type} {read : Json → Option α} {default : α} {fields : Fields}
    {position : Nat} {value : Json} {result : α}
    (hfield : fields.getD position none = some value) (hread : read value = some result) :
    fields.defaulted? read default position = some result := by
  rw [defaulted?, hfield]
  exact hread

end Fields

/-! ## Members by name -/

theorem map_fst_optionalMember {α : Type} (name : String) (write : α → Json) (field : Option α) :
    ((optionalMember name write field).map (·.1)).Sublist [name] := by
  cases field with
  | none => exact List.nil_sublist _
  | some value => exact List.Sublist.refl _

theorem lookup_optionalMember {α : Type} (name other : String) (write : α → Json)
    (field : Option α) :
    (optionalMember name write field).lookup other =
      if other = name then field.map write else none := by
  cases field with
  | none => simp [optionalMember]
  | some value =>
      by_cases hname : other = name
      · simp [optionalMember, hname]
      · simp [optionalMember, hname, List.lookup_cons, beq_false_of_ne hname]

theorem plain_of_mem_optionalMember {α : Type} {name : String} {write : α → Json}
    {field : Option α} (hplain : ∀ value, (write value).Plain) {member : String × Json}
    (hmem : member ∈ optionalMember name write field) : member.2.Plain := by
  cases field with
  | none => cases hmem
  | some value =>
      cases List.mem_singleton.mp hmem
      exact hplain value

theorem TagMap.map_fst_members (tags : TagMap) : (tags.members.map (·.1)).Sublist ["tags"] := by
  rw [members]
  split
  · exact List.nil_sublist _
  · exact List.Sublist.refl _

theorem TagMap.lookup_members (tags : TagMap) (name : String) :
    tags.members.lookup name =
      if name = "tags" ∧ tags.isEmpty = false then some tags.toJson else none := by
  rw [members]
  by_cases hempty : tags.isEmpty
  · simp [hempty]
  · by_cases hname : name = "tags"
    · simp [hempty, hname]
    · simp [hempty, hname, List.lookup_cons, beq_false_of_ne hname]

theorem TagMap.plain_of_mem_members {tags : TagMap} {member : String × Json}
    (hmem : member ∈ tags.members) : member.2.Plain := by
  rw [members] at hmem
  split at hmem
  · cases hmem
  · cases List.mem_singleton.mp hmem
    exact tags.plain_toJson

/-- Tags are read back, also where they are left out. -/
theorem TagMap.defaulted?_members {fields : Fields} {position : Nat} {tags : TagMap}
    (hfield : fields.getD position none = if tags.isEmpty = false then some tags.toJson else none) :
    fields.defaulted? TagMap.ofJson? .empty position = some tags := by
  by_cases hempty : tags.isEmpty = false
  · rw [if_pos hempty] at hfield
    exact Fields.defaulted?_eq_some hfield (ofJson?_toJson tags)
  · rw [if_neg hempty] at hfield
    have hnil : tags.entries = [] := by simpa [isEmpty] using hempty
    rw [Fields.defaulted?, hfield]
    exact congrArg some (ext hnil.symm)

/-! ## Numbers -/

theorem Json.uint16?_ofNat (n : UInt16) : (Json.ofNat n.toNat).uint16? = some n := by
  have hlt := n.toNat_lt
  rw [uint16?, natUpTo?_ofNat (by omega), Option.map_some, UInt16.ofNat_toNat]

theorem Json.uint32?_ofNat (n : UInt32) : (Json.ofNat n.toNat).uint32? = some n := by
  have hlt := n.toNat_lt
  rw [uint32?, natUpTo?_ofNat (by omega), Option.map_some, UInt32.ofNat_toNat]

theorem Json.uint64?_ofNat (n : UInt64) : (Json.ofNat n.toNat).uint64? = some n := by
  have hlt := n.toNat_lt
  rw [uint64?, natUpTo?_ofNat (by omega), Option.map_some, UInt64.ofNat_toNat]

theorem Json.text?_ofText (value : String) : (Json.ofText value).text? = some value :=
  rfl

/-! ## Time bases, streams, metadata -/

theorem TimeBase.plain_toJson (base : TimeBase) : base.toJson.Plain := by
  apply Json.Plain.object
  intro member hmem
  simp only [List.mem_cons, List.not_mem_nil, or_false] at hmem
  rcases hmem with rfl | rfl <;> exact .number _

theorem TimeBase.ofJson?_toJson (base : TimeBase) : ofJson? base.toJson = some base := by
  rw [ofJson?, toJson, Fields.ofJson?_ofMembers fieldNames (by simp)]
  simp only [fieldNames, List.map_cons, List.map_nil, List.lookup_cons, Option.bind_eq_bind,
    Option.bind_some, beq_self_eq_true]
  rw [Fields.required?_eq_some rfl (Json.uint32?_ofNat base.numer), Option.bind_some,
    Fields.required?_eq_some rfl (Json.uint32?_ofNat base.denom)]
  rfl

namespace StreamFacts

/-- The members of a stream. -/
def members (stream : StreamFacts) : List (String × Json) :=
  [("index", .ofNat stream.index.toNat),
    ("codec_type", .ofText stream.codecType),
    ("codec_name", .ofText stream.codecName)]
  ++ optionalMember "sample_rate" (fun n => .ofNat n.toNat) stream.sampleRate
  ++ optionalMember "channels" (fun n => .ofNat n.toNat) stream.channels
  ++ optionalMember "bits_per_sample" (fun n => .ofNat n.toNat) stream.bitsPerSample
  ++ optionalMember "bit_rate" (fun n => .ofNat n.toNat) stream.bitRate
  ++ optionalMember "frames" (fun n => .ofNat n.toNat) stream.frames
  ++ optionalMember "time_base" TimeBase.toJson stream.timeBase
  ++ stream.tags.members

theorem toJson_eq (stream : StreamFacts) : stream.toJson = .ofMembers stream.members :=
  rfl

theorem nodup_members (stream : StreamFacts) : (stream.members.map (·.1)).Nodup := by
  have hsublist : (stream.members.map (·.1)).Sublist fieldNames := by
    simp only [members, List.map_append]
    exact ((((((List.Sublist.refl _).append (map_fst_optionalMember ..)).append
      (map_fst_optionalMember ..)).append (map_fst_optionalMember ..)).append
      (map_fst_optionalMember ..)).append (map_fst_optionalMember ..)).append
      (map_fst_optionalMember ..) |>.append stream.tags.map_fst_members
  exact hsublist.nodup (by decide)

theorem plain_toJson (stream : StreamFacts) : stream.toJson.Plain := by
  apply Json.Plain.object
  intro member hmem
  simp only [List.mem_append, List.mem_cons, List.not_mem_nil, or_false] at hmem
  rcases hmem with ((((((hmem | hmem) | hmem) | hmem) | hmem) | hmem) | hmem) | hmem
  · rcases hmem with rfl | rfl | rfl
    · exact .number _
    · exact .text _
    · exact .text _
  · exact plain_of_mem_optionalMember (fun _ => .number _) hmem
  · exact plain_of_mem_optionalMember (fun _ => .number _) hmem
  · exact plain_of_mem_optionalMember (fun _ => .number _) hmem
  · exact plain_of_mem_optionalMember (fun _ => .number _) hmem
  · exact plain_of_mem_optionalMember (fun _ => .number _) hmem
  · exact plain_of_mem_optionalMember TimeBase.plain_toJson hmem
  · exact TagMap.plain_of_mem_members hmem

/-- The fields of a stream in the order of their names. -/
def fields (stream : StreamFacts) : Fields :=
  [some (.ofNat stream.index.toNat),
    some (.ofText stream.codecType),
    some (.ofText stream.codecName),
    stream.sampleRate.map fun n => .ofNat n.toNat,
    stream.channels.map fun n => .ofNat n.toNat,
    stream.bitsPerSample.map fun n => .ofNat n.toNat,
    stream.bitRate.map fun n => .ofNat n.toNat,
    stream.frames.map fun n => .ofNat n.toNat,
    stream.timeBase.map TimeBase.toJson,
    if stream.tags.isEmpty = false then some stream.tags.toJson else none]

theorem map_lookup_members (stream : StreamFacts) :
    fieldNames.map (fun name => stream.members.lookup name) = stream.fields := by
  simp [fieldNames, members, fields, List.lookup_append, lookup_optionalMember,
    TagMap.lookup_members, List.lookup_cons]

theorem ofJson?_toJson (stream : StreamFacts) : ofJson? stream.toJson = some stream := by
  rw [ofJson?, toJson_eq, Fields.ofJson?_ofMembers fieldNames stream.nodup_members,
    map_lookup_members]
  simp only [Option.bind_eq_bind, Option.bind_some]
  rw [Fields.required?_eq_some rfl (Json.uint32?_ofNat stream.index), Option.bind_some,
    Fields.required?_eq_some rfl (Json.text?_ofText stream.codecType), Option.bind_some,
    Fields.required?_eq_some rfl (Json.text?_ofText stream.codecName), Option.bind_some,
    Fields.optional?_eq_some rfl (fun n _ => Json.uint32?_ofNat n) (by simp [Json.ofNat]),
    Option.bind_some,
    Fields.optional?_eq_some rfl (fun n _ => Json.uint16?_ofNat n) (by simp [Json.ofNat]),
    Option.bind_some,
    Fields.optional?_eq_some rfl (fun n _ => Json.uint32?_ofNat n) (by simp [Json.ofNat]),
    Option.bind_some,
    Fields.optional?_eq_some rfl (fun n _ => Json.uint32?_ofNat n) (by simp [Json.ofNat]),
    Option.bind_some,
    Fields.optional?_eq_some rfl (fun n _ => Json.uint64?_ofNat n) (by simp [Json.ofNat]),
    Option.bind_some,
    Fields.optional?_eq_some rfl (fun base _ => TimeBase.ofJson?_toJson base)
      (by simp [TimeBase.toJson, Json.ofMembers]),
    Option.bind_some, TagMap.defaulted?_members rfl]
  rfl

end StreamFacts

namespace Metadata

/-- The members of metadata. -/
def members (m : Metadata) : List (String × Json) :=
  [("format_name", .ofText m.formatName)]
  ++ optionalMember "format_long_name" .ofText m.formatLongName
  ++ optionalMember "duration_ms" (fun n => .ofNat n.toNat) m.durationMillis
  ++ optionalMember "bit_rate" (fun n => .ofNat n.toNat) m.bitRate
  ++ m.tags.members
  ++ [("streams", .array (m.streams.map StreamFacts.toJson))]

theorem toJson_eq (m : Metadata) : m.toJson = .ofMembers m.members :=
  rfl

theorem nodup_members (m : Metadata) : (m.members.map (·.1)).Nodup := by
  have hsublist : (m.members.map (·.1)).Sublist fieldNames := by
    simp only [members, List.map_append]
    exact (((((List.Sublist.refl _).append (map_fst_optionalMember ..)).append
      (map_fst_optionalMember ..)).append (map_fst_optionalMember ..)).append
      m.tags.map_fst_members).append (List.Sublist.refl _)
  exact hsublist.nodup (by decide)

theorem plain_toJson (m : Metadata) : m.toJson.Plain := by
  apply Json.Plain.object
  intro member hmem
  simp only [List.mem_append, List.mem_singleton] at hmem
  rcases hmem with ((((rfl | hmem) | hmem) | hmem) | hmem) | rfl
  · exact .text _
  · exact plain_of_mem_optionalMember (fun _ => .text _) hmem
  · exact plain_of_mem_optionalMember (fun _ => .number _) hmem
  · exact plain_of_mem_optionalMember (fun _ => .number _) hmem
  · exact TagMap.plain_of_mem_members hmem
  · apply Json.Plain.array
    intro item hitem
    obtain ⟨stream, _, rfl⟩ := List.mem_map.mp hitem
    exact stream.plain_toJson

/-- The fields of metadata in the order of their names. -/
def fields (m : Metadata) : Fields :=
  [some (.ofText m.formatName),
    m.formatLongName.map .ofText,
    m.durationMillis.map fun n => .ofNat n.toNat,
    m.bitRate.map fun n => .ofNat n.toNat,
    if m.tags.isEmpty = false then some m.tags.toJson else none,
    some (.array (m.streams.map StreamFacts.toJson))]

theorem map_lookup_members (m : Metadata) :
    fieldNames.map (fun name => m.members.lookup name) = m.fields := by
  simp [fieldNames, members, fields, List.lookup_append, lookup_optionalMember,
    TagMap.lookup_members, List.lookup_cons]

theorem list?_map_toJson (streams : List StreamFacts) :
    Json.list? StreamFacts.ofJson? (.array (streams.map StreamFacts.toJson)) = some streams := by
  rw [Json.list?, mapM_map_eq_pure fun stream _ => stream.ofJson?_toJson]
  rfl

theorem ofJson?_toJson (m : Metadata) : ofJson? m.toJson = some m := by
  rw [ofJson?, toJson_eq, Fields.ofJson?_ofMembers fieldNames m.nodup_members, map_lookup_members]
  simp only [Option.bind_eq_bind, Option.bind_some]
  rw [Fields.required?_eq_some rfl (Json.text?_ofText m.formatName), Option.bind_some,
    Fields.optional?_eq_some rfl (fun value _ => Json.text?_ofText value) (by simp [Json.ofText]),
    Option.bind_some,
    Fields.optional?_eq_some rfl (fun n _ => Json.uint64?_ofNat n) (by simp [Json.ofNat]),
    Option.bind_some,
    Fields.optional?_eq_some rfl (fun n _ => Json.uint32?_ofNat n) (by simp [Json.ofNat]),
    Option.bind_some, TagMap.defaulted?_members rfl, Option.bind_some,
    Fields.defaulted?_eq_some rfl (list?_map_toJson m.streams)]
  rfl

/-- Stored metadata is read back as it was. -/
theorem parse?_print (m : Metadata) : parse? m.print = some m := by
  rw [parse?, print, Json.parse?_compact m.plain_toJson, Option.bind_some, ofJson?_toJson]

/-- Two texts are the same for the same metadata only. -/
theorem print_inj {m other : Metadata} : other.print = m.print ↔ other = m := by
  constructor
  · intro hsame
    have hread := other.parse?_print
    rw [hsame, parse?_print] at hread
    exact (Option.some.inj hread).symm
  · rintro rfl
    rfl

/-- The text of metadata is read back as the metadata, no other metadata has it, and there are no
control characters in it, whatever texts the metadata holds. -/
theorem print_survives (m : Metadata) :
    parse? m.print = some m ∧ (∀ other : Metadata, other.print = m.print ↔ other = m) ∧
      NoControls m.print.toList := by
  refine ⟨m.parse?_print, fun other => print_inj, ?_⟩
  rw [print, Json.compact, String.toList_ofList]
  exact m.plain_toJson.noControls

/-- A quote and a NUL are escaped, and what is absent is left out. -/
example : print ⟨"a\"\x00", none, none, some 5, .empty, []⟩ =
    "\x7b\"format_name\":\"a\\\"\\u0000\",\"bit_rate\":5,\"streams\":[]\x7d" := by
  decide +kernel

end Metadata

end AudioCatalog
