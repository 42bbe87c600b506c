import AudioCatalog.Proofs.Catalog.Ledger
import AudioCatalog.Proofs.Catalog.Tables

/-!
# Entries added to a ledger

What the parts of a commit do to the ledger of a catalog: a row of a source extends the
entry of its identity unless the same source is there, new metadata replaces the old, and
the row of a new identity becomes the last entry.
-/

namespace AudioCatalog

/-! ## Ledgers -/

/-- The sources with one more, unless one of the same state is among them. -/
def Source.addTo (source : Source) (sources : List Source) : List Source :=
  if sources.any (·.sameState source) then sources else sources ++ [source]

theorem Source.mem_addTo {source other : Source} {sources : List Source}
    (h : other ∈ source.addTo sources) : other ∈ sources ∨ other = source := by
  rw [addTo] at h
  split at h
  · exact .inl h
  · simpa using h

/-- An identity with one more source, and with other metadata if given. -/
def Identity.extended (identity : Identity) (source : Source) (metadata : Option Metadata) :
    Identity :=
  { identity with
    sources := source.addTo identity.sources
    metadata := metadata.getD identity.metadata }

/-- The ledger in which an identity is extended. -/
def extendEntry (ledger : List Identity) (id : IdentityId) (source : Source)
    (metadata : Option Metadata) : List Identity :=
  ledger.map fun identity =>
    if identity.id = id then identity.extended source metadata else identity

/-- An extension leaves numbers, digests and keys as they are. -/
theorem map_toKnown_extendEntry (ledger : List Identity) (id : IdentityId) (source : Source)
    (metadata : Option Metadata) :
    (extendEntry ledger id source metadata).map (·.toKnown) = ledger.map (·.toKnown) := by
  rw [extendEntry, List.map_map]
  apply List.map_congr_left
  intro identity _
  simp only [Function.comp_apply]
  split <;> rfl

theorem map_id_extendEntry (ledger : List Identity) (id : IdentityId) (source : Source)
    (metadata : Option Metadata) :
    (extendEntry ledger id source metadata).map (·.id) = ledger.map (·.id) := by
  have h := congrArg (List.map Known.id) (map_toKnown_extendEntry ledger id source metadata)
  rwa [List.map_map, List.map_map] at h

/-- The cells that name the identities of a ledger. -/
theorem map_integer_extendEntry (ledger : List Identity) (id : IdentityId) (source : Source)
    (metadata : Option Metadata) :
    (extendEntry ledger id source metadata).map (fun identity => Cell.integer identity.id.value) =
      ledger.map fun identity => Cell.integer identity.id.value := by
  have h := congrArg (List.map fun id : IdentityId => Cell.integer id.value)
    (map_id_extendEntry ledger id source metadata)
  rwa [List.map_map, List.map_map] at h

/-- A ledger stays as it is if an extension adds nothing to the entry. -/
theorem extendEntry_eq_self {ledger : List Identity} {id : IdentityId} {source : Source}
    {metadata : Option Metadata}
    (hsame : ∀ identity ∈ ledger, identity.id = id →
      identity.extended source metadata = identity) :
    extendEntry ledger id source metadata = ledger := by
  have hmap : extendEntry ledger id source metadata = ledger.map fun identity => identity := by
    apply List.map_congr_left
    intro identity hmem
    by_cases hid : identity.id = id
    · rw [if_pos hid, hsame identity hmem hid]
    · exact if_neg hid
  rw [hmap, List.map_id']

/-- A ledger without the identity stays as it is. -/
theorem extendEntry_of_forall_ne {ledger : List Identity} {id : IdentityId}
    (hne : ∀ identity ∈ ledger, identity.id ≠ id) (source : Source) (metadata : Option Metadata) :
    extendEntry ledger id source metadata = ledger :=
  extendEntry_eq_self fun identity hmem hid => absurd hid (hne identity hmem)

/-- The entry of a new identity with its first source. -/
def Draft.entry (draft : Draft) (id : IdentityId) (sources : List Source) (now : Timestamp) :
    Identity where
  id := id
  digest := draft.digest
  key := draft.key
  metadata := draft.metadata
  createdAt := now
  sources := sources

/-- A source under a new identity is its only one. -/
theorem extendEntry_append_entry {ledger : List Identity} {id : IdentityId}
    (hne : ∀ identity ∈ ledger, identity.id ≠ id) (draft : Draft) (source : Source)
    (now : Timestamp) :
    extendEntry (ledger ++ [draft.entry id [] now]) id source none =
      ledger ++ [draft.entry id [source] now] := by
  have hledger := extendEntry_of_forall_ne hne source none
  rw [extendEntry] at hledger
  rw [extendEntry, List.map_append, hledger]
  simp [Draft.entry, Identity.extended, Source.addTo]

namespace Catalog

variable {catalog next : Catalog} {ledger : List Identity}

/-- Whether a catalog keeps a ledger depends on the rows of identities and sources only. -/
theorem Keeps.congr (hkeeps : catalog.Keeps ledger)
    (hidentities : next.identities.rows = catalog.identities.rows)
    (hsources : next.sources.rows.map (·.2) = catalog.sources.rows.map (·.2)) :
    next.Keeps ledger where
  identities := hidentities.trans hkeeps.identities
  sources identity hmem := by
    rw [sourceRows, hsources]
    exact hkeeps.sources identity hmem
  owned := hsources ▸ hkeeps.owned
  textual := hkeeps.textual

theorem Keeps.ordered (hkeeps : catalog.Keeps ledger) :
    ledger.Pairwise fun a b => a.id.value < b.id.value := by
  have hordered := catalog.identities.ordered
  rw [hkeeps.identities, List.pairwise_map] at hordered
  exact hordered

theorem Keeps.eq_of_id_eq (hkeeps : catalog.Keeps ledger) {a b : Identity} (ha : a ∈ ledger)
    (hb : b ∈ ledger) (hid : a.id = b.id) : a = b := by
  have hnodup : (ledger.map (·.id.value)).Nodup :=
    List.pairwise_map.mpr (hkeeps.ordered.imp fun h => Int.ne_of_lt h)
  exact List.inj_on_of_nodup_map hnodup ha hb (congrArg IdentityId.value hid)

theorem Keeps.hasIdentity_iff (hkeeps : catalog.Keeps ledger) (id : IdentityId) :
    catalog.hasIdentity id = true ↔ ∃ identity ∈ ledger, identity.id = id := by
  rw [hasIdentity, Table.isSome_row?_iff, hkeeps.identities]
  constructor
  · rintro ⟨_, hmem, hid⟩
    obtain ⟨identity, hidentity, rfl⟩ := List.mem_map.mp hmem
    exact ⟨identity, hidentity, congrArg IdentityId.mk hid⟩
  · rintro ⟨identity, hidentity, rfl⟩
    exact ⟨_, List.mem_map_of_mem hidentity, rfl⟩

theorem Keeps.hasDigest_iff (hkeeps : catalog.Keeps ledger) (digest : Digest) :
    catalog.hasDigest digest = true ↔ ∃ identity ∈ ledger, identity.digest = digest := by
  simp [hasDigest, hkeeps.identities, Identity.digest_row_eq_iff]

/-! ## Rows of sources -/

theorem any_sameKey_eq (rows : List SourceRow) (row : SourceRow) :
    rows.any (·.sameKey row) =
      (rows.filter fun other => other.identity = row.identity).any (·.sameKey row) := by
  rw [List.any_filter]
  congr 1
  funext other
  simp only [SourceRow.sameKey]
  cases decide (other.identity = row.identity) <;> simp

/-- Whether the row of a source is there already, told by the ledger. -/
theorem Keeps.any_sameKey_row (hkeeps : catalog.Keeps ledger) {identity : Identity}
    (hmem : identity ∈ ledger) {source : Source} (htext : source.Textual) :
    (catalog.sources.rows.any fun entry => entry.2.sameKey (source.row identity.id)) =
      identity.sources.any (·.sameState source) := by
  have hrows := hkeeps.sources identity hmem
  rw [sourceRows] at hrows
  have hany := any_sameKey_eq (catalog.sources.rows.map (·.2)) (source.row identity.id)
  rw [Source.identity_row, hrows, List.any_map, List.any_map] at hany
  apply Eq.trans hany
  apply any_congr_of_mem
  intro other hother
  exact Source.sameKey_row (hkeeps.textual identity hmem other hother) htext identity.id

theorem demandWritable_eq_ok {result : Unit} (h : catalog.demandWritable = .ok result) :
    catalog.access ≠ .readOnly := by
  rw [demandWritable] at h
  split at h
  · cases h
  · assumption

theorem numbered_eq_ok {α : Type} {result : Option α} {value : α}
    (h : numbered result = .ok value) : result = some value := by
  cases result with
  | none => cases h
  | some found =>
      cases h
      rfl

theorem putSourceRow_eq_ok {row : SourceRow} (h : catalog.putSourceRow row = .ok next) :
    catalog.access ≠ .readOnly ∧ ∃ sources, next = { catalog with sources := sources } ∧
      sources.greatestId = catalog.sources.greatestId + 1 ∧ sources.rows.map (·.2) =
        if catalog.sources.rows.any fun entry => entry.2.sameKey row then
          catalog.sources.rows.map (·.2)
        else catalog.sources.rows.map (·.2) ++ [row] := by
  rw [putSourceRow, bind_eq_ok_iff] at h
  obtain ⟨_, hwritable, h⟩ := h
  refine ⟨demandWritable_eq_ok hwritable, ?_⟩
  split at h
  · rename_i hany
    obtain ⟨sources, hsources, h⟩ := bind_eq_ok_iff.mp h
    cases h
    have hskip := numbered_eq_ok hsources
    refine ⟨sources, rfl, Table.greatestId_of_skip? hskip, ?_⟩
    rw [if_pos hany, (Table.skip?_eq_some hskip).1]
  · rename_i hany
    obtain ⟨inserted, hsources, h⟩ := bind_eq_ok_iff.mp h
    cases h
    have hinsert := numbered_eq_ok hsources
    obtain ⟨hid, hrows, _⟩ := Table.insert?_eq_some hinsert
    refine ⟨inserted.2, rfl, (Table.greatestId_of_insert? hinsert).trans hid, ?_⟩
    rw [if_neg hany, hrows, List.map_append]
    rfl

theorem extendEntry_none_of_any (hkeeps : catalog.Keeps ledger) {identity : Identity}
    (hmem : identity ∈ ledger) {source : Source}
    (hany : identity.sources.any (·.sameState source) = true) :
    extendEntry ledger identity.id source none = ledger := by
  refine (List.map_congr_left fun other hother => ?_).trans (List.map_id _)
  by_cases hid : other.id = identity.id
  · rw [if_pos hid, hkeeps.eq_of_id_eq hother hmem hid]
    simp [Identity.extended, Source.addTo, hany]
  · rw [if_neg hid]
    rfl

/-- A row after all others extends the entry of its identity. -/
theorem Keeps.append (hkeeps : catalog.Keeps ledger) {identity : Identity}
    (hmem : identity ∈ ledger) {source : Source} (htext : source.Textual)
    (hany : identity.sources.any (·.sameState source) = false)
    (hidentities : next.identities.rows = catalog.identities.rows)
    (hsources : next.sources.rows.map (·.2) =
      catalog.sources.rows.map (·.2) ++ [source.row identity.id]) :
    next.Keeps (extendEntry ledger identity.id source none) where
  identities := by
    rw [hidentities, hkeeps.identities, extendEntry, List.map_map]
    apply List.map_congr_left
    intro other hother
    simp only [Function.comp_apply]
    split <;> rfl
  sources := by
    intro extended hextended
    obtain ⟨other, hother, rfl⟩ := List.mem_map.mp hextended
    have hrows := hkeeps.sources other hother
    rw [sourceRows] at hrows ⊢
    by_cases hid : other.id = identity.id
    · have heq := hkeeps.eq_of_id_eq hother hmem hid
      subst heq
      rw [if_pos rfl]
      simp only [Identity.extended, Source.addTo, hany, Bool.false_eq_true, if_false]
      rw [hsources, List.filter_append, hrows, List.map_append]
      simp [Source.identity_row]
    · rw [if_neg hid, hsources, List.filter_append, hrows, List.filter_cons_of_neg]
      · simp
      · intro hcell
        rw [decide_eq_true_eq, Source.identity_row, Cell.integer.injEq] at hcell
        exact hid (congrArg IdentityId.mk hcell.symm)
  owned := by
    rw [hsources, map_integer_extendEntry]
    intro row hrow
    rcases List.mem_append.mp hrow with hrow | hrow
    · exact hkeeps.owned row hrow
    · rw [List.mem_singleton.mp hrow, Source.identity_row]
      exact List.mem_map.mpr ⟨identity, hmem, rfl⟩
  textual := by
    intro extended hextended
    obtain ⟨other, hother, rfl⟩ := List.mem_map.mp hextended
    split
    · intro kept hkept
      exact (Source.mem_addTo hkept).elim (hkeeps.textual other hother kept) fun h => h ▸ htext
    · exact hkeeps.textual other hother

/-- Placing a source extends the entry of its identity. -/
theorem Keeps.placeSource (hkeeps : catalog.Keeps ledger) {id : IdentityId} {source : Source}
    (hid : ∃ identity ∈ ledger, identity.id = id) (h : catalog.placeSource id source = .ok next) :
    catalog.access ≠ .readOnly ∧ source.Textual ∧
      ∃ sources, next = { catalog with sources := sources } ∧
        sources.greatestId = catalog.sources.greatestId + 1 ∧
        next.Keeps (extendEntry ledger id source none) := by
  obtain ⟨identity, hmem, rfl⟩ := hid
  rw [Catalog.placeSource] at h
  split at h
  · cases h
  · rename_i path hpath
    have htext : source.Textual := by
      rw [Source.Textual, hpath]
      rfl
    have hrow : SourceRow.ofSource identity.id path source = source.row identity.id := by
      rw [Source.row, hpath, Option.getD_some]
    rw [hrow] at h
    obtain ⟨haccess, sources, rfl, hgreatest, hrows⟩ := putSourceRow_eq_ok h
    refine ⟨haccess, htext, sources, rfl, hgreatest, ?_⟩
    rw [hkeeps.any_sameKey_row hmem htext] at hrows
    by_cases hany : identity.sources.any (·.sameState source) = true
    · rw [if_pos hany] at hrows
      rw [extendEntry_none_of_any hkeeps hmem hany]
      exact hkeeps.congr rfl hrows
    · rw [if_neg hany] at hrows
      exact hkeeps.append hmem htext (by simpa using hany) rfl hrows

end Catalog

end AudioCatalog
