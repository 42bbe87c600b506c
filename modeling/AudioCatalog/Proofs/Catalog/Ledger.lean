import AudioCatalog.Proofs.Catalog.ReadBack

/-!
# The ledger that a catalog keeps

A ledger is a list of identities with their sources, the oldest first.  `Catalog.Keeps`
relates the rows of a catalog to the ledger that they keep: one row for each identity, and
below each identity one row for each of its sources, in the same order.  The look-ups of a
catalog are then look-ups in its ledger.

The ledger knows the times as they were given.  What is read of them again is
`Identity.asStored`.
-/

namespace AudioCatalog

/-! ## Rows of ledger entries -/

namespace Source

/-- Whether the path name is one that the catalog can store. -/
def Textual (source : Source) : Prop :=
  source.path.text?.isSome

/-- Whether two sources agree in path name, modification time and size. -/
def sameState (a b : Source) : Bool :=
  a.path = b.path && a.modified = b.modified && a.size = b.size

/-- The row of a source of an identity. -/
def row (id : IdentityId) (source : Source) : SourceRow :=
  .ofSource id (source.path.text?.getD "") source

theorem read_row {source : Source} (htext : source.Textual) (id : IdentityId) :
    (source.row id).read = .ok source.asStored := by
  obtain ⟨path, hpath⟩ := Option.isSome_iff_exists.mp htext
  rw [row, hpath, Option.getD_some, SourceRow.read_ofSource hpath]

theorem identity_row (id : IdentityId) (source : Source) :
    (source.row id).identity = .integer id.value :=
  rfl

/-- Rows of sources agree in their key if the sources agree in their state. -/
theorem sameKey_row {a b : Source} (ha : a.Textual) (hb : b.Textual) (id : IdentityId) :
    (a.row id).sameKey (b.row id) = a.sameState b := by
  obtain ⟨first, hfirst⟩ := Option.isSome_iff_exists.mp ha
  obtain ⟨second, hsecond⟩ := Option.isSome_iff_exists.mp hb
  have hpath : first = second ↔ a.path = b.path := by
    constructor
    · intro heq
      rw [← Pathname.ofText_of_text? hfirst, heq, Pathname.ofText_of_text? hsecond]
    · intro heq
      rw [heq, hsecond] at hfirst
      exact (Option.some.inj hfirst).symm
  have hsize : storedSize a.size = storedSize b.size ↔ a.size = b.size :=
    ⟨storedSize_injective, congrArg storedSize⟩
  simp [SourceRow.sameKey, row, SourceRow.ofSource, sameState, hfirst, hsecond, hpath, hsize]

end Source

namespace Identity

/-- The row of an identity. -/
def row (identity : Identity) : IdentityRow :=
  .ofDraft ⟨identity.digest, identity.key, identity.metadata⟩ identity.createdAt

/-- An identity as it is read again. -/
def asStored (identity : Identity) : Identity :=
  { identity with
    createdAt := Timestamp.ofStored identity.createdAt
    sources := identity.sources.map Source.asStored }

theorem read_row (identity : Identity) :
    identity.row.read identity.id.value = .ok { identity.asStored with sources := [] } := by
  rw [row, IdentityRow.read_ofDraft]
  rfl

theorem digest_row_eq_iff (identity : Identity) (digest : Digest) :
    identity.row.digest = .blob digest.bytes ↔ identity.digest = digest := by
  constructor
  · intro h
    have hbytes : identity.digest.bytes = digest.bytes := Cell.blob.inj h
    cases hdigest : identity.digest
    cases digest
    simp_all
  · rintro rfl
    rfl

end Identity

/-! ## Catalogs and ledgers -/

/-- The rows of the sources of an identity. -/
def Catalog.sourceRows (catalog : Catalog) (id : IdentityId) : List SourceRow :=
  (catalog.sources.rows.map (·.2)).filter fun row => row.identity = .integer id.value

/-- Whether the rows of a catalog are those of a ledger. -/
structure Catalog.Keeps (catalog : Catalog) (ledger : List Identity) : Prop where
  identities : catalog.identities.rows =
    ledger.map fun identity => (identity.id.value, identity.row)
  sources : ∀ identity ∈ ledger,
    catalog.sourceRows identity.id = identity.sources.map (Source.row identity.id)
  owned : ∀ row ∈ catalog.sources.rows.map (·.2),
    row.identity ∈ ledger.map fun identity => Cell.integer identity.id.value
  textual : ∀ identity ∈ ledger, ∀ source ∈ identity.sources, source.Textual

namespace Catalog.Keeps

variable {catalog : Catalog} {ledger : List Identity}

theorem mem_rows (hkeeps : catalog.Keeps ledger) {identity : Identity} (hmem : identity ∈ ledger) :
    (identity.id.value, identity.row) ∈ catalog.identities.rows := by
  rw [hkeeps.identities]
  exact List.mem_map.mpr ⟨identity, hmem, rfl⟩

theorem exists_of_mem_rows (hkeeps : catalog.Keeps ledger) {entry : Int × IdentityRow}
    (hmem : entry ∈ catalog.identities.rows) :
    ∃ identity ∈ ledger, entry = (identity.id.value, identity.row) := by
  rw [hkeeps.identities] at hmem
  obtain ⟨identity, hidentity, rfl⟩ := List.mem_map.mp hmem
  exact ⟨identity, hidentity, rfl⟩

theorem sourcesOf (hkeeps : catalog.Keeps ledger) {identity : Identity} (hmem : identity ∈ ledger) :
    catalog.sourcesOf identity.id = .ok (identity.sources.map Source.asStored) := by
  have hrows := hkeeps.sources identity hmem
  rw [sourceRows, List.filter_map] at hrows
  have hread : catalog.sourcesOf identity.id =
      (identity.sources.map (Source.row identity.id)).mapM SourceRow.read := by
    rw [← hrows, List.mapM_map]
    rfl
  rw [hread, List.mapM_map]
  exact mapM_eq_pure_map fun source hsource =>
    source.read_row (hkeeps.textual identity hmem source hsource) identity.id

theorem withSources (hkeeps : catalog.Keeps ledger) {identity : Identity}
    (hmem : identity ∈ ledger) :
    catalog.withSources { identity.asStored with sources := [] } = .ok identity.asStored := by
  have hsources := hkeeps.sourcesOf hmem
  rw [Catalog.withSources]
  simp only [Identity.asStored, hsources, ok_bind]
  rfl

/-- A selection of rows is a selection of the ledger, where look-ups see anything. -/
theorem select (hkeeps : catalog.Keeps ledger) (condition : Int → IdentityRow → Bool) :
    catalog.select condition = (catalog.demandVisible.map fun () =>
      (ledger.filter fun identity => condition identity.id.value identity.row).map
        Identity.asStored).mapError .store := by
  have hread : ((catalog.identities.rows.filter fun entry => condition entry.1 entry.2).mapM
      fun entry => entry.2.read entry.1) =
        Except.ok ((ledger.filter fun identity => condition identity.id.value identity.row).map
          fun identity => { identity.asStored with sources := [] }) := by
    rw [hkeeps.identities, List.filter_map, List.mapM_map]
    exact mapM_eq_pure_map fun identity _ => identity.read_row
  have hsources : ((ledger.filter fun identity => condition identity.id.value identity.row).map
      fun identity => { identity.asStored with sources := [] }).mapM catalog.withSources =
        Except.ok ((ledger.filter fun identity => condition identity.id.value identity.row).map
          Identity.asStored) := by
    rw [List.mapM_map]
    exact mapM_eq_pure_map fun identity hmem => hkeeps.withSources (List.mem_filter.mp hmem).1
  rw [Catalog.select, hread, ok_bind, hsources]
  cases catalog.demandVisible <;> rfl

/-- The snapshot of a catalog is its ledger. -/
theorem contents (hkeeps : catalog.Keeps ledger) :
    catalog.contents = (catalog.demandVisible.map fun () =>
      ledger.map Identity.asStored).mapError .store := by
  rw [Catalog.contents, hkeeps.select, List.filter_eq_self.mpr fun _ _ => rfl]

theorem byDigest (hkeeps : catalog.Keeps ledger) (digest : Digest) :
    catalog.byDigest digest = (catalog.demandVisible.map fun () =>
      (ledger.find? fun identity => identity.digest = digest).map
        Identity.asStored).mapError .store := by
  have hcondition : (fun identity : Identity => decide (identity.row.digest = .blob digest.bytes)) =
      fun identity => decide (identity.digest = digest) := by
    funext identity
    simp only [identity.digest_row_eq_iff]
  rw [Catalog.byDigest, hkeeps.select, hcondition]
  cases catalog.demandVisible with
  | error fault => rfl
  | ok _ => simp [Except.map, Except.mapError]

/-- The identities in a range of buckets are those with a key in one of them. -/
theorem byBucket (hkeeps : catalog.Keeps ledger) (first last : Nat) :
    catalog.byBucket first last = (catalog.demandVisible.map fun () =>
      (ledger.filter fun identity => identity.key.any fun key =>
        first ≤ key.bucket && key.bucket ≤ last).map Identity.asStored).mapError .store := by
  have hcondition : (fun identity : Identity =>
        identity.row.bucket.isBetween (Int.ofNat first) (Int.ofNat last)) =
      fun identity => identity.key.any fun key => first ≤ key.bucket && key.bucket ≤ last := by
    funext identity
    cases hkey : identity.key with
    | none => simp [Identity.row, IdentityRow.ofDraft, hkey, Cell.isBetween]
    | some key => simp [Identity.row, IdentityRow.ofDraft, hkey, Cell.isBetween]
  rw [Catalog.byBucket, hkeeps.select, hcondition]

end Catalog.Keeps

end AudioCatalog
