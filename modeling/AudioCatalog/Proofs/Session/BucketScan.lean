import AudioCatalog.Proofs.Catalog.Candidates
import AudioCatalog.Proofs.Session.Consistency

/-!
# The scan of buckets

A careful comparison asks the catalog for the identities in the buckets near a key and no
others.  Whatever the catalog holds, it comes to the same resolution as a comparison with
every identity: none outside of these buckets would be a candidate.
-/

namespace AudioCatalog

namespace Catalog

variable {catalog : Catalog} {ledger : List Identity}

/-- Look-ups in a catalog that give every identity for any range of buckets. -/
def wholeLookup (catalog : Catalog) : Lookup Error where
  byDigest := catalog.lookup.byDigest
  byBucket _ := catalog.contents.map (List.map (·.toKnown))

/-- The candidates for a key are all in the buckets near it. -/
theorem Keeps.filterMap_candidate? (hkeeps : catalog.Keeps ledger) (key : AcousticKey) :
    (catalog.lookup.byBucket key.nearbyBuckets).map
        (List.filterMap (Resolution.candidate? key)) =
      (catalog.wholeLookup.byBucket key.nearbyBuckets).map
        (List.filterMap (Resolution.candidate? key)) := by
  simp only [lookup, wholeLookup, hkeeps.byBucket, hkeeps.contents]
  cases catalog.demandVisible with
  | error fault => rfl
  | ok _ =>
      apply congrArg Except.ok
      rw [List.map_map, List.map_map, List.filterMap_map, List.filterMap_map, List.filterMap_filter]
      apply List.filterMap_congr
      intro identity _
      split
      · rfl
      · rename_i hfar
        exact (Resolution.candidate?_eq_none (Bool.eq_false_iff.mpr hfar)).symm

/-- A careful comparison that scans buckets comes to the same resolution as one that scans
everything. -/
theorem Keeps.identify_eq (hkeeps : catalog.Keeps ledger) (digest : Digest)
    (key : Option AcousticKey) :
    identify digest key catalog.lookup true = identify digest key catalog.wholeLookup true := by
  have hdigest : catalog.wholeLookup.byDigest = catalog.lookup.byDigest := rfl
  rw [identify.eq_def, identify.eq_def, hdigest]
  apply bind_congr
  intro found
  cases found with
  | some known => rfl
  | none =>
      cases key with
      | none => rfl
      | some key =>
          have hcandidates := hkeeps.filterMap_candidate? key
          simp only
          generalize catalog.lookup.byBucket key.nearbyBuckets = scanned at hcandidates ⊢
          generalize catalog.wholeLookup.byBucket key.nearbyBuckets = whole at hcandidates ⊢
          cases scanned with
          | error scanError =>
              cases whole with
              | error wholeError =>
                  cases hcandidates
                  rfl
              | ok all => cases hcandidates
          | ok near =>
              cases whole with
              | error wholeError => cases hcandidates
              | ok all =>
                  have hsame := Except.ok.inj hcandidates
                  simp only [ok_bind, hsame]

end Catalog

/-- Bucket scans never change a resolution.  In a session with a new catalog, however it goes
on, a careful comparison of any digest and key finds the same as if it read the whole
catalog, for any two keys that match are in buckets near each other. -/
theorem Session.identify_eq_of_run :
    (∀ {first last : Session} {answers : List Answer}, first.Fresh → Run first answers last →
      ∀ catalog, last.Holds catalog → ∀ digest key,
        identify digest key catalog.lookup true = identify digest key catalog.wholeLookup true) ∧
      ∀ a b : AcousticKey, matchThreshold ≤ a.similarity b →
        a.nearbyBuckets.1 ≤ b.bucket ∧ b.bucket ≤ a.nearbyBuckets.2 := by
  refine ⟨fun hfresh hrun catalog hholds digest key => ?_, AcousticKey.bucket_nearby_of_matches⟩
  obtain ⟨known, hknows⟩ := Knows.run hrun (Knows.of_fresh hfresh)
  have hsame := Holds.sameTables hholds hknows.holds
  obtain ⟨ledger, hkeeps, _, _⟩ :=
    hknows.sound.congr hsame.identities hsame.sources hsame.tickets
  exact hkeeps.identify_eq digest key

/-- The key of a recording of ten frames, all of them silent. -/
def AcousticKey.silent : AcousticKey where
  vector := List.replicate 256 0
  frames := 10
  length_eq := List.length_replicate
  frames_pos := by decide
  frames_lt := by decide

/-- A comparison after the first insertion, and a key that matches itself. -/
theorem Session.identify_eq_after_insert :
    let next := (World.blank.call (.insert { Draft.blank with key := some .silent } .blank)).1
    (∀ digest, identify digest (some .silent) next.catalog.lookup true =
      identify digest (some .silent) next.catalog.wholeLookup true) ∧
      matchThreshold ≤ AcousticKey.silent.similarity .silent ∧
      AcousticKey.silent.nearbyBuckets.1 ≤ AcousticKey.silent.bucket ∧
      AcousticKey.silent.bucket ≤ AcousticKey.silent.nearbyBuckets.2 := by
  intro next
  have hfresh : (opened .exclusive .blank).Fresh := .refl _
  have hrun : Run (opened .exclusive .blank) _ (opened .exclusive next) :=
    .step (.start _) (.call (.insert { Draft.blank with key := some .silent } .blank))
  have hmatch : matchThreshold ≤ AcousticKey.silent.similarity .silent := by decide +kernel
  obtain ⟨hscan, hnearby⟩ := identify_eq_of_run
  exact ⟨fun digest => hscan hfresh hrun _ (.refl _) digest _, hmatch, hnearby _ _ hmatch⟩

end AudioCatalog
