import AudioCatalog.Proofs.Acoustic.Buckets
import AudioCatalog.Proofs.Catalog.Identification

/-!
# Candidates in a ledger

The candidates for a key are the entries of the ledger that match it, in whatever buckets they
are.  An entry that does not match changes no comparison, and one that does can change only
whether there is a clear lead.
-/

namespace AudioCatalog

namespace Resolution

/-- An identity whose key is not in the buckets near another key is no candidate for it. -/
theorem candidate?_eq_none {key : AcousticKey} {known : Known}
    (hfar : (known.key.any fun other =>
      key.nearbyBuckets.1 ≤ other.bucket && other.bucket ≤ key.nearbyBuckets.2) = false) :
    candidate? key known = none := by
  cases hknown : known.key with
  | none => simp only [candidate?, hknown, Option.bind_none]
  | some other =>
      simp only [candidate?, hknown, Option.bind_some]
      apply if_neg
      intro hmatch
      obtain ⟨hfirst, hlast⟩ := AcousticKey.bucket_nearby_of_matches key other hmatch
      rw [hknown, Option.any_some, decide_eq_true hfirst, decide_eq_true hlast] at hfar
      cases hfar

/-- A recording is new if there are no candidates, and only then. -/
theorem verdictOf_eq_new_iff {accepted : List Candidate} :
    verdictOf accepted = .new ↔ accepted = [] := by
  constructor
  · intro h
    have hnone : accepted.mergeSort precedes = [] := by
      cases hsorted : accepted.mergeSort precedes with
      | nil => rfl
      | cons first rest =>
          have hfirst : dropRepeats none (first :: rest) =
              first :: dropRepeats (some first.id) rest := by
            rw [dropRepeats, if_neg (Option.some_ne_none first.id).symm]
          rw [verdictOf, hsorted, hfirst] at h
          cases hrest : dropRepeats (some first.id) rest with
          | nil =>
              rw [hrest] at h
              cases h
          | cons second rest =>
              rw [hrest] at h
              simp only at h
              split at h <;> cases h
    exact (hnone ▸ List.mergeSort_perm accepted precedes).nil_eq.symm
  · rintro rfl
    rw [verdictOf, List.mergeSort_nil]
    rfl

/-- Several candidates are too close to call, or one of them leads. -/
theorem label_verdictOf {accepted : List Candidate} (hsome : accepted ≠ []) :
    (verdictOf accepted).label = "perceptual" ∨ (verdictOf accepted).label = "ambiguous" := by
  cases hverdict : verdictOf accepted with
  | new => exact absurd (verdictOf_eq_new_iff.mp hverdict) hsome
  | exact id => exact absurd hverdict (verdictOf_ne_exact accepted id)
  | perceptual id similarity => exact .inl rfl
  | ambiguous candidates => exact .inr rfl

end Resolution

/-- The entries of a ledger that match a key. -/
def candidatesIn (ledger : List Identity) (key : AcousticKey) : List Candidate :=
  ledger.filterMap fun identity => Resolution.candidate? key identity.toKnown

section ResolutionIn

variable {ledger next : List Identity} {digest : Digest} {key : Option AcousticKey}
  {entry : Identity}

/-- A careful comparison of an unknown digest goes by the candidates. -/
theorem resolutionIn_some (hnew : ∀ identity ∈ ledger, identity.digest ≠ digest)
    (key : AcousticKey) :
    resolutionIn ledger digest (some key) true =
      ⟨Resolution.verdictOf (candidatesIn ledger key), false⟩ := by
  rcases resolutionIn_cases ledger digest with ⟨identity, hmem, hsame, _⟩ | ⟨_, hfind⟩
  · exact absurd hsame (hnew identity hmem)
  · simp only [resolutionIn, hfind, Bool.not_true, Bool.false_eq_true, if_false,
      List.filterMap_filter]
    congr 2
    apply List.filterMap_congr
    intro identity _
    split
    · rfl
    · rename_i hfar
      exact (Resolution.candidate?_eq_none (Bool.eq_false_iff.mpr hfar)).symm

theorem resolutionIn_none (hnew : ∀ identity ∈ ledger, identity.digest ≠ digest) :
    resolutionIn ledger digest none true = ⟨.new, true⟩ := by
  rcases resolutionIn_cases ledger digest with ⟨identity, hmem, hsame, _⟩ | ⟨_, hfind⟩
  · exact absurd hsame (hnew identity hmem)
  · simp only [resolutionIn, hfind, Bool.not_true, Bool.false_eq_true, if_false]

theorem candidatesIn_eq (ledger : List Identity) (key : AcousticKey) :
    candidatesIn ledger key = (ledger.map (·.toKnown)).filterMap (Resolution.candidate? key) := by
  rw [List.filterMap_map]
  rfl

theorem candidatesIn_append (ledger : List Identity) (entry : Identity) (key : AcousticKey) :
    candidatesIn (ledger ++ [entry]) key =
      candidatesIn ledger key ++ (Resolution.candidate? key entry.toKnown).toList := by
  rw [candidatesIn, List.filterMap_append, ← candidatesIn]
  cases hcandidate : Resolution.candidate? key entry.toKnown with
  | none => simp [hcandidate]
  | some candidate => simp [hcandidate]

/-- A comparison goes by the numbers, digests and keys of the entries. -/
theorem resolutionIn_congr (hknown : next.map (·.toKnown) = ledger.map (·.toKnown))
    (digest : Digest) (key : Option AcousticKey) (careful : Bool) :
    resolutionIn next digest key careful = resolutionIn ledger digest key careful := by
  have hfind : ∀ entries : List Identity,
      (entries.find? fun identity => identity.digest = digest).map (·.toKnown) =
        (entries.map (·.toKnown)).find? fun known => known.digest = digest := by
    intro entries
    rw [List.find?_map]
    rfl
  have hsame := (hfind next).trans ((congrArg _ hknown).trans (hfind ledger).symm)
  cases hledger : ledger.find? fun identity => identity.digest = digest with
  | some identity =>
      rw [hledger, Option.map_some, Option.map_eq_some_iff] at hsame
      obtain ⟨other, hother, hsame⟩ := hsame
      have hid : other.id = identity.id := congrArg Known.id hsame
      simp only [resolutionIn, hledger, hother, hid]
  | none =>
      rw [hledger, Option.map_none, Option.map_eq_none_iff] at hsame
      have hnew : ∀ entries : List Identity,
          entries.find? (fun identity => identity.digest = digest) = none →
            ∀ identity ∈ entries, identity.digest ≠ digest := by
        intro entries hnone
        simpa using hnone
      cases careful with
      | false =>
          rw [resolutionIn_of_forall_ne (hnew _ hledger), resolutionIn_of_forall_ne (hnew _ hsame)]
      | true =>
          cases key with
          | none => rw [resolutionIn_none (hnew _ hledger), resolutionIn_none (hnew _ hsame)]
          | some key =>
              rw [resolutionIn_some (hnew _ hledger), resolutionIn_some (hnew _ hsame),
                candidatesIn_eq, candidatesIn_eq, hknown]

theorem forall_append_ne (hnew : ∀ identity ∈ ledger, identity.digest ≠ digest)
    (hother : entry.digest ≠ digest) :
    ∀ identity ∈ ledger ++ [entry], identity.digest ≠ digest := by
  intro identity hmem
  rcases List.mem_append.mp hmem with hmem | hmem
  · exact hnew identity hmem
  · rw [List.mem_singleton.mp hmem]
    exact hother

/-- The first entry of a digest is found by it. -/
theorem resolutionIn_append_self (hnew : ∀ identity ∈ ledger, identity.digest ≠ digest)
    (hentry : entry.digest = digest) (key : Option AcousticKey) (careful : Bool) :
    resolutionIn (ledger ++ [entry]) digest key careful = ⟨.exact entry.id, false⟩ := by
  rcases resolutionIn_cases (ledger ++ [entry]) digest with
    ⟨identity, hmem, hsame, hfound⟩ | ⟨hnone, -⟩
  · rw [hfound]
    rcases List.mem_append.mp hmem with hmem | hmem
    · exact absurd hsame (hnew identity hmem)
    · rw [List.mem_singleton.mp hmem]
  · exact absurd hentry (hnone entry (List.mem_append_right _ (List.mem_singleton.mpr rfl)))

/-- An entry more that neither has the digest nor matches the key changes nothing. -/
theorem resolutionIn_append (hother : entry.digest ≠ digest)
    (hfar : ∀ own ∈ key, ∀ known ∈ entry.key, ¬ matchThreshold ≤ own.similarity known) :
    resolutionIn (ledger ++ [entry]) digest key true = resolutionIn ledger digest key true := by
  cases hfind : ledger.find? fun identity => identity.digest = digest with
  | some identity => simp only [resolutionIn, List.find?_append, hfind, Option.some_or]
  | none =>
      have hnew : ∀ identity ∈ ledger, identity.digest ≠ digest := by simpa using hfind
      have hmore := forall_append_ne hnew hother
      cases key with
      | none => rw [resolutionIn_none hnew, resolutionIn_none hmore]
      | some own =>
          have hnone : Resolution.candidate? own entry.toKnown = none := by
            cases hkey : entry.key with
            | none => simp only [Resolution.candidate?, hkey, Option.bind_none]
            | some known =>
                simp only [Resolution.candidate?, hkey, Option.bind_some]
                exact if_neg (hfar own rfl known hkey)
          rw [resolutionIn_some hnew, resolutionIn_some hmore, candidatesIn_append, hnone,
            Option.toList_none, List.append_nil]

/-- An entry more can only make a recording that belongs to none sound like one of them. -/
theorem label_resolutionIn_append (hother : entry.digest ≠ digest)
    (hmatched : (resolutionIn ledger digest key true).verdict.matched = none) :
    (resolutionIn (ledger ++ [entry]) digest key true).verdict.label =
        (resolutionIn ledger digest key true).verdict.label ∨
      (resolutionIn (ledger ++ [entry]) digest key true).verdict.label = "perceptual" := by
  rcases resolutionIn_cases ledger digest with ⟨_, _, _, hfound⟩ | ⟨hnew, _⟩
  · rw [hfound] at hmatched
    cases hmatched
  have hmore := forall_append_ne hnew hother
  cases key with
  | none =>
      rw [resolutionIn_none hnew, resolutionIn_none hmore]
      exact .inl rfl
  | some own =>
      rw [resolutionIn_some hnew] at hmatched
      rw [resolutionIn_some hnew, resolutionIn_some hmore, candidatesIn_append]
      cases hcandidate : Resolution.candidate? own entry.toKnown with
      | none =>
          rw [Option.toList_none, List.append_nil]
          exact .inl rfl
      | some candidate =>
          rw [Option.toList_some]
          rcases (Verdict.matched_eq_none_iff _).mp hmatched with hverdict | ⟨_, hverdict⟩
          · -- The entry is the only candidate.
            rw [Resolution.verdictOf_eq_new_iff.mp hverdict, List.nil_append]
            exact .inr (by rw [Resolution.verdictOf, List.mergeSort_singleton]; rfl)
          · rw [hverdict]
            exact (Resolution.label_verdictOf (by simp)).symm

end ResolutionIn

end AudioCatalog
