import AudioCatalog.Proofs.Catalog.Entries

/-!
# Identification in a ledger

Whatever a catalog answers to a comparison, it answers by its ledger.  `resolutionIn` is the
answer for a ledger, and its verdicts name entries of the ledger only: the one of the same
digest, or else one that sounds alike and has another digest.
-/

namespace AudioCatalog

namespace Resolution

theorem mem_of_mem_dropRepeats {last : Option IdentityId} {candidates : List Candidate}
    {candidate : Candidate} (h : candidate ∈ dropRepeats last candidates) :
    candidate ∈ candidates := by
  fun_induction dropRepeats last candidates with
  | case1 => cases h
  | case2 candidate rest ih => exact List.mem_cons_of_mem _ (ih h)
  | case3 last candidate rest hother ih =>
      rcases List.mem_cons.mp h with rfl | h
      · exact List.mem_cons_self
      · exact List.mem_cons_of_mem _ (ih h)

/-- The identity that leads clearly is one of the candidates. -/
theorem mem_of_verdictOf_perceptual {accepted : List Candidate} {id : IdentityId}
    {similarity : Rat} (h : verdictOf accepted = .perceptual id similarity) :
    ∃ candidate ∈ accepted, candidate.id = id := by
  have hmem : ∀ candidate ∈ dropRepeats none (accepted.mergeSort precedes),
      candidate ∈ accepted := by
    intro candidate hcandidate
    exact (List.mergeSort_perm accepted precedes).mem_iff.mp (mem_of_mem_dropRepeats hcandidate)
  rw [verdictOf] at h
  split at h
  · cases h
  · rename_i only honly
    cases h
    exact ⟨only, hmem only (honly ▸ List.mem_cons_self), rfl⟩
  · rename_i best second rest hbest
    split at h
    · cases h
      exact ⟨best, hmem best (hbest ▸ List.mem_cons_self), rfl⟩
    · cases h

theorem verdictOf_ne_exact (accepted : List Candidate) (id : IdentityId) :
    verdictOf accepted ≠ .exact id := by
  intro h
  rw [verdictOf] at h
  split at h
  · cases h
  · cases h
  · split at h <;> cases h

theorem id_of_candidate? {key : AcousticKey} {known : Known} {candidate : Candidate}
    (h : candidate? key known = some candidate) : candidate.id = known.id := by
  rw [candidate?, Option.bind_eq_some_iff] at h
  obtain ⟨other, _, h⟩ := h
  simp only at h
  split at h
  · cases h
    rfl
  · cases h

end Resolution

theorem Verdict.matched_eq_none_iff (verdict : Verdict) :
    verdict.matched = none ↔
      verdict = .new ∨ ∃ candidates, verdict = .ambiguous candidates := by
  cases verdict <;> simp [matched]

/-- The resolution of a recording over a ledger. -/
def resolutionIn (ledger : List Identity) (digest : Digest) (key : Option AcousticKey)
    (careful : Bool) : Resolution :=
  match ledger.find? fun identity => identity.digest = digest with
  | some identity => ⟨.exact identity.id, false⟩
  | none =>
    if !careful then ⟨.new, false⟩
    else match key with
      | none => ⟨.new, true⟩
      | some key =>
        let near := ledger.filter fun identity => identity.key.any fun other =>
          key.nearbyBuckets.1 ≤ other.bucket && other.bucket ≤ key.nearbyBuckets.2
        ⟨Resolution.verdictOf (near.filterMap fun identity =>
          Resolution.candidate? key identity.toKnown), false⟩

section ResolutionIn

variable {ledger : List Identity} {digest : Digest} {key : Option AcousticKey} {careful : Bool}

/-- Either an entry has the digest, and its identity is found in careful mode or not, or
none has it. -/
theorem resolutionIn_cases (ledger : List Identity) (digest : Digest) :
    (∃ identity ∈ ledger, identity.digest = digest ∧ ∀ key careful,
      resolutionIn ledger digest key careful = ⟨.exact identity.id, false⟩) ∨
      ((∀ identity ∈ ledger, identity.digest ≠ digest) ∧
        ledger.find? (fun identity => identity.digest = digest) = none) := by
  cases hfind : ledger.find? fun identity => identity.digest = digest with
  | some identity =>
      refine .inl ⟨identity, List.mem_of_find?_eq_some hfind, ?_, fun key careful => ?_⟩
      · simpa using List.find?_some hfind
      · simp only [resolutionIn, hfind]
  | none => exact .inr ⟨by simpa using hfind, rfl⟩

/-- A digest that is not there is that of a new recording, if digests alone are compared. -/
theorem resolutionIn_of_forall_ne (hdigest : ∀ identity ∈ ledger, identity.digest ≠ digest) :
    resolutionIn ledger digest key false = ⟨.new, false⟩ := by
  rcases resolutionIn_cases ledger digest with ⟨identity, hmem, hsame, _⟩ | ⟨_, hfind⟩
  · exact absurd hsame (hdigest identity hmem)
  · simp only [resolutionIn, hfind, Bool.not_false, if_true]

/-- Only a recording without a key and of an unknown digest is compared by its digest alone
when a careful comparison was asked for. -/
theorem digestOnly_resolutionIn :
    (resolutionIn ledger digest key careful).digestOnly = true ↔
      careful = true ∧ key = none ∧ ∀ identity ∈ ledger, identity.digest ≠ digest := by
  rcases resolutionIn_cases ledger digest with ⟨identity, hmem, hsame, hfound⟩ | ⟨hnew, hfind⟩
  · rw [hfound]
    refine iff_of_false Bool.false_ne_true fun h => h.2.2 identity hmem hsame
  · cases careful with
    | false => simp [resolutionIn, hfind]
    | true =>
        cases key with
        | none => simpa [resolutionIn, hfind] using hnew
        | some key => simp [resolutionIn, hfind]

/-- An exact verdict names the entry of the digest. -/
theorem exists_of_exact {id : IdentityId}
    (h : (resolutionIn ledger digest key careful).verdict = .exact id) :
    ∃ identity ∈ ledger, identity.id = id ∧ identity.digest = digest := by
  rcases resolutionIn_cases ledger digest with ⟨identity, hmem, hsame, hfound⟩ | ⟨_, hfind⟩
  · rw [hfound] at h
    cases h
    exact ⟨identity, hmem, rfl, hsame⟩
  · simp only [resolutionIn, hfind] at h
    split at h
    · cases h
    · split at h
      · cases h
      · exact absurd h (Resolution.verdictOf_ne_exact _ id)

/-- A perceptual verdict names an entry, and no entry has the digest. -/
theorem exists_of_perceptual {id : IdentityId} {similarity : Rat}
    (h : (resolutionIn ledger digest key careful).verdict = .perceptual id similarity) :
    (∃ identity ∈ ledger, identity.id = id) ∧
      ∀ identity ∈ ledger, identity.digest ≠ digest := by
  rcases resolutionIn_cases ledger digest with ⟨identity, hmem, hsame, hfound⟩ | ⟨hnew, hfind⟩
  · rw [hfound] at h
    cases h
  · refine ⟨?_, hnew⟩
    simp only [resolutionIn, hfind] at h
    split at h
    · cases h
    · split at h
      · cases h
      · obtain ⟨candidate, hcandidate, rfl⟩ := Resolution.mem_of_verdictOf_perceptual h
        obtain ⟨identity, hidentity, hcandidate⟩ := List.mem_filterMap.mp hcandidate
        exact ⟨identity, (List.mem_filter.mp hidentity).1,
          (Resolution.id_of_candidate? hcandidate).symm⟩

/-- A recording is matched with an entry, or else its digest is new. -/
theorem matched_resolutionIn (ledger : List Identity) (digest : Digest)
    (key : Option AcousticKey) (careful : Bool) :
    (∃ identity ∈ ledger,
        (resolutionIn ledger digest key careful).verdict.matched = some identity.id) ∨
      ((resolutionIn ledger digest key careful).verdict.matched = none ∧
        ∀ identity ∈ ledger, identity.digest ≠ digest) := by
  cases hverdict : (resolutionIn ledger digest key careful).verdict with
  | exact id =>
      obtain ⟨identity, hmem, rfl, _⟩ := exists_of_exact hverdict
      exact .inl ⟨identity, hmem, rfl⟩
  | perceptual id similarity =>
      obtain ⟨⟨identity, hmem, rfl⟩, _⟩ := exists_of_perceptual hverdict
      exact .inl ⟨identity, hmem, rfl⟩
  | new | ambiguous candidates =>
      refine .inr ⟨rfl, ?_⟩
      rcases resolutionIn_cases ledger digest with ⟨identity, _, _, hfound⟩ | ⟨hnew, _⟩
      · rw [hfound] at hverdict
        cases hverdict
      · exact hnew

/-- A recording that sounds like the only entry and has another digest is matched with it. -/
theorem verdict_resolutionIn_singleton {known : Identity} {digest : Digest} {key : AcousticKey}
    {candidate : Candidate} (hdigest : known.digest ≠ digest)
    (hnear : (known.key.any fun other => key.nearbyBuckets.1 ≤ other.bucket &&
      other.bucket ≤ key.nearbyBuckets.2) = true)
    (hcandidate : Resolution.candidate? key known.toKnown = some candidate) :
    (resolutionIn [known] digest (some key) true).verdict =
      .perceptual candidate.id candidate.similarity := by
  have hfind : [known].find? (fun identity => identity.digest = digest) = none := by
    simpa using hdigest
  simp only [resolutionIn, hfind, Bool.not_true, Bool.false_eq_true, if_false, List.filter_cons,
    hnear, if_true, List.filter_nil, List.filterMap_cons, hcandidate, List.filterMap_nil,
    Resolution.verdictOf, List.mergeSort_singleton]
  rfl

theorem verdict_resolutionIn_nil (digest : Digest) (key : Option AcousticKey) (careful : Bool) :
    (resolutionIn [] digest key careful).verdict = .new := by
  simp only [resolutionIn, List.find?_nil]
  cases careful with
  | false => rfl
  | true =>
      cases key with
      | none => rfl
      | some key =>
          simp only [Bool.not_true, Bool.false_eq_true, if_false, List.filter_nil,
            List.filterMap_nil, Resolution.verdictOf, List.mergeSort_nil]
          rfl

end ResolutionIn

namespace Catalog.Keeps

variable {catalog : Catalog} {ledger : List Identity}

theorem lookup_byDigest (hkeeps : catalog.Keeps ledger) (digest : Digest) :
    catalog.lookup.byDigest digest = (catalog.demandVisible.map fun () =>
      (ledger.find? fun identity => identity.digest = digest).map (·.toKnown)).mapError
        .store := by
  simp only [lookup, hkeeps.byDigest]
  cases catalog.demandVisible with
  | error fault => rfl
  | ok _ => cases ledger.find? fun identity => identity.digest = digest <;> rfl

theorem lookup_byBucket (hkeeps : catalog.Keeps ledger) (range : Nat × Nat) :
    catalog.lookup.byBucket range = (catalog.demandVisible.map fun () =>
      (ledger.filter fun identity => identity.key.any fun key =>
        range.1 ≤ key.bucket && key.bucket ≤ range.2).map (·.toKnown)).mapError .store := by
  simp only [lookup, hkeeps.byBucket]
  cases catalog.demandVisible with
  | error fault => rfl
  | ok _ => exact congrArg Except.ok (List.map_map ..)

end Catalog.Keeps

/-- Where look-ups see anything, a comparison with a catalog is one with its ledger. -/
theorem Catalog.Keeps.identify_eq_resolutionIn {catalog : Catalog} {ledger : List Identity}
    (hkeeps : catalog.Keeps ledger) (digest : Digest) (key : Option AcousticKey)
    (careful : Bool) :
    identify digest key catalog.lookup careful =
      (catalog.demandVisible.map fun () => resolutionIn ledger digest key careful).mapError
        .store := by
  rw [identify.eq_def, hkeeps.lookup_byDigest]
  cases hvisible : catalog.demandVisible with
  | error fault => rfl
  | ok _ =>
      simp only [Except.map, Except.mapError, ok_bind, resolutionIn]
      cases ledger.find? fun identity => identity.digest = digest with
      | some identity => rfl
      | none =>
          cases careful with
          | false => rfl
          | true =>
              cases key with
              | none => rfl
              | some key =>
                  simp only [Option.map_none, hkeeps.lookup_byBucket, hvisible, Except.map,
                    Except.mapError, ok_bind, List.filterMap_map]
                  rfl

/-- A comparison that succeeds comes to the resolution over the ledger. -/
theorem Catalog.Keeps.eq_resolutionIn_of_identify {catalog : Catalog} {ledger : List Identity}
    (hkeeps : catalog.Keeps ledger) {digest : Digest} {key : Option AcousticKey} {careful : Bool}
    {resolution : Resolution} (h : identify digest key catalog.lookup careful = .ok resolution) :
    catalog.access ≠ .blind ∧ resolution = resolutionIn ledger digest key careful := by
  rw [hkeeps.identify_eq_resolutionIn, demandVisible] at h
  split at h
  · cases h
  · rename_i hvisible
    exact ⟨hvisible, (Except.ok.inj h).symm⟩

end AudioCatalog
