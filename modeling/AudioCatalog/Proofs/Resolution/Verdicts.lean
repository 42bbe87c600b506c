import AudioCatalog.Proofs.Catalog.Soundness
import AudioCatalog.Proofs.Resolution.Ranking

/-!
# What a careful verdict means

A recording with an unknown digest is compared with the identities that a view returns for
its key.  The verdict tells whether none of them sounds alike, one leads all others clearly, or
several are too close to call; those are listed by rank.  Whether a match is clear is decided
by how far the second is behind, and who is listed by a bound that is rounded on its own.
Because scores are multiples of one unit, the two decisions agree.

It does not matter in which order the view returns the identities, or how often.  A sound
catalog is such a view of its ledger.
-/

namespace AudioCatalog

namespace Resolution

/-- Whether a candidate is one of the identities found, with a key that matches. -/
def Alike (key : AcousticKey) (found : List Known) (candidate : Candidate) : Prop :=
  ∃ known ∈ found, ∃ other, known.key = some other ∧ matchThreshold ≤ key.similarity other ∧
    candidate = ⟨known.id, known.digest, key.similarity other⟩

/-- Whether a candidate has the best score, and every other one is behind by the lead or
more. -/
structure Leads (alike : Candidate → Prop) (leader : Candidate) : Prop where
  mem : alike leader
  best : ∀ candidate, alike candidate → candidate.similarity ≤ leader.similarity
  clear : ∀ candidate, alike candidate → candidate ≠ leader →
    clearLead ≤ Binary64.round (leader.similarity - candidate.similarity)

/-- Whether a list has the candidates that are behind the best score by less than the lead,
and there are several of them.  Each is there once, in its rank. -/
structure TooClose (alike : Candidate → Prop) (listed : List Candidate) : Prop where
  several : 2 ≤ listed.length
  once : listed.Nodup
  sorted : listed.Pairwise Candidate.Before
  mem_iff : ∃ best, alike best ∧
    (∀ candidate, alike candidate → candidate.similarity ≤ best.similarity) ∧
    ∀ candidate, candidate ∈ listed ↔
      alike candidate ∧ Binary64.round (best.similarity - candidate.similarity) < clearLead

/-- What a verdict tells of the candidates. -/
structure Tells (alike : Candidate → Prop) (verdict : Verdict) : Prop where
  new_iff : verdict = .new ↔ ∀ candidate, ¬ alike candidate
  perceptual_iff : ∀ id best, verdict = .perceptual id best ↔
    ∃ leader, Leads alike leader ∧ leader.id = id ∧ leader.similarity = best
  ambiguous_iff : ∀ listed, verdict = .ambiguous listed ↔ TooClose alike listed
  not_exact : ∀ id, verdict ≠ .exact id

variable {alike : Candidate → Prop}

/-! ## The three ways exclude each other -/

theorem Leads.unique {leader other : Candidate} (hleader : Leads alike leader)
    (hother : Leads alike other) (hscores : ∀ candidate, alike candidate →
      MatchScore candidate.similarity) : other = leader := by
  by_contra hne
  have hclear := hleader.clear other hother.mem hne
  rw [(hscores leader hleader.mem).round_sub (hscores other hother.mem)
    (hleader.best other hother.mem)] at hclear
  linarith [hother.best leader hleader.mem, clearLead_pos]

theorem TooClose.unique {listed others : List Candidate} (hlisted : TooClose alike listed)
    (hothers : TooClose alike others) : others = listed := by
  obtain ⟨best, hbest, hmost, hmem⟩ := hlisted.mem_iff
  obtain ⟨other, hother, hothermost, hothermem⟩ := hothers.mem_iff
  have hsame : other.similarity = best.similarity :=
    le_antisymm (hmost other hother) (hothermost best hbest)
  apply Candidate.eq_of_pairwise_before hothers.sorted hlisted.sorted
  intro candidate
  rw [hmem, hothermem, hsame]

/-- Where one candidate leads, several are not too close. -/
theorem Leads.not_tooClose {leader : Candidate} (hleader : Leads alike leader)
    {listed : List Candidate} : ¬ TooClose alike listed := by
  intro hlisted
  obtain ⟨best, hbest, hmost, hmem⟩ := hlisted.mem_iff
  have hsame : best.similarity = leader.similarity :=
    le_antisymm (hleader.best best hbest) (hmost leader hleader.mem)
  -- Nobody but the leader is listed, and the leader is listed once.
  have honly : ∀ candidate ∈ listed, candidate = leader := by
    intro candidate hcandidate
    obtain ⟨halike, hclose⟩ := (hmem candidate).mp hcandidate
    by_contra hne
    rw [hsame] at hclose
    exact absurd (hleader.clear candidate halike hne) (not_le.mpr hclose)
  have hsub : listed ⊆ [leader] := fun candidate hcandidate =>
    List.mem_singleton.mpr (honly candidate hcandidate)
  have hle := (hlisted.once.subperm hsub).length_le
  have hseveral := hlisted.several
  rw [List.length_singleton] at hle
  omega

theorem tells_new (hnone : ∀ candidate, ¬ alike candidate) : Tells alike .new where
  new_iff := iff_of_true rfl hnone
  perceptual_iff _ _ := iff_of_false nofun fun ⟨_, hleader, _⟩ => hnone _ hleader.mem
  ambiguous_iff _ := iff_of_false nofun fun hlisted =>
    have ⟨_, hbest, _⟩ := hlisted.mem_iff
    hnone _ hbest
  not_exact _ := nofun

theorem Leads.tells {leader : Candidate} (hleader : Leads alike leader)
    (hscores : ∀ candidate, alike candidate → MatchScore candidate.similarity) :
    Tells alike (.perceptual leader.id leader.similarity) where
  new_iff := iff_of_false nofun fun hnone => hnone leader hleader.mem
  perceptual_iff id best := by
    constructor
    · intro h
      cases h
      exact ⟨leader, hleader, rfl, rfl⟩
    · rintro ⟨other, hother, rfl, rfl⟩
      rw [hleader.unique hother hscores]
  ambiguous_iff _ := iff_of_false nofun hleader.not_tooClose
  not_exact _ := nofun

theorem TooClose.tells {listed : List Candidate} (hlisted : TooClose alike listed) :
    Tells alike (.ambiguous listed) where
  new_iff := iff_of_false nofun fun hnone =>
    have ⟨best, hbest, _⟩ := hlisted.mem_iff
    hnone best hbest
  perceptual_iff _ _ := iff_of_false nofun fun ⟨_, hleader, _⟩ => hleader.not_tooClose hlisted
  ambiguous_iff others := by
    constructor
    · intro h
      cases h
      exact hlisted
    · intro hothers
      rw [hlisted.unique hothers]
  not_exact _ := nofun

/-! ## The verdict over a ranking -/

variable {best second : Candidate} {rest : List Candidate}

/-- The first in rank leads if the second is far enough behind. -/
theorem leads_of_clear (hranked : (best :: second :: rest).Pairwise Candidate.Before)
    (hscores : ∀ candidate ∈ best :: second :: rest, MatchScore candidate.similarity)
    (hclear : clearLead ≤ Binary64.round (best.similarity - second.similarity)) :
    Leads (· ∈ best :: second :: rest) best := by
  have hbest := Candidate.similarity_le_head hranked
  have hsecond := Candidate.similarity_le_head (List.pairwise_cons.mp hranked).2
  refine ⟨List.mem_cons_self, hbest, fun candidate hcandidate hne => ?_⟩
  have htop := hscores best List.mem_cons_self
  rw [htop.round_sub (hscores second (by simp)) (hbest second (by simp))] at hclear
  rw [htop.round_sub (hscores candidate hcandidate) (hbest candidate hcandidate)]
  linarith [hsecond candidate ((List.mem_cons.mp hcandidate).resolve_left hne)]

/-- Otherwise those above the bound are too close, and the second is one of them. -/
theorem tooClose_of_not_clear (hranked : (best :: second :: rest).Pairwise Candidate.Before)
    (hscores : ∀ candidate ∈ best :: second :: rest, MatchScore candidate.similarity)
    (hclose : Binary64.round (best.similarity - second.similarity) < clearLead) :
    TooClose (· ∈ best :: second :: rest)
      ((best :: second :: rest).filter fun candidate =>
        Binary64.round (best.similarity - clearLead) < candidate.similarity) := by
  have htop := hscores best List.mem_cons_self
  have hbest := Candidate.similarity_le_head hranked
  have hbound : ∀ candidate ∈ best :: second :: rest,
      Binary64.round (best.similarity - clearLead) < candidate.similarity ↔
        Binary64.round (best.similarity - candidate.similarity) < clearLead :=
    fun candidate hcandidate =>
      htop.bound_lt_iff (hscores candidate hcandidate) (hbest candidate hcandidate)
  have hsecond := (hbound second (by simp)).mpr hclose
  have hfirst := hsecond.trans_le (hbest second (by simp))
  refine ⟨?_, (Candidate.nodup_of_pairwise_before hranked).filter _, hranked.filter _,
    best, List.mem_cons_self, hbest, fun candidate => ?_⟩
  · rw [List.filter_cons_of_pos (by simpa using hfirst),
      List.filter_cons_of_pos (by simpa using hsecond)]
    simp
  · rw [List.mem_filter, decide_eq_true_iff]
    exact and_congr_right (hbound candidate)

/-- The verdict tells of the candidates. -/
theorem tells_verdictOf {accepted : List Candidate} (happart : ToldApart accepted)
    (hscores : ∀ candidate ∈ accepted, MatchScore candidate.similarity) :
    Tells (· ∈ accepted) (verdictOf accepted) := by
  have hmem : (· ∈ accepted) = (· ∈ ranked accepted) := by
    ext candidate
    exact (mem_ranked happart).symm
  have hranked := pairwise_ranked happart
  replace hscores : ∀ candidate ∈ ranked accepted, MatchScore candidate.similarity :=
    fun candidate hcandidate => hscores candidate ((mem_ranked happart).mp hcandidate)
  rw [hmem, verdictOf, ← ranked]
  cases hlist : ranked accepted with
  | nil => exact tells_new fun candidate => List.not_mem_nil
  | cons best rest =>
      rw [hlist] at hranked hscores
      cases rest with
      | nil =>
          have hleader : Leads (· ∈ [best]) best :=
            ⟨List.mem_singleton_self best, Candidate.similarity_le_head hranked,
              fun candidate hcandidate hne => absurd (List.mem_singleton.mp hcandidate) hne⟩
          exact hleader.tells hscores
      | cons second rest =>
          simp only
          split
          · rename_i hclear
            exact (leads_of_clear hranked hscores hclear).tells hscores
          · rename_i hclose
            exact (tooClose_of_not_clear hranked hscores (not_le.mp hclose)).tells

/-! ## Candidates among the identities found -/

theorem mem_filterMap_candidate? {key : AcousticKey} {found : List Known}
    {candidate : Candidate} :
    candidate ∈ found.filterMap (candidate? key) ↔ Alike key found candidate := by
  rw [List.mem_filterMap, Alike]
  refine exists_congr fun known => and_congr_right fun _ => ?_
  rw [candidate?, Option.bind_eq_some_iff]
  refine exists_congr fun other => and_congr_right fun _ => ?_
  simp only
  split
  · rename_i hmatch
    rw [Option.some_inj, and_iff_right hmatch, eq_comm]
  · rename_i hfar
    exact iff_of_false (Option.some_ne_none _).symm fun h => hfar h.1

end Resolution

/-! ## Views of a list of identities -/

/-- Whether identities are told apart by their numbers, and by their digests. -/
def Known.Distinct (entries : List Known) : Prop :=
  (entries.map (·.id)).Nodup ∧ (entries.map (·.digest)).Nodup

/-- Whether a view answers from a list of identities, whatever the order in which it returns
them and how often.  It need not return identities without a key. -/
structure Lookup.Serves {ε : Type} (lookup : Lookup ε) (entries : List Known) : Prop where
  byDigest : ∀ digest, ∃ found, lookup.byDigest digest = .ok found ∧
    ∀ known, found = some known ↔ known ∈ entries ∧ known.digest = digest
  byBucket : ∀ range, ∃ found, lookup.byBucket range = .ok found ∧
    (∀ known ∈ found, known ∈ entries) ∧
    ∀ known ∈ entries, ∀ key, known.key = some key →
      (known ∈ found ↔ range.1 ≤ key.bucket ∧ key.bucket ≤ range.2)

/-- The view that goes through a list. -/
def Lookup.ofEntries (ε : Type) (entries : List Known) : Lookup ε where
  byDigest digest := .ok (entries.find? fun known => known.digest = digest)
  byBucket range := .ok <| entries.filter fun known =>
    known.key.any fun key => range.1 ≤ key.bucket && key.bucket ≤ range.2

theorem Known.Distinct.eq_of_mem {entries : List Known} (hdistinct : Known.Distinct entries)
    {a b : Known} (ha : a ∈ entries) (hb : b ∈ entries)
    (hsame : a.id = b.id ∨ a.digest = b.digest) : a = b :=
  hsame.elim (List.inj_on_of_nodup_map hdistinct.1 ha hb)
    (List.inj_on_of_nodup_map hdistinct.2 ha hb)

/-- Going through a list with or without repetitions answers from the identities in it. -/
theorem Lookup.serves_ofEntries {ε : Type} {entries others : List Known}
    (hdistinct : Known.Distinct entries) (hmem : ∀ known, known ∈ others ↔ known ∈ entries) :
    (Lookup.ofEntries ε others).Serves entries where
  byDigest digest := by
    refine ⟨_, rfl, fun known => ⟨fun hfound => ?_, fun ⟨hknown, hsame⟩ => ?_⟩⟩
    · exact ⟨(hmem known).mp (List.mem_of_find?_eq_some hfound),
        by simpa using List.find?_some hfound⟩
    · cases hfind : others.find? fun known => known.digest = digest with
      | none =>
          have hnone := List.find?_eq_none.mp hfind known ((hmem known).mpr hknown)
          simp [hsame] at hnone
      | some other =>
          have hother := List.find?_some hfind
          rw [decide_eq_true_iff] at hother
          rw [hdistinct.eq_of_mem ((hmem other).mp (List.mem_of_find?_eq_some hfind)) hknown
            (.inr (hother.trans hsame.symm))]
  byBucket range := by
    refine ⟨_, rfl, fun known hknown => (hmem known).mp (List.mem_of_mem_filter hknown),
      fun known hknown key hkey => ?_⟩
    rw [List.mem_filter, and_iff_right ((hmem known).mpr hknown), hkey]
    simp

/-! ## Catalogs -/

namespace Catalog.Keeps

variable {catalog : Catalog} {ledger : List Identity}

/-- Where look-ups in a catalog see anything, they go through its ledger. -/
theorem lookup_eq_ofEntries (hkeeps : catalog.Keeps ledger) (hvisible : catalog.access ≠ .blind) :
    catalog.lookup = .ofEntries Error (ledger.map (·.toKnown)) := by
  have hdemand : catalog.demandVisible = .ok () := if_neg hvisible
  rw [Lookup.mk.injEq]
  constructor
  · funext digest
    simp only [hkeeps.lookup_byDigest, hdemand, Lookup.ofEntries, List.find?_map]
    rfl
  · funext range
    simp only [hkeeps.lookup_byBucket, hdemand, Lookup.ofEntries, List.filter_map]
    rfl

/-- The identities in a sound ledger are told apart. -/
theorem distinct_toKnown (hkeeps : catalog.Keeps ledger) (hledger : SoundLedger ledger) :
    Known.Distinct (ledger.map (·.toKnown)) := by
  have hids := hkeeps.ordered.imp fun {a b} hlt =>
    show a.id ≠ b.id from fun hsame => Int.ne_of_lt hlt (congrArg IdentityId.value hsame)
  rw [Known.Distinct, List.map_map, List.map_map]
  exact ⟨List.pairwise_map.mpr hids, hledger.digests⟩

/-- A sound catalog answers from its ledger. -/
theorem serves_lookup (hkeeps : catalog.Keeps ledger) (hledger : SoundLedger ledger)
    (hvisible : catalog.access ≠ .blind) :
    catalog.lookup.Serves (ledger.map (·.toKnown)) := by
  rw [hkeeps.lookup_eq_ofEntries hvisible]
  exact Lookup.serves_ofEntries (hkeeps.distinct_toKnown hledger) fun _ => Iff.rfl

end Catalog.Keeps

section Serves

variable {ε : Type} {lookup other : Lookup ε} {entries found : List Known} {digest : Digest}

theorem Known.Distinct.toldApart (hdistinct : Known.Distinct entries)
    (hfound : ∀ known ∈ found, known ∈ entries) (key : AcousticKey) :
    Resolution.ToldApart (found.filterMap (Resolution.candidate? key)) := by
  intro a ha b hb hsame
  obtain ⟨known, hknown, own, hkey, -, rfl⟩ := Resolution.mem_filterMap_candidate?.mp ha
  obtain ⟨known', hknown', own', hkey', -, rfl⟩ := Resolution.mem_filterMap_candidate?.mp hb
  obtain rfl : known = known' :=
    hdistinct.eq_of_mem (hfound known hknown) (hfound known' hknown') hsame
  obtain rfl : own = own' := Option.some_inj.mp (hkey.symm.trans hkey')
  rfl

namespace Lookup.Serves

theorem byDigest_eq_none (hserves : lookup.Serves entries)
    (hnew : ∀ known ∈ entries, known.digest ≠ digest) : lookup.byDigest digest = .ok none := by
  obtain ⟨found, hfound, hmem⟩ := hserves.byDigest digest
  rw [hfound]
  cases found with
  | none => rfl
  | some known =>
      obtain ⟨hknown, hsame⟩ := (hmem known).mp rfl
      exact absurd hsame (hnew known hknown)

/-- A careful comparison of an unknown digest goes by the candidates among the identities that
the view returns. -/
theorem identify_eq (hserves : lookup.Serves entries)
    (hnew : ∀ known ∈ entries, known.digest ≠ digest) {key : AcousticKey}
    (hfound : lookup.byBucket key.nearbyBuckets = .ok found) :
    identify digest (some key) lookup true =
      .ok ⟨Resolution.verdictOf (found.filterMap (Resolution.candidate? key)), false⟩ := by
  rw [identify, hserves.byDigest_eq_none hnew]
  simp only [ok_bind, Bool.not_true, Bool.false_eq_true, if_false, hfound]
  rfl

/-- Two views of the same identities find the same one for a digest. -/
theorem byDigest_congr (hlookup : lookup.Serves entries) (hother : other.Serves entries)
    (digest : Digest) : other.byDigest digest = lookup.byDigest digest := by
  obtain ⟨found, hfound, hmem⟩ := hlookup.byDigest digest
  obtain ⟨again, hagain, hmemagain⟩ := hother.byDigest digest
  have hsame : again = found := by
    ext known
    exact (hmemagain known).trans (hmem known).symm
  rw [hfound, hagain, hsame]

/-- Two views of the same identities return the same candidates for a key. -/
theorem alike_iff (hlookup : lookup.Serves entries) (hother : other.Serves entries)
    {key : AcousticKey} {range : Nat × Nat} {again : List Known}
    (hfound : lookup.byBucket range = .ok found) (hagain : other.byBucket range = .ok again)
    (candidate : Candidate) :
    Resolution.Alike key again candidate ↔ Resolution.Alike key found candidate := by
  obtain ⟨_, hok, hsub, hmem⟩ := hlookup.byBucket range
  cases hfound.symm.trans hok
  obtain ⟨_, hok, hsubagain, hmemagain⟩ := hother.byBucket range
  cases hagain.symm.trans hok
  constructor
  · rintro ⟨known, hknown, own, hkey, hmatch⟩
    have hentry := hsubagain known hknown
    exact ⟨known, (hmem known hentry own hkey).mpr ((hmemagain known hentry own hkey).mp hknown),
      own, hkey, hmatch⟩
  · rintro ⟨known, hknown, own, hkey, hmatch⟩
    have hentry := hsub known hknown
    exact ⟨known, (hmemagain known hentry own hkey).mpr ((hmem known hentry own hkey).mp hknown),
      own, hkey, hmatch⟩

theorem congr_mem {others : List Known} (hserves : lookup.Serves others)
    (hmem : ∀ known, known ∈ others ↔ known ∈ entries) : lookup.Serves entries where
  byDigest digest := by
    simpa only [hmem] using hserves.byDigest digest
  byBucket range := by
    simpa only [hmem] using hserves.byBucket range

end Lookup.Serves

/-- The key of a recording of three frames that sound the same. -/
def AcousticKey.hum : AcousticKey where
  vector := List.replicate 256 1
  frames := 3
  length_eq := List.length_replicate
  frames_pos := by decide
  frames_lt := by decide

/-- An identity that sounds like this. -/
def Known.hum (number : Nat) (byte : UInt8) : Known where
  id := ⟨number⟩
  digest := ⟨List.replicate 32 byte, List.length_replicate⟩
  key := some .hum

/-- A careful comparison of an unknown digest succeeds, and its verdict tells of the candidates
among the identities that the view returns for the key. -/
theorem identify_tells (hserves : lookup.Serves entries) (hdistinct : Known.Distinct entries)
    (hnew : ∀ known ∈ entries, known.digest ≠ digest) (key : AcousticKey) :
    ∃ found verdict, lookup.byBucket key.nearbyBuckets = .ok found ∧
      identify digest (some key) lookup true = .ok ⟨verdict, false⟩ ∧
      Resolution.Tells (Resolution.Alike key found) verdict := by
  obtain ⟨found, hfound, hsub, -⟩ := hserves.byBucket key.nearbyBuckets
  refine ⟨found, _, hfound, hserves.identify_eq hnew hfound, ?_⟩
  have halike : Resolution.Alike key found =
      (· ∈ found.filterMap (Resolution.candidate? key)) := by
    ext candidate
    exact Resolution.mem_filterMap_candidate?.symm
  rw [halike]
  refine Resolution.tells_verdictOf (hdistinct.toldApart hsub key) fun candidate hcandidate => ?_
  obtain ⟨_, -, other, -, hmatch, rfl⟩ := Resolution.mem_filterMap_candidate?.mp hcandidate
  exact AcousticKey.matchScore_similarity hmatch

/-- Two identities sound like a recording, and are told apart by their digests. -/
theorem identify_tells_of_hum :
    ∃ found verdict,
      (Lookup.ofEntries Unit [.hum 1 0xCC, .hum 2 0x11]).byBucket
        AcousticKey.hum.nearbyBuckets = .ok found ∧
      identify (Known.hum 3 0xEE).digest (some .hum)
        (Lookup.ofEntries Unit [.hum 1 0xCC, .hum 2 0x11]) true = .ok ⟨verdict, false⟩ ∧
      Resolution.Tells (Resolution.Alike .hum found) verdict :=
  have hdistinct : Known.Distinct [.hum 1 0xCC, .hum 2 0x11] := ⟨by decide, by decide⟩
  identify_tells (Lookup.serves_ofEntries hdistinct fun _ => Iff.rfl) hdistinct (by decide) _

/-- A comparison comes out the same for any two views of the same identities, in whatever order
and however often these are given to it. -/
theorem identify_regardless_of_order {others : List Known} (hdistinct : Known.Distinct entries)
    (hmem : ∀ known, known ∈ others ↔ known ∈ entries) (hlookup : lookup.Serves entries)
    (hother : other.Serves others) (digest : Digest) (key : Option AcousticKey)
    (careful : Bool) :
    ∃ resolution, identify digest key lookup careful = .ok resolution ∧
      identify digest key other careful = .ok resolution := by
  have hagain := hother.congr_mem hmem
  obtain ⟨known?, hdigest, hknown⟩ := hlookup.byDigest digest
  rw [identify.eq_def, identify.eq_def, hlookup.byDigest_congr hagain, hdigest]
  cases known? with
  | some known => exact ⟨_, rfl, rfl⟩
  | none =>
      cases careful with
      | false => exact ⟨_, rfl, rfl⟩
      | true =>
          cases key with
          | none => exact ⟨_, rfl, rfl⟩
          | some key =>
              obtain ⟨found, hfound, hsub, -⟩ := hlookup.byBucket key.nearbyBuckets
              obtain ⟨again, hfoundagain, -⟩ := hagain.byBucket key.nearbyBuckets
              have hsame : ∀ candidate,
                  candidate ∈ again.filterMap (Resolution.candidate? key) ↔
                    candidate ∈ found.filterMap (Resolution.candidate? key) := by
                intro candidate
                rw [Resolution.mem_filterMap_candidate?, Resolution.mem_filterMap_candidate?]
                exact hlookup.alike_iff hagain hfound hfoundagain candidate
              have hverdict := Resolution.verdictOf_congr (hdistinct.toldApart hsub key) hsame
              simp only [ok_bind, Bool.not_true, Bool.false_eq_true, if_false, hfound,
                hfoundagain, hverdict]
              exact ⟨_, rfl, rfl⟩

/-- The identities of a list, and the same in another order and one of them twice. -/
theorem identify_hum_regardless_of_order :
    ∃ resolution,
      identify (Known.hum 3 0xEE).digest (some .hum)
        (Lookup.ofEntries Unit [.hum 1 0xCC, .hum 2 0x11]) true = .ok resolution ∧
      identify (Known.hum 3 0xEE).digest (some .hum)
        (Lookup.ofEntries Unit [.hum 2 0x11, .hum 1 0xCC, .hum 2 0x11]) true =
        .ok resolution :=
  have hdistinct : Known.Distinct [.hum 1 0xCC, .hum 2 0x11] := ⟨by decide, by decide⟩
  have hmem : ∀ known, known ∈ [Known.hum 2 0x11, .hum 1 0xCC, .hum 2 0x11] ↔
      known ∈ [Known.hum 1 0xCC, .hum 2 0x11] := by
    intro known
    simp only [List.mem_cons, List.not_mem_nil, or_false]
    tauto
  identify_regardless_of_order hdistinct hmem
    (Lookup.serves_ofEntries hdistinct fun _ => Iff.rfl)
    ((Lookup.serves_ofEntries hdistinct hmem).congr_mem fun known => (hmem known).symm)
    _ _ _

end Serves

end AudioCatalog
