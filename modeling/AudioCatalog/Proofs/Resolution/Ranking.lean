import AudioCatalog.Proofs.Acoustic.Scores
import AudioCatalog.Proofs.Catalog.Candidates
import Mathlib.Data.List.Nodup

/-!
# The ranking of candidates

Candidates are sorted, and one that follows another of the same identity is dropped.  If equal
numbers and equal digests are those of equal candidates, equal ones are neighbours once they
are sorted, and the ranking has each of them once.  It is then determined by which candidates
there are, whatever their order and however often they were given.
-/

namespace AudioCatalog

/-! ## The order of digests -/

theorem compareBytes_eq_compare (a b : List UInt8) : compareBytes a b = compare a b := by
  fun_induction compareBytes a b with
  | case1 | case2 | case3 => rfl
  | case4 a as b bs hlt =>
      have hhead : compare a b = .lt := by simp [compare, compareOfLessAndEq, hlt]
      rw [List.compare_cons_cons, hhead]
      rfl
  | case5 a as b bs hge hgt =>
      have hne : a ≠ b := fun heq => UInt8.lt_irrefl b (heq ▸ hgt)
      have hhead : compare a b = .gt := by simp [compare, compareOfLessAndEq, hge, hne]
      rw [List.compare_cons_cons, hhead]
      rfl
  | case6 a as b bs hge hle ih =>
      obtain rfl : a = b := UInt8.le_antisymm (UInt8.not_lt.mp hle) (UInt8.not_lt.mp hge)
      rw [List.compare_cons_cons, Std.compare_self, ih]
      rfl

namespace Digest

theorem compare_eq (a b : Digest) : a.compare b = Ord.compare a.bytes b.bytes :=
  compareBytes_eq_compare a.bytes b.bytes

theorem eq_of_compare_eq {a b : Digest} (h : a.compare b = .eq) : a = b := by
  rw [compare_eq, Std.compare_eq_iff_eq] at h
  cases a
  cases b
  cases h
  rfl

theorem compare_self (a : Digest) : a.compare a = .eq := by
  rw [compare_eq, Std.compare_self]

theorem swap_compare (a b : Digest) : (a.compare b).swap = b.compare a := by
  rw [compare_eq, compare_eq]
  exact Std.OrientedCmp.eq_swap.symm

theorem compare_lt_trans {a b c : Digest} (hab : a.compare b = .lt) (hbc : b.compare c = .lt) :
    a.compare c = .lt := by
  rw [compare_eq] at hab hbc ⊢
  exact Std.TransCmp.lt_trans hab hbc

end Digest

/-- Whether one candidate is ranked before another: its score is higher, or else its digest is
lower. -/
def Candidate.Before (a b : Candidate) : Prop :=
  b.similarity < a.similarity ∨ a.similarity = b.similarity ∧ a.digest.compare b.digest = .lt

namespace Candidate.Before

variable {a b c : Candidate}

theorem trans (hab : a.Before b) (hbc : b.Before c) : a.Before c := by
  rcases hab with hab | ⟨hab, habs⟩ <;> rcases hbc with hbc | ⟨hbc, hbcs⟩
  · exact .inl (hbc.trans hab)
  · exact .inl (hbc ▸ hab)
  · exact .inl (hab ▸ hbc)
  · exact .inr ⟨hab.trans hbc, Digest.compare_lt_trans habs hbcs⟩

theorem irrefl (a : Candidate) : ¬ a.Before a := by
  rintro (hlt | ⟨-, hlt⟩)
  · exact lt_irrefl _ hlt
  · rw [Digest.compare_self] at hlt
    cases hlt

theorem similarity_le (hab : a.Before b) : b.similarity ≤ a.similarity :=
  hab.elim le_of_lt fun h => h.1.ge

end Candidate.Before

namespace Resolution

theorem precedes_iff {a b : Candidate} :
    precedes a b = true ↔ b.similarity < a.similarity ∨
      a.similarity = b.similarity ∧ a.digest.compare b.digest ≠ .gt := by
  rw [precedes]
  split
  · rename_i hsame
    simp [hsame]
  · rename_i hdiffers
    simp [hdiffers]

/-- Candidates are sorted by rank, but for equal ones. -/
theorem precedes_iff_before {a b : Candidate} :
    precedes a b = true ↔ a.Before b ∨ a.similarity = b.similarity ∧ a.digest = b.digest := by
  rw [precedes_iff, Candidate.Before, or_assoc, ← and_or_left]
  have hdigest : a.digest.compare b.digest ≠ .gt ↔
      a.digest.compare b.digest = .lt ∨ a.digest = b.digest := by
    cases hcompare : a.digest.compare b.digest with
    | lt => simp
    | eq => simp [Digest.eq_of_compare_eq hcompare]
    | gt =>
        have hne : a.digest ≠ b.digest := by
          intro heq
          rw [heq, Digest.compare_self] at hcompare
          cases hcompare
        simp [hne]
  rw [hdigest]

theorem precedes_trans (a b c : Candidate) (hab : precedes a b = true)
    (hbc : precedes b c = true) : precedes a c = true := by
  rw [precedes_iff_before] at hab hbc ⊢
  rcases hab with hab | ⟨habs, habd⟩
  · rcases hbc with hbc | ⟨hbcs, hbcd⟩
    · exact .inl (hab.trans hbc)
    · rw [Candidate.Before, hbcs, hbcd] at hab
      exact .inl hab
  · rw [Candidate.Before, ← habs, ← habd] at hbc
    exact hbc

theorem precedes_total (a b : Candidate) : (precedes a b || precedes b a) = true := by
  rw [Bool.or_eq_true, precedes_iff_before, precedes_iff_before]
  rcases lt_trichotomy a.similarity b.similarity with hlt | heq | hgt
  · exact .inr (.inl (.inl hlt))
  · cases hcompare : a.digest.compare b.digest with
    | lt => exact .inl (.inl (.inr ⟨heq, hcompare⟩))
    | eq => exact .inl (.inr ⟨heq, Digest.eq_of_compare_eq hcompare⟩)
    | gt =>
        have hswap : b.digest.compare a.digest = .lt := by
          rw [← Digest.swap_compare, hcompare]
          rfl
        exact .inr (.inl (.inr ⟨heq.symm, hswap⟩))
  · exact .inl (.inl (.inl hgt))

/-! ## Candidates in their ranks -/

/-- Whether candidates are told apart by their numbers, and by their digests. -/
def ToldApart (candidates : List Candidate) : Prop :=
  ∀ a ∈ candidates, ∀ b ∈ candidates, a.id = b.id ∨ a.digest = b.digest → a = b

/-- The candidates by rank, each of them once. -/
def ranked (candidates : List Candidate) : List Candidate :=
  dropRepeats none (candidates.mergeSort precedes)

theorem ToldApart.mono {candidates others : List Candidate} (h : ToldApart candidates)
    (hsub : ∀ candidate ∈ others, candidate ∈ candidates) : ToldApart others :=
  fun a ha b hb => h a (hsub a ha) b (hsub b hb)

/-- Dropping repeats of sorted candidates leaves each of them once. -/
theorem dropRepeats_sorted (rest : List Candidate) :
    ∀ first : Candidate, (first :: rest).Pairwise (fun a b => precedes a b = true) →
      ToldApart (first :: rest) →
      (first :: dropRepeats (some first.id) rest).Pairwise Candidate.Before ∧
        ∀ candidate, candidate ∈ first :: dropRepeats (some first.id) rest ↔
          candidate ∈ first :: rest := by
  induction rest with
  | nil => exact fun first _ _ => ⟨List.pairwise_singleton .., fun _ => Iff.rfl⟩
  | cons second rest ih =>
      intro first hsorted happart
      have hfirst := List.pairwise_cons.mp hsorted
      rw [dropRepeats]
      by_cases hsame : first.id = second.id
      · -- The second is the first again, and is dropped.
        obtain rfl : first = second :=
          happart first (by simp) second (by simp) (.inl hsame)
        rw [if_pos rfl]
        obtain ⟨hranked, hmem⟩ := ih first hfirst.2 (happart.mono (by simp))
        refine ⟨hranked, fun candidate => (hmem candidate).trans ?_⟩
        simp
      · rw [if_neg (by simpa using hsame)]
        obtain ⟨hranked, hmem⟩ :=
          ih second hfirst.2 (happart.mono fun _ => List.mem_cons_of_mem first)
        have hbefore : first.Before second := by
          rcases precedes_iff_before.mp (hfirst.1 second (by simp)) with hbefore | ⟨-, hdigest⟩
          · exact hbefore
          · have heq := happart first (by simp) second (by simp) (.inr hdigest)
            exact absurd (congrArg Candidate.id heq) hsame
        refine ⟨List.pairwise_cons.mpr ⟨fun candidate hcandidate => ?_, hranked⟩,
          fun candidate => ?_⟩
        · rcases List.mem_cons.mp hcandidate with rfl | hcandidate
          · exact hbefore
          · exact hbefore.trans ((List.pairwise_cons.mp hranked).1 candidate hcandidate)
        · rw [List.mem_cons, hmem, ← List.mem_cons]

variable {candidates others : List Candidate}

theorem ranked_spec (happart : ToldApart candidates) :
    (ranked candidates).Pairwise Candidate.Before ∧
      ∀ candidate, candidate ∈ ranked candidates ↔ candidate ∈ candidates := by
  have hsorted := List.pairwise_mergeSort precedes_trans precedes_total candidates
  have hperm := List.mergeSort_perm candidates precedes
  rw [ranked]
  cases hsort : candidates.mergeSort precedes with
  | nil =>
      rw [hsort] at hperm
      rw [← hperm.nil_eq]
      exact ⟨.nil, fun _ => Iff.rfl⟩
  | cons first rest =>
      rw [hsort] at hsorted hperm
      rw [dropRepeats, if_neg (Option.some_ne_none first.id).symm]
      obtain ⟨hranked, hmem⟩ := dropRepeats_sorted rest first hsorted
        (happart.mono fun candidate => hperm.mem_iff.mp)
      exact ⟨hranked, fun candidate => (hmem candidate).trans hperm.mem_iff⟩

/-- The ranking is strict. -/
theorem pairwise_ranked (happart : ToldApart candidates) :
    (ranked candidates).Pairwise Candidate.Before :=
  (ranked_spec happart).1

theorem mem_ranked (happart : ToldApart candidates) {candidate : Candidate} :
    candidate ∈ ranked candidates ↔ candidate ∈ candidates :=
  (ranked_spec happart).2 candidate

end Resolution

namespace Candidate

variable {candidates others : List Candidate}

/-- Candidates in strict ranks are there once. -/
theorem nodup_of_pairwise_before (h : candidates.Pairwise Before) : candidates.Nodup := by
  refine h.imp ?_
  rintro a _ hbefore rfl
  exact Before.irrefl a hbefore

/-- The first in rank has the best score. -/
theorem similarity_le_head {best : Candidate} {rest : List Candidate}
    (h : (best :: rest).Pairwise Before) :
    ∀ candidate ∈ best :: rest, candidate.similarity ≤ best.similarity := by
  intro candidate hcandidate
  rcases List.mem_cons.mp hcandidate with rfl | hcandidate
  · exact le_rfl
  · exact ((List.pairwise_cons.mp h).1 candidate hcandidate).similarity_le

/-- Which candidates there are determines their ranking. -/
theorem eq_of_pairwise_before (hcandidates : candidates.Pairwise Before)
    (hothers : others.Pairwise Before)
    (hmem : ∀ candidate, candidate ∈ candidates ↔ candidate ∈ others) : candidates = others := by
  refine List.Perm.eq_of_pairwise (fun a b _ _ hab hba => ?_) hcandidates hothers
    ((List.perm_ext_iff_of_nodup (nodup_of_pairwise_before hcandidates)
      (nodup_of_pairwise_before hothers)).mpr hmem)
  exact absurd (Before.trans hab hba) (Before.irrefl a)

end Candidate

/-- The verdict depends on which candidates there are, and not on their order or on how often
they are given. -/
theorem Resolution.verdictOf_congr {candidates others : List Candidate}
    (happart : ToldApart candidates)
    (hmem : ∀ candidate, candidate ∈ others ↔ candidate ∈ candidates) :
    verdictOf others = verdictOf candidates := by
  have hother : ToldApart others := happart.mono fun candidate => (hmem candidate).mp
  have hranked : ranked others = ranked candidates := by
    refine Candidate.eq_of_pairwise_before (pairwise_ranked hother) (pairwise_ranked happart)
      fun candidate => ?_
    rw [mem_ranked hother, mem_ranked happart, hmem]
  rw [ranked, ranked] at hranked
  rw [verdictOf, verdictOf, hranked]

end AudioCatalog
