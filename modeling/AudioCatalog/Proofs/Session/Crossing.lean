import AudioCatalog.Proofs.Import.Crossing
import AudioCatalog.Proofs.Session.Decisions

/-!
# Careful imports in sessions

Two careful imports of different recordings that run side by side come to what they come to
one after the other, in one order or the other, unless they cross: each has looked into the
catalog before the other one has committed, their keys match, and each has made an identity.
-/

namespace AudioCatalog

open Contest (State)

namespace Parallel

variable {κ : Type} {parallel : Parallel Bool κ} {decoded : Bool → Decoded} {world : World}
  {clock : Bool → Timestamp} {leader : Bool} {between ending : Catalog}
  {receipt written : Bool → Receipt} {catalog : Catalog}

/-- Whether two imports have come to what they come to one after the other, in some order: the
same kinds of verdicts, and the same grouping of sources. -/
def Serializes (parallel : Parallel Bool κ) (decoded : Bool → Decoded) (world : World)
    (receipt : Bool → Receipt) (catalog : Catalog) : Prop :=
  ∃ leader serial last, parallel.Serial decoded world leader serial last ∧
    (∀ second, (serial second).verdict.label = (receipt second).verdict.label) ∧
    last.world.catalog.SameGroups catalog

/-- Whether two imports have crossed.  Both have made identities by what the catalog was at the
start, and their keys match.  One after the other, in either order, the second would have been
found to sound like one that is there. -/
structure Crosses (parallel : Parallel Bool κ) (decoded : Bool → Decoded) (world : World)
    (receipt : Bool → Receipt) : Prop where
  inserted : ∀ second, (receipt second).effect = .inserted
  looked : ∀ second, ∃ resolution, (receipt second).verdict = resolution.verdict ∧
    identify (decoded second).digest (decoded second).key world.catalog.lookup true =
      .ok resolution
  matching : ∀ second, ∃ own ∈ (decoded !second).key, ∃ known ∈ (decoded second).key,
    matchThreshold ≤ own.similarity known
  serial : ∀ leader, ∃ serial last, parallel.Serial decoded world leader serial last
  perceptual : ∀ leader serial last, parallel.Serial decoded world leader serial last →
    (serial leader).verdict.label = (receipt leader).verdict.label ∧
      (serial !leader).verdict.label = "perceptual"

/-- An order in which one is finished before the other begins is one after the other. -/
theorem Order.serializes
    (horder : parallel.Order decoded clock leader world.catalog.unlocked between written between
      ending) (hsound : world.catalog.unlocked.Sound)
    (hlabels : ∀ second, (written second).verdict.label = (receipt second).verdict.label)
    (hgroups : ending.SameGroups catalog) :
    parallel.Serializes decoded world receipt catalog := by
  obtain ⟨-, -, hunlocked, -⟩ := horder.first.frame hsound
  obtain ⟨serial, last, hserial, rfl, hverdicts⟩ := horder.exists_serial hunlocked
  refine ⟨leader, serial, last, hserial, fun second => ?_, hgroups⟩
  rw [hverdicts, hlabels]

theorem Order.sameGroups_unlocked
    {start seen : Catalog} (horder : parallel.Order decoded clock leader start seen written
      between catalog.unlocked) (hsound : start.Sound) (hvisible : start.access ≠ .blind) :
    catalog.unlocked.SameGroups catalog := by
  obtain ⟨hbetween, -⟩ := horder.first.frame hsound
  obtain ⟨hended, -⟩ := horder.second.frame hbetween
  obtain ⟨ledger, hkeeps, -, -⟩ := hended
  exact hkeeps.sameGroups (hkeeps.congr rfl rfl) (horder.access_eq hsound ▸ hvisible) rfl (.refl _)

/-- Both have decided by what the catalog was at the start. -/
theorem Order.exists_identify
    (horder : parallel.Order decoded clock leader world.catalog.unlocked world.catalog.unlocked
      written between ending)
    (hcareful : ∀ second, (parallel.job second).handling.careful = true) (second : Bool) :
    ∃ resolution, (written second).verdict = resolution.verdict ∧
      identify (decoded second).digest (decoded second).key world.catalog.lookup true =
        .ok resolution := by
  rw [← hcareful second]
  rcases Bool.eq_or_eq_not second leader with rfl | rfl
  · exact horder.first.exists_identify
  · exact horder.second.exists_identify

/-- What is found in one run after the other is found in all of them. -/
theorem Order.label_serial
    (horder : parallel.Order decoded clock leader world.catalog.unlocked between written between
      ending) (hsound : world.catalog.unlocked.Sound)
    (hcareful : ∀ second, (parallel.job second).handling.careful = true) {last : State Bool}
    (hserial : parallel.Serial decoded world leader receipt last) (second : Bool) :
    (receipt second).verdict.label = (written second).verdict.label := by
  obtain ⟨clock', written', between', horder', hverdicts⟩ := hserial.exists_order
  rw [← hverdicts, horder.verdict_unique horder' hsound hcareful]

/-- If both have made identities, they have crossed unless they could have run one after the
other. -/
theorem Order.crosses_of_not_serializes
    (horder : parallel.Order decoded clock leader world.catalog.unlocked world.catalog.unlocked
      written between ending) (hsound : world.catalog.unlocked.Sound)
    (hcareful : ∀ second, (parallel.job second).handling.careful = true)
    (hdigests : (decoded false).digest ≠ (decoded true).digest)
    (hboth : ∀ second, (written second).effect = .inserted)
    (hreceipts : ∀ second, (written second).verdict = (receipt second).verdict ∧
      (written second).effect = (receipt second).effect)
    (hgroups : ending.SameGroups catalog)
    (hnone : ¬ parallel.Serializes decoded world receipt catalog) :
    parallel.Crosses decoded world receipt := by
  have hcross : ∀ first, ∃ written' between' ending',
      parallel.Order decoded clock first world.catalog.unlocked between' written' between'
        ending' ∧
      (written' first).verdict = (written first).verdict ∧
      (written' !first).verdict.label = "perceptual" ∧
        ∃ own ∈ (decoded !first).key, ∃ known ∈ (decoded first).key,
          matchThreshold ≤ own.similarity known := by
    intro first
    obtain ⟨written', between', ending', hserial, hsame, ⟨hlabel, hgroups'⟩ | hcross⟩ :=
      horder.serial_or_perceptual hsound hcareful hdigests hboth first
    · refine absurd (hserial.serializes hsound (fun second => ?_) (hgroups'.trans hgroups)) hnone
      rcases Bool.eq_or_eq_not second first with rfl | rfl
      · rw [hsame, (hreceipts _).1]
      · rw [hlabel, (hreceipts _).1]
    · exact ⟨written', between', ending', hserial, hsame, hcross⟩
  constructor
  case inserted => exact fun second => (hreceipts second).2 ▸ hboth second
  case looked =>
    intro second
    rw [← (hreceipts second).1]
    exact horder.exists_identify hcareful second
  case matching =>
    intro second
    obtain ⟨-, -, -, -, -, -, hmatches⟩ := hcross second
    exact hmatches
  case serial =>
    intro first
    obtain ⟨written', between', ending', hserial, -⟩ := hcross first
    obtain ⟨-, -, hunlocked, -⟩ := hserial.first.frame hsound
    obtain ⟨serial, final, hfinal, -⟩ := hserial.exists_serial hunlocked
    exact ⟨serial, final, hfinal⟩
  case perceptual =>
    intro first serial final hfinal
    obtain ⟨written', between', ending', hserial, hsame, hlabel, -⟩ := hcross first
    rw [hserial.label_serial hsound hcareful hfinal, hserial.label_serial hsound hcareful hfinal,
      hsame, (hreceipts first).1]
    exact ⟨rfl, hlabel⟩

end Parallel

/-- Careful imports of different recordings are serializable unless they cross.  In whatever
way a session has come to its catalog, let two imports have decoded their files, and let them
look and commit in any order that the locks allow.  If both are committed, their verdicts are of
the same kinds and the sources grouped in the same way as if one had run after the other, in one
order or the other.  The only exception is that both have looked before either has committed,
that their keys match, and that both have made identities, where in either order the second
would have been found to sound alike. -/
theorem Session.serializes_or_crosses {first : Session} {storage : Storage} {world : World}
    {answers : List Answer} (hfresh : first.Fresh)
    (hrun : Run first answers (opened storage world)) {κ : Type} (parallel : Parallel Bool κ)
    (decoded : Bool → Decoded)
    (hcareful : ∀ second, (parallel.job second).handling.careful = true)
    (hdigests : (decoded false).digest ≠ (decoded true).digest)
    {commits : List (Parallel.Commit Bool)} {last : State Bool} {receipt : Bool → Receipt}
    (hparallel : parallel.Run World.LeftAlone (Parallel.ready decoded world) commits last)
    (hcommitted : ∀ second, last.phase second = .finished (.ok (.committed (receipt second)))) :
    parallel.Serializes decoded world receipt last.world.catalog ∨
      parallel.Crosses decoded world receipt := by
  have hsound : world.catalog.unlocked.Sound :=
    (sound_of_run hfresh hrun (.refl _)).congr rfl rfl rfl
  obtain ⟨ledger, hkeeps, -, -⟩ := id hsound
  obtain ⟨leader, clock, seen, written, between, horder, hseen, hreceipts⟩ :=
    hparallel.exists_order hcommitted
  have hlabels : ∀ second, (written second).verdict.label = (receipt second).verdict.label :=
    fun second => congrArg Verdict.label (hreceipts second).1
  obtain ⟨hvisible, -⟩ := horder.first.verdict_eq hkeeps
  have hgroups := horder.sameGroups_unlocked hsound hvisible
  rcases hseen with rfl | rfl
  swap
  · exact .inl (horder.serializes hsound hlabels hgroups)
  rcases horder.serial_or_inserted hsound hcareful with hserial | hinserted
  · exact .inl (hserial.serializes hsound hlabels hgroups)
  cases hother : (written !leader).effect with
  | attached =>
      obtain ⟨written', between', ending', hserial, hverdicts, hgroups'⟩ :=
        horder.swap hsound hcareful hinserted hother
      refine .inl (hserial.serializes hsound (fun second => ?_) (hgroups'.trans hgroups))
      rw [hverdicts, hlabels]
  | inserted =>
      have hboth : ∀ second, (written second).effect = .inserted := by
        intro second
        rcases Bool.eq_or_eq_not second leader with rfl | rfl
        · exact hinserted
        · exact hother
      exact or_iff_not_imp_left.mpr
        (horder.crosses_of_not_serializes hsound hcareful hdigests hboth hreceipts hgroups)

/-- Of the two files that sound alike each makes an identity if both imports look into the
catalog before either commits.  One after the other, in either order, the second is found to
sound like the first. -/
theorem Session.twins_not_serializable :
    (opened .exclusive .withTwins).Fresh ∧
    (∃ (last : State Bool) (commits : List (Parallel.Commit Bool)) (receipt : Bool → Receipt),
      Parallel.twins.Run (fun _ _ => False) ⟨.withTwins, fun _ => .starting⟩ commits last ∧
      (∀ second, last.phase second = .finished (.ok (.committed (receipt second))) ∧
        (receipt second).verdict = .new) ∧
      last.world.catalog.size = .ok 2) ∧
    ∀ leader, (Parallel.twins.job leader).handling.careful = true ∧ ∃ now first next other,
      (Parallel.twins.importer leader).run (Parallel.twins.job leader) .withTwins =
          (now, .ok (.committed first)) ∧
        (Parallel.twins.importer !leader).run (Parallel.twins.job !leader) now =
          (next, .ok (.committed other)) ∧
        first.verdict = .new ∧ other.verdict = .perceptual first.identity 1 ∧
        next.catalog.size = .ok 1 := by
  obtain ⟨last, commits, receipt, hrun, hreceipts, -, hsize⟩ :=
    Parallel.exists_run_twins (Parallel.run_ready_twins fun _ _ => False)
  refine ⟨.refl _, ⟨last, commits, receipt, hrun, fun second => ?_, hsize⟩, fun leader =>
    ⟨rfl, World.Twins.exists_both leader⟩⟩
  obtain ⟨hphase, hnew, -⟩ := hreceipts second
  exact ⟨hphase, hnew⟩

/-- The two files, from when they are decoded. -/
theorem Session.serializes_or_crosses_of_twins :
    ∃ (last : State Bool) (commits : List (Parallel.Commit Bool)) (receipt : Bool → Receipt),
      Parallel.twins.Run World.LeftAlone (Parallel.ready .twin .withTwins) commits last ∧
      (∀ second, (receipt second).verdict = .new) ∧ last.world.catalog.size = .ok 2 ∧
      (Parallel.twins.Serializes .twin .withTwins receipt last.world.catalog ∨
        Parallel.twins.Crosses .twin .withTwins receipt) := by
  have hfresh : (opened .exclusive .withTwins).Fresh := .refl _
  obtain ⟨last, commits, receipt, hrun, hreceipts, -, hsize⟩ :=
    Parallel.exists_run_twins (.start (Parallel.ready .twin .withTwins))
  exact ⟨last, commits, receipt, hrun, fun second => (hreceipts second).2.1, hsize,
    serializes_or_crosses hfresh (.start _) Parallel.twins .twin (fun _ => rfl)
      Decoded.digest_twin_ne.symm hrun fun second => (hreceipts second).1⟩

end AudioCatalog
