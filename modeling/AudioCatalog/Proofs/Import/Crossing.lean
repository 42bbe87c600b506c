import AudioCatalog.Proofs.Import.Serial

/-!
# Imports that cross

Two careful imports cross if each looks into the catalog before the other one commits.  What
they come to is then mostly what they come to one after the other, in the same order or in the
other one.  It is something else only if they match and both made an identity: one after the
other, the second would have been found to sound like the first.
-/

namespace AudioCatalog

/-- An identity without its number. -/
def Identity.unnumbered (identity : Identity) : Identity :=
  { identity with id := ⟨0⟩ }

/-- Whether two catalogs group the same sources in the same way, under whatever numbers and in
whatever order. -/
def Catalog.SameGroups (catalog next : Catalog) : Prop :=
  ∃ identities others, catalog.contents = .ok identities ∧ next.contents = .ok others ∧
    (identities.map Identity.unnumbered).Perm (others.map Identity.unnumbered)

theorem Catalog.Keeps.sameGroups {catalog next : Catalog} {ledger other : List Identity}
    (hkeeps : catalog.Keeps ledger) (hkept : next.Keeps other)
    (hvisible : catalog.access ≠ .blind) (haccess : next.access = catalog.access)
    (hperm : (ledger.map fun identity => identity.asStored.unnumbered).Perm
      (other.map fun identity => identity.asStored.unnumbered)) :
    catalog.SameGroups next := by
  refine ⟨_, _, hkeeps.contents_eq_ok hvisible, hkept.contents_eq_ok (haccess ▸ hvisible), ?_⟩
  rw [List.map_map, List.map_map]
  exact hperm

theorem Catalog.SameGroups.trans {catalog next last : Catalog} (hfirst : catalog.SameGroups next)
    (hsecond : next.SameGroups last) : catalog.SameGroups last := by
  obtain ⟨identities, others, hidentities, hothers, hperm⟩ := hfirst
  obtain ⟨same, rest, hsame, hrest, hperm'⟩ := hsecond
  obtain rfl : others = same := Except.ok.inj (hothers.symm.trans hsame)
  exact ⟨identities, rest, hidentities, hrest, hperm.trans hperm'⟩

/-- A verdict that names no identity has the label of one, and only then. -/
theorem Verdict.matched_eq_none_iff_label (verdict : Verdict) :
    verdict.matched = none ↔ verdict.label = "new" ∨ verdict.label = "ambiguous" := by
  cases verdict <;> simp [matched, label]

namespace ImportJob.Turn

variable {job other : ImportJob} {decoded later : Decoded} {seen before after : Catalog}
  {now : Timestamp} {receipt : Receipt}

/-- After a turn another import takes its turn where it could before, if there are numbers
left. -/
theorem exists_next (hturn : job.Turn decoded seen before now receipt after)
    (hsound : before.Sound) (hvisible : before.access ≠ .blind) (htext : other.path.text?.isSome)
    (hopen : before.OpenFor other.ticket)
    (hidentities : after.identities.greatestId < Table.idLimit)
    (hsources : after.sources.greatestId < Table.idLimit) (time : Timestamp) :
    ∃ receipt' ending, other.Turn later after after time receipt' ending := by
  obtain ⟨hafter, haccess, hunlocked, htickets, -, -⟩ := hturn.frame hsound
  obtain ⟨-, hwritable, hknown⟩ := hopen
  obtain ⟨world, -⟩ := hturn
  refine exists_turn hafter (haccess ▸ hvisible) htext ⟨hunlocked, haccess ▸ hwritable, ?_⟩
    hidentities hsources world time
  intro id hid
  rw [htickets]
  exact hknown id hid

/-- A turn decides what the look-up says. -/
theorem exists_identify (hturn : job.Turn decoded seen before now receipt after) :
    ∃ resolution, receipt.verdict = resolution.verdict ∧
      identify decoded.digest decoded.key seen.lookup job.handling.careful = .ok resolution := by
  obtain ⟨world, resolution, id, effect, -, -, hidentified, -, rfl⟩ := hturn
  exact ⟨resolution, rfl, hidentified⟩

/-- A turn makes an identity if the verdict names none. -/
theorem inserted_iff (hturn : job.Turn decoded seen before now receipt after)
    (hsound : before.Sound) : receipt.effect = .inserted ↔ receipt.verdict.matched = none := by
  obtain ⟨ledger, hkeeps, -, -⟩ := hsound
  obtain ⟨hinserted, hmatched, -⟩ | ⟨hattached, id, hmatched, -⟩ := hturn.cases hkeeps
  · exact iff_of_true hinserted hmatched
  · rw [hattached, hmatched]
    exact iff_of_false (by decide) (Option.some_ne_none id)

/-- A turn that makes an identity adds its entry to the ledger. -/
theorem keeps_of_inserted (hturn : job.Turn decoded seen before now receipt after)
    {ledger : List Identity} (hkeeps : before.Keeps ledger)
    (hinserted : receipt.effect = .inserted) :
    let deposit := job.deposit decoded now
    after.Keeps (ledger ++
      [deposit.draft.entry ⟨before.identities.greatestId + 1⟩ [deposit.source] now]) := by
  obtain ⟨-, -, -, hkept⟩ | ⟨hattached, -⟩ := hturn.cases hkeeps
  · exact hkept
  · rw [hinserted] at hattached
    cases hattached

end ImportJob.Turn

namespace Parallel

variable {κ : Type} {parallel : Parallel Bool κ} {decoded : Bool → Decoded}
  {clock : Bool → Timestamp} {leader : Bool} {start seen between ending : Catalog}
  {written : Bool → Receipt}

/-- Both imports of an order could have been written to the catalog at the start. -/
theorem Order.openFor (horder : parallel.Order decoded clock leader start seen written between
    ending) (hsound : start.Sound) (second : Bool) :
    start.OpenFor (parallel.job second).ticket ∧ (parallel.job second).path.text?.isSome := by
  obtain ⟨hfirst, hsecond⟩ := horder
  obtain ⟨-, haccess, -, htickets, -, -⟩ := hfirst.frame hsound
  obtain ⟨⟨hunlocked, hwritable, hknown⟩, htext, -, -⟩ := hfirst.openFor
  rcases Bool.eq_or_eq_not second leader with rfl | rfl
  · exact ⟨⟨hunlocked, hwritable, hknown⟩, htext⟩
  · obtain ⟨⟨-, -, hknown'⟩, htext', -, -⟩ := hsecond.openFor
    exact ⟨⟨hunlocked, hwritable, fun id hid => htickets id.value ▸ hknown' id hid⟩, htext'⟩

theorem extendEntry_append_of_ne {ledger : List Identity} {entry : Identity} {id : IdentityId}
    (hne : entry.id ≠ id) (source : Source) (metadata : Option Metadata) :
    extendEntry (ledger ++ [entry]) id source metadata =
      extendEntry ledger id source metadata ++ [entry] := by
  rw [extendEntry, List.map_append, List.map_singleton, if_neg hne]
  rfl

/-- Both have decided by the ledger at the start. -/
theorem Order.verdict_eq
    (horder : parallel.Order decoded clock leader start start written between ending)
    {ledger : List Identity} (hkeeps : start.Keeps ledger) (second : Bool) :
    start.access ≠ .blind ∧ (written second).verdict =
      (resolutionIn ledger (decoded second).digest (decoded second).key
        (parallel.job second).handling.careful).verdict := by
  rcases Bool.eq_or_eq_not second leader with rfl | rfl
  · exact horder.first.verdict_eq hkeeps
  · exact horder.second.verdict_eq hkeeps

theorem Order.inserted_iff
    (horder : parallel.Order decoded clock leader start seen written between ending)
    (hsound : start.Sound) (second : Bool) :
    (written second).effect = .inserted ↔ (written second).verdict.matched = none := by
  obtain ⟨hbetween, -⟩ := horder.first.frame hsound
  rcases Bool.eq_or_eq_not second leader with rfl | rfl
  · exact horder.first.inserted_iff hsound
  · exact horder.second.inserted_iff hbetween

theorem Order.access_eq
    (horder : parallel.Order decoded clock leader start seen written between ending)
    (hsound : start.Sound) : ending.access = start.access := by
  obtain ⟨hbetween, haccess, -⟩ := horder.first.frame hsound
  obtain ⟨-, haccess', -⟩ := horder.second.frame hbetween
  exact haccess'.trans haccess

/-- If the leader has made an identity, either could go first and be finished before the other
one begins, as far as there are numbers left.  The first one decides the same. -/
theorem Order.exists_serial_order
    (horder : parallel.Order decoded clock leader start start written between ending)
    (hsound : start.Sound) (hinserted : (written leader).effect = .inserted) (first : Bool)
    (hroom : (written first).effect = .inserted → (written !leader).effect = .inserted) :
    ∃ written' between' ending',
      parallel.Order decoded clock first start between' written' between' ending' ∧
      (written' first).verdict = (written first).verdict := by
  obtain ⟨ledger, hkeeps, -, -⟩ := id hsound
  have hopen := horder.openFor hsound
  obtain ⟨hvisible, hverdict⟩ := horder.verdict_eq hkeeps first
  obtain ⟨-, -, hsources, hidentities⟩ := horder.first.openFor
  obtain ⟨-, -, -, -, hsources', hidentities'⟩ := horder.first.frame hsound
  obtain ⟨-, -, hleft, hleft'⟩ := horder.second.openFor
  obtain ⟨world, -⟩ := horder.first
  have hfirst : ∃ one between', (parallel.job first).Turn (decoded first) start start
      (clock first) one between' :=
    ImportJob.exists_turn hsound hvisible (hopen first).2 (hopen first).1 (hidentities hinserted)
      hsources world (clock first)
  obtain ⟨one, between', hone⟩ := hfirst
  have hsame : one.verdict = (written first).verdict :=
    (hone.verdict_eq hkeeps).2.trans hverdict.symm
  obtain ⟨-, -, -, -, hused, hused'⟩ := hone.frame hsound
  have hmore : between'.identities.greatestId < Table.idLimit := by
    rw [hused']
    split
    · rename_i hmade
      have hmade' : (written first).effect = .inserted := by
        rwa [horder.inserted_iff hsound, ← hsame, ← hone.inserted_iff hsound]
      have hnumber := hleft' (hroom hmade')
      rwa [hidentities', if_pos hinserted] at hnumber
    · rw [Int.add_zero]
      exact hidentities hinserted
  have hsecond : ∃ two ending', (parallel.job !first).Turn (decoded !first) between' between'
      (clock !first) two ending' :=
    hone.exists_next hsound hvisible (hopen !first).2 (hopen !first).1 hmore
      (by rw [hused, ← hsources']; exact hleft) (clock !first)
  obtain ⟨two, ending', htwo⟩ := hsecond
  obtain ⟨written', hwritten, hwritten'⟩ := exists_pair first one two
  exact ⟨written', between', ending', ⟨hwritten ▸ hone, hwritten' ▸ htwo⟩, hwritten ▸ hsame⟩

/-- If the leader has made an identity and the other one has not, they could as well have gone
the other way round. -/
theorem Order.swap
    (horder : parallel.Order decoded clock leader start start written between ending)
    (hsound : start.Sound)
    (hcareful : ∀ second, (parallel.job second).handling.careful = true)
    (hinserted : (written leader).effect = .inserted)
    (hattached : (written !leader).effect = .attached) :
    ∃ written' between' ending',
      parallel.Order decoded clock (!leader) start between' written' between' ending' ∧
      (∀ second, (written' second).verdict = (written second).verdict) ∧
      ending'.SameGroups ending := by
  obtain ⟨ledger, hkeeps, -, -⟩ := id hsound
  obtain ⟨hvisible, hverdict⟩ := horder.verdict_eq hkeeps leader
  obtain ⟨written', between', ending', horder', hsame⟩ := horder.exists_serial_order hsound
    hinserted (!leader) fun h => by rw [hattached] at h; cases h
  obtain ⟨hfirst, hsecond⟩ := id horder'
  rw [Bool.not_not] at hsecond
  obtain ⟨hinserted', -⟩ | ⟨-, extended, hextended, -, hended⟩ :=
    horder.second.cases (horder.first.keeps_of_inserted hkeeps hinserted)
  · rw [hattached] at hinserted'
    cases hinserted'
  obtain ⟨-, hnone, -⟩ | ⟨-, same, hmatched, hthere, hkept⟩ := hfirst.cases hkeeps
  · rw [hsame, hextended] at hnone
    cases hnone
  rw [hsame, hextended] at hmatched
  obtain rfl := Option.some.inj hmatched
  -- An extension changes nothing that the leader goes by.
  have hsame' : (written' leader).verdict = (written leader).verdict := by
    rw [(hsecond.verdict_eq hkept).2, hverdict, hcareful,
      resolutionIn_congr (map_toKnown_extendEntry ..)]
  obtain ⟨hbetween, -⟩ := hfirst.frame hsound
  have hinserted' : (written' leader).effect = .inserted := by
    rwa [hsecond.inserted_iff hbetween, hsame', ← horder.inserted_iff hsound]
  have hkept' := hsecond.keeps_of_inserted hkept hinserted'
  have hne : ((⟨start.identities.greatestId + 1⟩ : IdentityId)) ≠ extended := by
    rintro rfl
    obtain ⟨identity, hmem, hid⟩ := hthere
    have hle := hkeeps.id_le_greatestId hmem
    rw [hid] at hle
    simp only at hle
    omega
  rw [extendEntry_append_of_ne hne] at hended
  have haccess := (horder'.access_eq hsound).symm
  refine ⟨written', between', ending', horder', fun second => ?_,
    hkept'.sameGroups hended (haccess ▸ hvisible) ((horder.access_eq hsound).trans haccess) ?_⟩
  · rcases Bool.eq_or_eq_not second leader with rfl | rfl
    · exact hsame'
    · exact hsame
  · rw [List.map_append, List.map_append]
    exact .refl _

/-- If both have made identities, either could go first.  The other one would have made an
identity as it did, or it would have sounded like the first one, whose key it matches. -/
theorem Order.serial_or_perceptual
    (horder : parallel.Order decoded clock leader start start written between ending)
    (hsound : start.Sound)
    (hcareful : ∀ second, (parallel.job second).handling.careful = true)
    (hdigests : (decoded false).digest ≠ (decoded true).digest)
    (hinserted : ∀ second, (written second).effect = .inserted) (first : Bool) :
    ∃ written' between' ending',
      parallel.Order decoded clock first start between' written' between' ending' ∧
      (written' first).verdict = (written first).verdict ∧
      ((written' !first).verdict.label = (written !first).verdict.label ∧
          ending'.SameGroups ending ∨
        (written' !first).verdict.label = "perceptual" ∧
          ∃ own ∈ (decoded !first).key, ∃ known ∈ (decoded first).key,
            matchThreshold ≤ own.similarity known) := by
  obtain ⟨ledger, hkeeps, -, -⟩ := id hsound
  obtain ⟨hvisible, hverdict⟩ := horder.verdict_eq hkeeps (!first)
  obtain ⟨written', between', ending', horder', hsame⟩ := horder.exists_serial_order hsound
    (hinserted leader) first fun _ => hinserted !leader
  obtain ⟨hbetween, -⟩ := horder'.first.frame hsound
  have hmade : (written' first).effect = .inserted := by
    rw [horder'.first.inserted_iff hsound, hsame, ← horder.inserted_iff hsound]
    exact hinserted first
  have hkept := horder'.first.keeps_of_inserted hkeeps hmade
  have hmatched := (horder.inserted_iff hsound (!first)).mp (hinserted !first)
  have hverdict' := (horder'.second.verdict_eq hkept).2
  rw [hcareful] at hverdict hverdict'
  let deposit := (parallel.job first).deposit (decoded first) (clock first)
  have hother : (deposit.draft.entry ⟨start.identities.greatestId + 1⟩ [deposit.source]
      (clock first)).digest ≠ (decoded !first).digest := by
    cases first with
    | false => exact hdigests
    | true => exact hdigests.symm
  refine ⟨written', between', ending', horder', hsame, ?_⟩
  rcases label_resolutionIn_append hother (hverdict ▸ hmatched) with hlabel | hlabel
  · left
    have hlabel' : (written' !first).verdict.label = (written !first).verdict.label := by
      rw [hverdict, hverdict']
      exact hlabel
    have hmade' : (written' !first).effect = .inserted := by
      rw [horder'.second.inserted_iff hbetween, Verdict.matched_eq_none_iff_label, hlabel',
        ← Verdict.matched_eq_none_iff_label]
      exact hmatched
    have hkept' := horder'.second.keeps_of_inserted hkept hmade'
    have hended := horder.second.keeps_of_inserted
      (horder.first.keeps_of_inserted hkeeps (hinserted leader)) (hinserted !leader)
    have haccess := (horder'.access_eq hsound).symm
    refine ⟨hlabel', hkept'.sameGroups hended (haccess ▸ hvisible)
      ((horder.access_eq hsound).trans haccess) ?_⟩
    simp only [List.map_append, List.map_singleton]
    rcases Bool.eq_or_eq_not first leader with rfl | rfl
    · exact .refl _
    · simp only [List.append_assoc, Bool.not_not]
      exact .append_left _ (.swap ..)
  · right
    refine ⟨(congrArg Verdict.label hverdict').trans hlabel, ?_⟩
    by_contra hfar
    rw [resolutionIn_append hother fun own hown known hknown hmatches =>
      hfar ⟨own, hown, known, hknown, hmatches⟩] at hlabel
    rw [hverdict, Verdict.matched_eq_none_iff_label, hlabel] at hmatched
    exact absurd hmatched (by decide)

/-- The second of two that crossed would have decided the same after the first one, unless that
made an identity. -/
theorem Order.serial_or_inserted
    (horder : parallel.Order decoded clock leader start start written between ending)
    (hsound : start.Sound)
    (hcareful : ∀ second, (parallel.job second).handling.careful = true) :
    parallel.Order decoded clock leader start between written between ending ∨
      (written leader).effect = .inserted := by
  obtain ⟨ledger, hkeeps, -, -⟩ := id hsound
  obtain ⟨-, haccess, -⟩ := horder.first.frame hsound
  obtain ⟨hinserted, -⟩ | ⟨-, extended, -, -, hkept⟩ := horder.first.cases hkeeps
  · exact .inr hinserted
  · refine .inl ⟨horder.first, horder.second.of_seen hkeeps hkept haccess ?_⟩
    rw [hcareful]
    exact resolutionIn_congr (map_toKnown_extendEntry ..) _ _ _

/-- What two imports decide one after the other does not depend on the time. -/
theorem Order.verdict_unique {clock' : Bool → Timestamp} {between' ending' : Catalog}
    {written' : Bool → Receipt}
    (horder : parallel.Order decoded clock leader start between written between ending)
    (horder' : parallel.Order decoded clock' leader start between' written' between' ending')
    (hsound : start.Sound)
    (hcareful : ∀ second, (parallel.job second).handling.careful = true) (second : Bool) :
    (written' second).verdict = (written second).verdict := by
  obtain ⟨ledger, hkeeps, -, -⟩ := id hsound
  have hfirst : (written' leader).verdict = (written leader).verdict :=
    (horder'.first.verdict_eq hkeeps).2.trans (horder.first.verdict_eq hkeeps).2.symm
  have hknown : ∃ entries entries', between.Keeps entries ∧ between'.Keeps entries' ∧
      entries'.map (·.toKnown) = entries.map (·.toKnown) := by
    obtain ⟨-, hnone, -, hkept⟩ | ⟨-, extended, hsome, -, hkept⟩ := horder.first.cases hkeeps
    · obtain ⟨-, -, -, hkept'⟩ | ⟨-, _, hsome, -⟩ := horder'.first.cases hkeeps
      · refine ⟨_, _, hkept, hkept', ?_⟩
        rw [List.map_append, List.map_append]
        rfl
      · rw [hfirst, hnone] at hsome
        cases hsome
    · obtain ⟨-, hnone, -⟩ | ⟨-, _, -, -, hkept'⟩ := horder'.first.cases hkeeps
      · rw [hfirst, hsome] at hnone
        cases hnone
      · refine ⟨_, _, hkept, hkept', ?_⟩
        rw [map_toKnown_extendEntry, map_toKnown_extendEntry]
  rcases Bool.eq_or_eq_not second leader with rfl | rfl
  · exact hfirst
  · obtain ⟨entries, entries', hkept, hkept', hsame⟩ := hknown
    rw [(horder'.second.verdict_eq hkept').2, (horder.second.verdict_eq hkept).2, hcareful,
      resolutionIn_congr hsame]

end Parallel

end AudioCatalog
