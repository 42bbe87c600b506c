import AudioCatalog.Proofs.Catalog.Candidates
import AudioCatalog.Proofs.Import.Turns
import AudioCatalog.Proofs.Session.Reimport

/-!
# An import done twice

A file that is kept can be imported again.  If nothing has happened in between, it is given
the same identity, and nothing changes: not only the source is there, but also the metadata,
for it is read from the same file.

The identity is found for another reason than the first time if the first import has made it,
for then its digest is there.  If the first import has only matched the file, no digest and no
key has changed, and the match comes out the same again.
-/

namespace AudioCatalog

/-! ## Entries extended twice -/

/-- An extension by a source of a state that is there, and by the metadata that are there, adds
nothing. -/
theorem Identity.extended_eq_self {identity : Identity} {source noted : Source}
    (hmem : noted ∈ identity.sources) (hsame : noted.sameState source = true) :
    identity.extended source (some identity.metadata) = identity := by
  have hany : identity.sources.any (·.sameState source) = true :=
    List.any_eq_true.mpr ⟨noted, hmem, hsame⟩
  rw [extended, Source.addTo, if_pos hany, Option.getD_some]

/-- To extend an entry twice by sources of one state is to extend it once. -/
theorem extendEntry_twice (ledger : List Identity) (id : IdentityId) {source again : Source}
    (hstate : source.sameState again = true) (metadata : Metadata) :
    extendEntry (extendEntry ledger id source (some metadata)) id again (some metadata) =
      extendEntry ledger id source (some metadata) := by
  refine extendEntry_eq_self fun extended hextended hid => ?_
  obtain ⟨identity, -, rfl⟩ := List.mem_map.mp hextended
  by_cases hthere : identity.id = id
  · rw [if_pos hthere]
    obtain ⟨noted, hnoted, hsame⟩ := source.exists_state_addTo identity.sources
    have hagain : noted.sameState again = true :=
      Source.sameState_iff.mpr (hsame.trans (Source.sameState_iff.mp hstate))
    exact (identity.extended source (some metadata)).extended_eq_self hnoted hagain
  · rw [if_neg hthere] at hid
    exact absurd hid hthere

/-- To extend a new entry by a source of the state that it has is to do nothing. -/
theorem extendEntry_append_entry_self {ledger : List Identity} {id : IdentityId}
    (hne : ∀ identity ∈ ledger, identity.id ≠ id) (draft : Draft) {source again : Source}
    (hstate : source.sameState again = true) (now : Timestamp) :
    extendEntry (ledger ++ [draft.entry id [source] now]) id again (some draft.metadata) =
      ledger ++ [draft.entry id [source] now] := by
  refine extendEntry_eq_self fun identity hmem hid => ?_
  rcases List.mem_append.mp hmem with hmem | hmem
  · exact absurd hid (hne identity hmem)
  · rw [List.mem_singleton.mp hmem]
    exact Identity.extended_eq_self (List.mem_singleton.mpr rfl) hstate

/-! ## The second commit -/

/-- When a job is done does not matter to the state of the file that it notes. -/
theorem ImportJob.sameState_deposit (job : ImportJob) (decoded : Decoded) (now later : Timestamp) :
    (job.deposit decoded now).source.sameState (job.deposit decoded later).source = true :=
  Source.sameState_iff.mpr rfl

/-- Whatever the verdict was, the file is matched with its identity after the commit, and to
commit it again would not change the ledger. -/
theorem Importer.Commits.exists_ledger {importer : Importer} {job : ImportJob} {world : World}
    (hsound : world.catalog.Sound) {decoded : Decoded} {resolution : Resolution} {id : IdentityId}
    {effect : CommitEffect} {catalog : Catalog}
    (hcommits : importer.Commits job world decoded resolution id effect catalog) :
    ∃ ledger, catalog.Keeps ledger ∧ (∃ identity ∈ ledger, identity.id = id) ∧
      (resolutionIn ledger decoded.digest decoded.key job.handling.careful).verdict.matched =
        some id ∧
      ∀ later, extendEntry ledger id (job.deposit decoded later).source (some decoded.metadata) =
        ledger := by
  obtain ⟨ledger, hkeeps, -, -⟩ := hsound
  obtain ⟨-, rfl⟩ := hcommits.resolution_eq hkeeps
  obtain ⟨-, hwritten⟩ := ImportJob.write_cases hkeeps hcommits.written
  have hstate := job.sameState_deposit decoded world.now
  rcases hwritten with ⟨hinserted, -, -, hnew, hkept⟩ |
    ⟨-, hmatched, ⟨identity, hmem, hid⟩, hkept⟩
  · have hbelow := ImportJob.lt_of_inserted hkeeps hcommits.written hinserted
    have hne : ∀ identity ∈ ledger, identity.id ≠ id := fun identity hmem hid =>
      absurd (congrArg IdentityId.value hid) (Int.ne_of_lt (hbelow _ (hkeeps.mem_rows hmem)))
    refine ⟨_, hkept, ⟨_, List.mem_append_right _ (List.mem_singleton.mpr rfl), rfl⟩, ?_,
      fun later => extendEntry_append_entry_self hne _ (hstate later) _⟩
    -- The digest is there now, and only under the new identity.
    rw [resolutionIn_append_self hnew rfl]
    rfl
  · refine ⟨_, hkept, ⟨_, List.mem_map_of_mem hmem, ?_⟩, ?_,
      fun later => extendEntry_twice _ _ (hstate later) _⟩
    · rw [if_pos hid]
      exact hid
    · -- No digest and no key has changed, so that the match comes out the same.
      rw [resolutionIn_congr (map_toKnown_extendEntry ..)]
      exact hmatched

/-- Where nothing about the file has changed, the file is decoded to the same. -/
theorem Importer.decode_congr (importer : Importer) {world later : World} {path : Pathname}
    (hread : later.files.read path = world.files.read path) (facts : FileFacts) :
    importer.decode later path facts = importer.decode world path facts := by
  rw [decode, decode, hread]

/-- What a committed import of a kept file without a ticket has found out and written. -/
theorem Importer.commits_of_run (importer : Importer) {path : Pathname} {careful : Bool}
    {world next : World} {receipt : Receipt}
    (h : importer.run (.direct path ⟨true, careful⟩ none) world =
      (next, .ok (.committed receipt))) :
    ∃ decoded resolution effect,
      importer.Commits (.direct path ⟨true, careful⟩ none) world decoded resolution
        receipt.identity effect next.catalog := by
  rcases importer.run_cases (.direct path ⟨true, careful⟩ none) world with ⟨-, hnone⟩ |
    ⟨decoded, resolution, id, effect, catalog, claimed, hcommits, -, hdone⟩
  · rw [h] at hnone
    cases hnone
  · rw [h] at hdone
    cases hdone
    exact ⟨decoded, resolution, effect, hcommits⟩

namespace Errand

variable {errand : Errand} {world : World} {ledger : List Identity} {decoded : Decoded}
  {id : IdentityId}

/-- An import that is accepted gets as far as its commit. -/
theorem run_of_write_error (hkeeps : world.catalog.Keeps ledger)
    (haccepted : errand.Accepted world decoded) {error : Error}
    (hwrite : errand.job.write world decoded
      (resolutionIn ledger decoded.digest decoded.key errand.job.handling.careful) =
        .error error) :
    errand.importer.run errand.job world =
      (world, .error ⟨errand.job.path, .committed, error⟩) := by
  obtain ⟨claimed, hclaimed⟩ := Option.isSome_iff_exists.mp haccepted.claimable
  rw [Importer.run_eq, haccepted.admitted]
  simp only [ImportJob.wasCancelled_of_claimed? haccepted.claimable, Bool.false_eq_true, if_false,
    haccepted.decodes, haccepted.identified hkeeps, hclaimed, hwrite]

/-- What comes of an import that matches a file with an entry to which it adds nothing. -/
theorem run_of_settled (hkeeps : world.catalog.Keeps ledger)
    (haccepted : errand.Accepted world decoded) (hthere : ∃ identity ∈ ledger, identity.id = id)
    (hmatched : (resolutionIn ledger decoded.digest decoded.key
      errand.job.handling.careful).verdict.matched = some id)
    (hsettled : ∀ now, extendEntry ledger id (errand.job.deposit decoded now).source
      (some decoded.metadata) = ledger) :
    ∃ last conclusion,
      errand.importer.run errand.job world = (last, conclusion) ∧
      last.catalog.contents = .ok (ledger.map Identity.asStored) ∧
      (world.catalog.sources.greatestId < Table.idLimit ∧
          (∃ again, conclusion = .ok (.committed again) ∧ again.effect = .attached ∧
            again.identity = id) ∨
        Table.idLimit ≤ world.catalog.sources.greatestId ∧
          conclusion = .error ⟨errand.job.path, .committed, .store .full⟩) := by
  have htext : (errand.job.deposit decoded world.now).source.Textual :=
    World.text_of_admitted haccepted.admitted
  rcases lt_or_ge world.catalog.sources.greatestId Table.idLimit with hroom | hfull
  · obtain ⟨catalog, hadded⟩ : ∃ next, world.catalog.addSource id
        (errand.job.deposit decoded world.now).source (some decoded.metadata) errand.job.ticket
          world.now = .ok next :=
      (hkeeps.exists_addSource_iff hthere htext hroom).mpr haccepted.openFor
    have hwritten : errand.job.write world decoded
        (resolutionIn ledger decoded.digest decoded.key errand.job.handling.careful) =
          .ok (id, .attached, catalog) := by
      simp only [ImportJob.write, hmatched]
      exact map_eq_ok_iff.mpr ⟨catalog, hadded, rfl⟩
    obtain ⟨last, again, hrun, hid, heffect, rfl, hvisible⟩ := exists_run hkeeps haccepted
      ⟨haccepted.admitted, ImportJob.wasCancelled_of_claimed? haccepted.claimable,
        haccepted.decodes, haccepted.identified hkeeps, hwritten⟩
    obtain ⟨-, ⟨hinserted, -⟩ | ⟨-, -, -, hkept⟩⟩ := ImportJob.write_cases hkeeps hwritten
    · cases hinserted
    · rw [hsettled] at hkept
      exact ⟨last, _, hrun, hkept.contents_eq_ok hvisible, .inl ⟨hroom, again, rfl, heffect, hid⟩⟩
  · have hwrite : errand.job.write world decoded
        (resolutionIn ledger decoded.digest decoded.key errand.job.handling.careful) =
          .error (.store .full) := by
      simp only [ImportJob.write, hmatched]
      exact map_eq_error_iff.mpr (Catalog.addSource_of_full ((hkeeps.hasIdentity_iff id).mpr hthere)
        haccepted.openFor htext hfull _ _)
    exact ⟨world, _, run_of_write_error hkeeps haccepted hwrite,
      hkeeps.contents_eq_ok haccepted.visible, .inr ⟨hfull, rfl⟩⟩

end Errand

namespace Session

/-- An import of a file that is kept is committed.  If the file stays as it is and the catalog
too, the same import is committed again, under the same identity, and all that is read of the
catalog is as it was after the first.  There is one exception: where the first import has used
up the last number of a source, the second fails, and changes nothing either. -/
theorem repeat_of_committed {first : Session} {storage : Storage} {world next later : World}
    {answers : List Answer} (hfresh : first.Fresh)
    (hrun : Run first answers (opened storage world)) {importer : Importer} {path : Pathname}
    {careful : Bool} {receipt : Receipt}
    (hcommitted : importer.run (.direct path ⟨true, careful⟩ none) world =
      (next, .ok (.committed receipt)))
    (hcatalog : later.catalog = next.catalog) (hadmission : later.admit path = world.admit path)
    (hread : later.files.read path = world.files.read path) :
    ∃ last conclusion identities,
      importer.run (.direct path ⟨true, careful⟩ none) later = (last, conclusion) ∧
      next.catalog.contents = .ok identities ∧ last.catalog.contents = .ok identities ∧
      (next.catalog.sources.greatestId < Table.idLimit ∧
          (∃ again, conclusion = .ok (.committed again) ∧ again.effect = .attached ∧
            again.identity = receipt.identity) ∨
        Table.idLimit ≤ next.catalog.sources.greatestId ∧
          conclusion = .error ⟨path, .committed, .store .full⟩) := by
  have hsound : world.catalog.Sound := sound_of_run hfresh hrun (.refl _)
  obtain ⟨decoded, resolution, effect, hcommits⟩ := importer.commits_of_run hcommitted
  obtain ⟨⟨hunlocked, hwritable, -⟩, -, -, -, _, _, _, hnext⟩ :=
    ImportJob.openFor_of_write hcommits.written
  have hvisible : world.catalog.access ≠ .blind := by
    obtain ⟨_, hkeeps, -, -⟩ := hsound
    exact (hcommits.resolution_eq hkeeps).1
  obtain ⟨ledger, hkeeps, hthere, hmatched, hsettled⟩ := hcommits.exists_ledger hsound
  have haccepted : Errand.Accepted ⟨importer, .direct path ⟨true, careful⟩ none⟩ later decoded :=
    { admitted := hadmission.trans hcommits.admitted
      claimable := rfl
      decodes := (importer.decode_congr hread _).trans hcommits.decodes
      visible := by
        rw [hcatalog, hnext]
        exact hvisible
      openFor := by
        rw [hcatalog, hnext]
        exact ⟨hunlocked, hwritable, nofun⟩ }
  rw [← hcatalog] at hkeeps ⊢
  obtain ⟨last, conclusion, hagain, hcontents, hcases⟩ :=
    Errand.run_of_settled hkeeps haccepted hthere hmatched hsettled
  exact ⟨last, conclusion, _, hagain, hkeeps.contents_eq_ok haccepted.visible, hcontents, hcases⟩

/-- The first of two files that sound alike is imported twice. -/
theorem repeat_of_twin : ∃ now receipt last again identities,
    (Errand.twin false true).importer.run (Errand.twin false true).job .withTwins =
        (now, .ok (.committed receipt)) ∧
      (Errand.twin false true).importer.run (Errand.twin false true).job now =
        (last, .ok (.committed again)) ∧
      again.effect = .attached ∧ again.identity = receipt.identity ∧
      now.catalog.contents = .ok identities ∧ last.catalog.contents = .ok identities := by
  obtain ⟨now, receipt, known, hrun, -, -, -, hnow, -⟩ := World.Twins.exists_first
  have hfresh : (opened .exclusive .withTwins).Fresh := .refl _
  have hadmission : now.admit (.twin false) = World.withTwins.admit (.twin false) := by
    rw [World.admit_withTwins hnow.files, World.admit_withTwins rfl]
  obtain ⟨last, conclusion, identities, hagain, hbefore, hafter, ⟨-, again, rfl, hattached, hsame⟩ |
    ⟨hfull, -⟩⟩ := repeat_of_committed hfresh (.start _) hrun rfl hadmission (by rw [hnow.files])
  · exact ⟨now, receipt, last, again, identities, hrun, hagain, hattached, hsame, hbefore, hafter⟩
  · rw [hnow.sources] at hfull
    exact absurd hfull (by decide)

end Session

end AudioCatalog
