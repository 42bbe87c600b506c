import AudioCatalog.Proofs.Session.Effect
import AudioCatalog.Proofs.Session.Reimport

/-!
# What a commit notes of its file

A committed import leaves a source behind that has the path name, the time and the size of
its file.  If the identity had such a source before, that one stays as it was and nothing is
noted anew: it may then say that a file was kept which this import has removed.  Sources are
told apart by the text of their path names, so another spelling of a name is noted anew.
-/

namespace AudioCatalog

/-! ## One source for each state -/

namespace Source

/-- Sources of the same state are the same by the text of their path names. -/
theorem sameState_iff_sameAs {a b : Source} :
    a.sameState b = true ↔ a.sameAs b = true ∧ a.path = b.path := by
  constructor
  · intro hsame
    have hpath : a.path = b.path := congrArg (·.1) (sameState_iff.mp hsame)
    refine ⟨?_, hpath⟩
    simpa [sameState, sameAs, Pathname.equivalent, hpath] using hsame
  · rintro ⟨hsame, hpath⟩
    simpa [sameState, sameAs, Pathname.equivalent, hpath] using hsame

/-- Of sources of distinct states at most one has the state of a given source. -/
theorem filter_sameState {sources : List Source}
    (hdistinct : sources.Pairwise fun a b => a.sameState b = false) {noted source : Source}
    (hmem : noted ∈ sources) (hsame : noted.sameState source = true) :
    sources.filter (·.sameState source) = [noted] := by
  have hnodup : (sources.map state).Nodup := by
    refine List.pairwise_map.mpr (hdistinct.imp fun {a b} hdiffers hstate => ?_)
    rw [sameState_iff.mpr hstate] at hdiffers
    cases hdiffers
  have hfilter : sources.filter (·.sameState source) = sources.filter (· = noted) := by
    apply List.filter_congr
    intro other hother
    rw [Bool.eq_iff_iff, decide_eq_true_eq, sameState_iff, ← sameState_iff.mp hsame]
    exact ⟨fun hstate => List.inj_on_of_nodup_map hnodup hother hmem hstate, congrArg state⟩
  rw [hfilter, List.filter_eq, List.count_eq_one_of_mem hnodup.of_map hmem, List.replicate_one]

end Source

/-! ## Commits -/

/-- What the file of a job is noted as when it is read again. -/
def ImportJob.note (job : ImportJob) (facts : FileFacts) (now : Timestamp) : Source :=
  (Source.ofFile job.path facts job.handling.keepFile job.route now).asStored

/-- What is read of a catalog is its ledger. -/
theorem Catalog.Keeps.eq_map_of_contents {catalog : Catalog} {ledger identities : List Identity}
    (hkeeps : catalog.Keeps ledger) (hread : catalog.contents = .ok identities) :
    identities = ledger.map Identity.asStored := by
  rw [hkeeps.contents] at hread
  cases hvisible : catalog.demandVisible with
  | error fault =>
      rw [hvisible] at hread
      cases hread
  | ok _ =>
      rw [hvisible] at hread
      cases hread
      rfl

/-- Entries that are read from a catalog are told apart by their numbers. -/
theorem Catalog.Keeps.eq_of_contents {catalog : Catalog} {ledger identities : List Identity}
    (hkeeps : catalog.Keeps ledger) (hread : catalog.contents = .ok identities) {a b : Identity}
    (ha : a ∈ identities) (hb : b ∈ identities) (hid : a.id = b.id) : a = b := by
  obtain rfl := hkeeps.eq_map_of_contents hread
  obtain ⟨first, hfirst, rfl⟩ := List.mem_map.mp ha
  obtain ⟨second, hsecond, rfl⟩ := List.mem_map.mp hb
  rw [hkeeps.eq_of_id_eq hfirst hsecond hid]

/-- The sources that are read of an identity are of distinct states. -/
theorem Catalog.Sound.distinct_of_contents {catalog : Catalog} (hsound : catalog.Sound)
    {identities : List Identity} (hread : catalog.contents = .ok identities) {identity : Identity}
    (hmem : identity ∈ identities) :
    identity.sources.Pairwise fun a b => a.sameState b = false := by
  obtain ⟨ledger, hkeeps, hledger, -⟩ := hsound
  obtain rfl := hkeeps.eq_map_of_contents hread
  obtain ⟨kept, hkept, rfl⟩ := List.mem_map.mp hmem
  exact List.pairwise_map.mpr (hledger.distinct kept hkept)

/-- The source of a committed import is added to those that its identity had. -/
theorem Importer.Commits.sources {importer : Importer} {job : ImportJob} {world : World}
    {ledger : List Identity} (hkeeps : world.catalog.Keeps ledger) {decoded : Decoded}
    {resolution : Resolution} {id : IdentityId} {effect : CommitEffect} {catalog : Catalog}
    (hcommits : importer.Commits job world decoded resolution id effect catalog) :
    ∃ before after identity earlier,
      world.catalog.contents = .ok before ∧ catalog.contents = .ok after ∧
      identity ∈ after ∧ identity.id = id ∧
      identity.sources = (job.note decoded.facts world.now).addTo earlier ∧
      (∀ old ∈ before, old.id = id → old.sources = earlier) ∧
      ((∃ old ∈ before, old.id = id) ∨ earlier = []) := by
  obtain ⟨before, after, hbefore, hafter, -, hinserted, hattached, -⟩ := hcommits.contents hkeeps
  cases effect with
  | inserted =>
      obtain ⟨hnew, rfl⟩ := hinserted rfl
      refine ⟨before, _, _, [], hbefore, hafter,
        List.mem_append_right _ (List.mem_singleton.mpr rfl), rfl, rfl, ?_, .inr rfl⟩
      intro old hold hid
      exact absurd (congrArg IdentityId.value hid) (Int.ne_of_lt (hnew old hold))
  | attached =>
      obtain ⟨-, ⟨old, hold, hid⟩, rfl⟩ := hattached rfl
      refine ⟨before, _, _, old.sources, hbefore, hafter, List.mem_map_of_mem hold, ?_, ?_, ?_,
        .inl ⟨old, hold, hid⟩⟩
      · rw [if_pos hid]
        exact hid
      · rw [if_pos hid]
        rfl
      · intro other hother hsame
        rw [hkeeps.eq_of_contents hbefore hother hold (hsame.trans hid.symm)]

/-- What is known of a committed import when the session comes of a new catalog. -/
theorem Session.sources_of_committed {first : Session} {storage : Storage} {world next : World}
    {answers : List Answer} (hfresh : first.Fresh)
    (hrun : Run first answers (opened storage world)) {importer : Importer} {job : ImportJob}
    {meddle : FileSystem Catalog → FileSystem Catalog} {receipt : Receipt}
    (hcommitted : importer.runAmong job (.meddling meddle) world =
      (next, .ok (.committed receipt))) :
    ∃ facts before after identity earlier,
      world.admit job.path = .ok (.ok facts) ∧
      (receipt.fileRemoved = true → job.handling.keepFile = false) ∧
      world.catalog.contents = .ok before ∧ next.catalog.contents = .ok after ∧
      identity ∈ after ∧ identity.id = receipt.identity ∧
      (identity.sources.Pairwise fun a b => a.sameState b = false) ∧
      identity.sources = (job.note facts world.now).addTo earlier ∧
      (∀ old ∈ before, old.id = receipt.identity → old.sources = earlier) ∧
      ((∃ old ∈ before, old.id = receipt.identity) ∨ earlier = []) := by
  have hsound : world.catalog.Sound := sound_of_run hfresh hrun (.refl _)
  obtain ⟨decoded, resolution, id, effect, catalog, claimed, hcommits, hclaimed, hcleared⟩ :=
    importer.commits_of_meddling job meddle hcommitted
  have hnext := hsound.write (ImportJob.write_of_write hcommits.written)
  obtain ⟨ledger, hkeeps, -, -⟩ := hsound
  obtain ⟨before, after, identity, earlier, hbefore, hafter, hmem, hid, hsources, hearlier⟩ :=
    hcommits.sources hkeeps
  obtain ⟨files, removed, heq, hgone, -⟩ :=
    job.cleared_eq { claimed with catalog := catalog, files := meddle claimed.files }
      (job.receipt decoded resolution id effect) rfl
  rw [heq] at hcleared
  cases hcleared
  exact ⟨decoded.facts, before, after, identity, earlier, hcommits.admitted,
    fun h => (hgone h).1, hbefore, hafter, hmem, hid, hnext.distinct_of_contents hafter hmem,
    hsources, hearlier⟩

/-! ## One file imported twice -/

/-- The import of the file `a`, under a name that leads to it. -/
def ImportJob.click (path : Pathname) (keepFile : Bool) : ImportJob :=
  .direct path ⟨keepFile, true⟩ none

/-- What an import finds out about the file `a`. -/
def Decoded.click : Decoded :=
  ⟨⟨1, 0⟩, .empty, Importer.click.stream.digest, none⟩

/-- The first import of the file `a`, which is kept, makes one identity of it. -/
theorem Importer.exists_run_click : ∃ world receipt entry,
    clicking.run (.click ⟨[47, 97]⟩ true) .withOneFile = (world, .ok (.committed receipt)) ∧
      world.files = World.withOneFile.files ∧ world.now = 0 ∧ world.catalog.Keeps [entry] ∧
      entry.digest = Decoded.click.digest ∧
      entry.sources.map Source.asStored =
        [ImportJob.note (.click ⟨[47, 97]⟩ true) ⟨1, 0⟩ 0] ∧
      world.catalog.sources.greatestId = 1 ∧ world.catalog.access = .full ∧
      world.catalog.locked = false := by
  have hkeeps : World.withOneFile.catalog.Keeps [] := World.Twins.start.keeps
  obtain ⟨catalog, hwrite⟩ : ∃ catalog, (ImportJob.click ⟨[47, 97]⟩ true).write .withOneFile
      .click ⟨.new, true⟩ = .ok (⟨1⟩, .inserted, catalog) := ⟨_, rfl⟩
  have hcommits : clicking.Commits (.click ⟨[47, 97]⟩ true) .withOneFile .click ⟨.new, true⟩ ⟨1⟩
      .inserted catalog := ⟨World.admit_withOneFile, rfl, rfl, rfl, hwrite⟩
  have hkeep : (ImportJob.click ⟨[47, 97]⟩ true).handling.keepFile = true := rfl
  have hrun := run_of_commits clicking _ hcommits rfl
  rw [ImportJob.cleared, if_pos hkeep] at hrun
  obtain ⟨⟨_, _, hcatalog⟩, ⟨-, -, -, -, hkept⟩ | ⟨hattached, -⟩⟩ :=
    ImportJob.write_cases hkeeps hwrite
  · refine ⟨_, _, _, hrun, rfl, rfl, hkept, rfl, rfl,
      (ImportJob.greatestId_write hkeeps hwrite).1, ?_, ?_⟩
    · rw [hcatalog]
      rfl
    · rw [hcatalog]
      rfl
  · cases hattached

/-- The second import, under whatever name, adds its source to that of the first. -/
theorem Importer.exists_run_click_again {path : Pathname}
    (hadmitted : World.withOneFile.admit path = .ok (.ok ⟨1, 0⟩)) (keepFile : Bool) :
    ∃ world first old next receipt identities identity,
      clicking.run (.click ⟨[47, 97]⟩ true) .withOneFile = (world, .ok (.committed first)) ∧
      world.catalog.contents = .ok [old] ∧ old.id = receipt.identity ∧
      old.sources = [ImportJob.note (.click ⟨[47, 97]⟩ true) ⟨1, 0⟩ 0] ∧
      clicking.run (.click path keepFile) world = (next, .ok (.committed receipt)) ∧
      (∀ files, World.withOneFile.files.removeImported path = .ok files → keepFile = false →
        receipt.fileRemoved = true) ∧
      next.catalog.contents = .ok identities ∧ identity ∈ identities ∧
      identity.id = receipt.identity ∧
      identity.sources = (ImportJob.note (.click path keepFile) ⟨1, 0⟩ 0).addTo old.sources := by
  obtain ⟨world, first, entry, hfirst, hfiles, hnow, hkeeps, hdigest, hsources, hgreatest,
    haccess, hlocked⟩ := exists_run_click
  have hadmission : world.admit path = .ok (.ok ⟨1, 0⟩) := by
    unfold World.admit at hadmitted ⊢
    rwa [hfiles]
  have haccepted : Errand.Accepted ⟨clicking, .click path keepFile⟩ world .click := by
    refine ⟨hadmission, rfl, rfl, ?_, hlocked, ?_, fun id hid => nomatch hid⟩
    · rw [haccess]
      decide
    · rw [haccess]
      decide
  have hknown : ¬ ∀ identity ∈ [entry], identity.digest ≠ Decoded.click.digest :=
    fun hnew => hnew entry (List.mem_singleton.mpr rfl) hdigest
  obtain ⟨id, effect, catalog, hcommits⟩ := Errand.exists_commits hkeeps haccepted
    (fun hnew => absurd hnew hknown) (by rw [hgreatest]; decide)
  have hrun := run_of_commits clicking _ hcommits rfl
  obtain ⟨-, ⟨-, -, -, hnew, -⟩ | ⟨-, -, ⟨same, hsame, hsameId⟩, -⟩⟩ :=
    ImportJob.write_cases hkeeps hcommits.written
  · exact absurd hnew hknown
  obtain rfl := List.mem_singleton.mp hsame
  obtain ⟨before, after, identity, earlier, hbefore, hafter, hmem, hid, hadded, hearlier, -⟩ :=
    hcommits.sources hkeeps
  obtain rfl := hkeeps.eq_map_of_contents hbefore
  rw [← hearlier same.asStored (List.mem_singleton.mpr rfl) hsameId, hnow] at hadded
  refine ⟨world, first, _, _, _, after, identity, hfirst, hbefore, ?_, hsources, hrun, ?_, ?_, hmem,
    ?_, hadded⟩
  · rw [(ImportJob.receipt_cleared ..).1]
    exact hsameId
  · rintro files hremoved rfl
    have hremove : { world with catalog := catalog }.files.removeImported
        (ImportJob.click path false).path = .ok files := by
      rw [← hremoved, ← hfiles]
      rfl
    have hkeep : ¬ (ImportJob.click path false).handling.keepFile = true := Bool.false_ne_true
    rw [ImportJob.cleared, if_neg hkeep, hremove]
  · rw [ImportJob.catalog_cleared]
    exact hafter
  · rw [(ImportJob.receipt_cleared ..).1]
    exact hid

/-! ## Files that were removed -/

/-- A source that is added has one of its state among the sources then: itself if there was
none before, and else the one that was there. -/
theorem Source.filter_addTo {source : Source} {sources : List Source}
    (hdistinct : (source.addTo sources).Pairwise fun a b => a.sameState b = false) :
    ∃ noted, (source.addTo sources).filter (·.sameState source) = [noted] ∧
      ((noted = source ∧ ∀ other ∈ sources, other.sameState source = false) ∨
        noted ∈ sources) := by
  by_cases hany : sources.any (·.sameState source)
  · obtain ⟨noted, hnoted, hsame⟩ := List.any_eq_true.mp hany
    rw [addTo, if_pos hany] at hdistinct ⊢
    exact ⟨noted, filter_sameState hdistinct hnoted hsame, .inr hnoted⟩
  · have hmem : source ∈ source.addTo sources := by
      rw [addTo, if_neg hany]
      exact List.mem_append_right _ (List.mem_singleton.mpr rfl)
    refine ⟨source, filter_sameState hdistinct hmem (sameState_iff.mpr rfl), .inl ⟨rfl, ?_⟩⟩
    simpa using hany

/-- A source that is found by its state has the path name, the time and the size of it. -/
theorem Source.fields_of_filter {source noted : Source} {sources : List Source}
    (hfilter : sources.filter (·.sameState source) = [noted]) :
    noted.path = source.path ∧ noted.modified = source.modified ∧ noted.size = source.size := by
  have hmem : noted ∈ sources.filter (·.sameState source) := hfilter ▸ List.mem_singleton_self _
  have hstate : noted.state = source.state := sameState_iff.mp (List.mem_filter.mp hmem).2
  simpa only [state, Prod.mk.injEq] using hstate

/-- In whatever way a session has come to its catalog, an import that removes its file leaves
exactly one source with the state of the file under the identity on its receipt: with the path
name of the job, the second of the file's last change and its size.  If there was none before,
this is what the import has noted, and it says that the file was not kept.  Else it is the one
that was there before, unchanged: it may say that the file was kept. -/
theorem Session.source_of_removed {first : Session} {storage : Storage} {world next : World}
    {answers : List Answer} (hfresh : first.Fresh)
    (hrun : Run first answers (opened storage world)) {importer : Importer} {job : ImportJob}
    {meddle : FileSystem Catalog → FileSystem Catalog} {receipt : Receipt}
    (hcommitted : importer.runAmong job (.meddling meddle) world =
      (next, .ok (.committed receipt))) (hremoved : receipt.fileRemoved = true) :
    ∃ facts before after identity noted,
      world.admit job.path = .ok (.ok facts) ∧
      world.catalog.contents = .ok before ∧ next.catalog.contents = .ok after ∧
      identity ∈ after ∧ identity.id = receipt.identity ∧
      identity.sources.filter (·.sameState (job.note facts world.now)) = [noted] ∧
      noted.path = job.path ∧ noted.modified = Int.ofNat (facts.modified.toNat / 1000) ∧
      noted.size = .ofNat facts.size ∧
      ((noted = job.note facts world.now ∧ noted.kept = false ∧
          ∀ old ∈ before, old.id = receipt.identity →
            ∀ other ∈ old.sources, other.sameState noted = false) ∨
        ∃ old ∈ before, old.id = receipt.identity ∧ noted ∈ old.sources) := by
  obtain ⟨facts, before, after, identity, earlier, hadmitted, hremoval, hbefore, hafter, hmem,
    hid, hdistinct, hsources, hearlier, hknown⟩ := sources_of_committed hfresh hrun hcommitted
  rw [hsources] at hdistinct
  obtain ⟨noted, hfilter, hcases⟩ := Source.filter_addTo hdistinct
  obtain ⟨hpath, hmodified, hsize⟩ := Source.fields_of_filter hfilter
  refine ⟨facts, before, after, identity, noted, hadmitted, hbefore, hafter, hmem, hid,
    hsources ▸ hfilter, hpath, hmodified, hsize, ?_⟩
  rcases hcases with ⟨rfl, hnone⟩ | hnoted
  · refine .inl ⟨rfl, hremoval hremoved, fun old hold hsame => ?_⟩
    rw [hearlier old hold hsame]
    exact hnone
  · rcases hknown with ⟨old, hold, hsame⟩ | rfl
    · exact .inr ⟨old, hold, hsame, hearlier old hold hsame ▸ hnoted⟩
    · cases hnoted

/-- The only import of a file notes that the file is gone. -/
theorem Session.source_of_one_removed : ∃ next receipt after identity noted,
    Importer.clicking.runAmong .ofOneFile (.meddling id) .withOneFile =
        (next, .ok (.committed receipt)) ∧
      receipt.fileRemoved = true ∧ next.catalog.contents = .ok after ∧ identity ∈ after ∧
      identity.id = receipt.identity ∧ noted ∈ identity.sources ∧ noted.path = ⟨[47, 97]⟩ ∧
      noted.kept = false := by
  obtain ⟨next, receipt, hcommitted, -, -, hremoved⟩ := Importer.runAmong_ofOneFile
  have hfresh : (opened .exclusive .withOneFile).Fresh := .refl _
  obtain ⟨facts, before, after, identity, noted, -, hbefore, hafter, hmem, hid, hfilter, hpath, -,
    -, hcases⟩ := source_of_removed hfresh (.start _) hcommitted hremoved
  have hempty : World.withOneFile.catalog.contents = .ok [] := rfl
  obtain rfl : before = [] := Except.ok.inj (hbefore.symm.trans hempty)
  have hnoted := List.mem_singleton_self noted
  rw [← hfilter] at hnoted
  rcases hcases with ⟨-, hkept, -⟩ | ⟨_, hold, -⟩
  · exact ⟨next, receipt, after, identity, noted, hcommitted, hremoved, hafter, hmem, hid,
      (List.mem_filter.mp hnoted).1, hpath, hkept⟩
  · cases hold

/-- A source says that the file was kept after a second import has removed it. -/
theorem Session.kept_in_source_of_removed : ∃ world first next receipt identities identity,
    (opened .exclusive .withOneFile).Fresh ∧
      Run (opened .exclusive .withOneFile) [.ran (.ok (.committed first))]
        (opened .exclusive world) ∧
      Importer.clicking.run (.click ⟨[47, 97]⟩ false) world =
        (next, .ok (.committed receipt)) ∧
      receipt.fileRemoved = true ∧ next.catalog.contents = .ok identities ∧
      identity ∈ identities ∧ identity.id = receipt.identity ∧
      identity.sources = [ImportJob.note (.click ⟨[47, 97]⟩ true) ⟨1, 0⟩ 0] ∧
      ∀ source ∈ identity.sources, source.path = ⟨[47, 97]⟩ ∧ source.modified = 0 ∧
        source.size = 1 ∧ source.kept = true := by
  obtain ⟨world, first, old, next, receipt, identities, identity, hfirst, -, -, hold, hrun,
    hremoved, hread, hmem, hid, hsources⟩ :=
    Importer.exists_run_click_again World.admit_withOneFile false
  rw [hold] at hsources
  have hsame : identity.sources = [ImportJob.note (.click ⟨[47, 97]⟩ true) ⟨1, 0⟩ 0] := hsources
  refine ⟨world, first, next, receipt, identities, identity, .refl _,
    .step (.start _) (step_of_run hfirst _), hrun,
    hremoved _ World.removeImported_withOneFile rfl, hread, hmem, hid, hsame, ?_⟩
  rw [hsame]
  intro source hsource
  rw [List.mem_singleton.mp hsource]
  exact ⟨rfl, rfl, rfl, rfl⟩

/-! ## Spellings of path names -/

/-- One more slash in front of an absolute path name makes no difference. -/
theorem FileSystem.find_slash {κ : Type} (fs : FileSystem κ) {bytes : List UInt8} (follow : Bool)
    (hfound : Followable ⟨Pathname.slash :: bytes⟩)
    (hlength : bytes.length + 2 ≤ pathLimit) :
    fs.find ⟨Pathname.slash :: Pathname.slash :: bytes⟩ follow =
      fs.find ⟨Pathname.slash :: bytes⟩ follow := by
  have hlonger : Followable ⟨Pathname.slash :: Pathname.slash :: bytes⟩ := by
    refine ⟨?_, List.cons_ne_nil _ _, Nat.not_lt.mpr hlength⟩
    have hzero : ((0 : UInt8) == Pathname.slash) = false := by decide
    rw [List.contains_cons, hzero, Bool.false_or]
    exact hfound.nul_free
  have hstart : fs.startOf ⟨Pathname.slash :: Pathname.slash :: bytes⟩ =
      fs.startOf ⟨Pathname.slash :: bytes⟩ := rfl
  have hsegments : Pathname.segments ⟨Pathname.slash :: Pathname.slash :: bytes⟩ =
      [] :: Pathname.segments ⟨Pathname.slash :: bytes⟩ := rfl
  rw [find, find, locate_of_followable hlonger, locate_of_followable hfound, hstart, hsegments,
    walk_skip (by decide)]

/-- In whatever way a session has come to its catalog, sources of one identity that count as
the same have path names that differ in their text.  A committed import notes its file under
the identity on its receipt, with the path name of the job, the second of the file's last
change and its size, unless that has a source that counts as the same and has the very path
name: a source under another spelling of the name does not keep it from noting. -/
theorem Session.sources_told_apart_by_text {first : Session} {storage : Storage} {world : World}
    {answers : List Answer} (hfresh : first.Fresh)
    (hrun : Run first answers (opened storage world)) :
    (∀ identities, world.catalog.contents = .ok identities → ∀ identity ∈ identities,
      identity.sources.Pairwise fun a b => a.sameAs b = true → a.path ≠ b.path) ∧
    ∀ (importer : Importer) (job : ImportJob) (meddle : FileSystem Catalog → FileSystem Catalog)
      (next : World) (receipt : Receipt),
      importer.runAmong job (.meddling meddle) world = (next, .ok (.committed receipt)) →
      ∃ facts noted before after identity,
        world.admit job.path = .ok (.ok facts) ∧ noted = job.note facts world.now ∧
        noted.path = job.path ∧ noted.modified = Int.ofNat (facts.modified.toNat / 1000) ∧
        noted.size = .ofNat facts.size ∧
        world.catalog.contents = .ok before ∧ next.catalog.contents = .ok after ∧
        identity ∈ after ∧ identity.id = receipt.identity ∧
        ∀ old ∈ before, old.id = receipt.identity →
          ((∃ other ∈ old.sources, other.sameAs noted = true ∧ other.path = job.path) →
            identity.sources = old.sources) ∧
          ((∀ other ∈ old.sources, other.sameAs noted = true → other.path ≠ job.path) →
            identity.sources = old.sources ++ [noted]) := by
  have hsound : world.catalog.Sound := sound_of_run hfresh hrun (.refl _)
  refine ⟨fun identities hread identity hmem => ?_,
    fun importer job meddle next receipt hcommitted => ?_⟩
  · refine (hsound.distinct_of_contents hread hmem).imp fun hdiffers hsame hpath => ?_
    rw [Source.sameState_iff_sameAs.mpr ⟨hsame, hpath⟩] at hdiffers
    cases hdiffers
  · obtain ⟨facts, before, after, identity, earlier, hadmitted, -, hbefore, hafter, hmem, hid, -,
      hsources, hearlier, -⟩ := sources_of_committed hfresh hrun hcommitted
    refine ⟨facts, _, before, after, identity, hadmitted, rfl, rfl, rfl, rfl, hbefore, hafter,
      hmem, hid, fun old hold hsame => ?_⟩
    rw [hsources, hearlier old hold hsame, Source.addTo]
    constructor
    · rintro ⟨other, hother, hsame, hpath⟩
      have hstate : other.sameState (job.note facts world.now) = true :=
        Source.sameState_iff_sameAs.mpr ⟨hsame, hpath⟩
      exact if_pos (List.any_eq_true.mpr ⟨other, hother, hstate⟩)
    · intro hnone
      refine if_neg fun hany => ?_
      obtain ⟨other, hother, hstate⟩ := List.any_eq_true.mp hany
      obtain ⟨hsame, hpath⟩ := Source.sameState_iff_sameAs.mp hstate
      exact hnone other hother hsame hpath

/-- The file `a` under a name with one more slash. -/
def Pathname.doubleSlash : Pathname :=
  ⟨[47, 47, 97]⟩

theorem World.admit_doubleSlash : World.withOneFile.admit .doubleSlash = .ok (.ok ⟨1, 0⟩) := by
  have hname : PlainName [97] := by decide
  have htext : ¬ Pathname.doubleSlash.text?.isNone := by decide
  have hfind : World.withOneFile.files.find .doubleSlash true =
      .ok ([[97]], .file (.data [0] 1) 0) :=
    (FileSystem.find_slash _ true hname.followable (by decide)).trans (hname.find_file rfl true)
  unfold World.admit
  rw [if_neg htext, FileSystem.open?, hfind]
  rfl

/-- A file that is imported again under another spelling of its name is noted again. -/
theorem Session.source_added_under_other_spelling : ∃ world next receipt after identity old,
    Importer.clicking.runAmong (.click .doubleSlash true) (.meddling id) world =
        (next, .ok (.committed receipt)) ∧
      world.catalog.contents = .ok [old] ∧ next.catalog.contents = .ok after ∧
      identity ∈ after ∧ old.id = identity.id ∧ old.sources.length = 1 ∧
      identity.sources.length = 2 := by
  obtain ⟨world, receipt, old, next, again, _, _, hfirst, hbefore, hid, hold, hagain, -⟩ :=
    Importer.exists_run_click_again World.admit_doubleSlash true
  rw [← Importer.runAmong_meddling_id] at hagain
  have hfresh : (opened .exclusive .withOneFile).Fresh := .refl _
  have hrun : Run (opened .exclusive .withOneFile) _ (opened .exclusive world) :=
    .step (.start _) (step_of_run hfirst _)
  obtain ⟨facts, noted, before, after, identity, hadmitted, rfl, -, -, -, hbefore', hafter, hmem,
    hid', hsources⟩ := (sources_told_apart_by_text hfresh hrun).2 _ _ _ _ _ hagain
  obtain rfl : before = [old] := Except.ok.inj (hbefore'.symm.trans hbefore)
  have hother : ∀ noted ∈ old.sources,
      noted.sameAs (ImportJob.note (.click .doubleSlash true) facts world.now) = true →
        noted.path ≠ .doubleSlash := by
    rw [hold]
    intro noted hnoted _
    rw [List.mem_singleton.mp hnoted]
    decide
  have hadded := (hsources old (List.mem_singleton.mpr rfl) hid).2 hother
  refine ⟨world, next, again, after, identity, old, hagain, hbefore, hafter, hmem,
    hid.trans hid'.symm, ?_, ?_⟩
  · rw [hold]
    rfl
  · rw [hadded, hold]
    rfl

/-- After the second import two sources of the identity count as the same. -/
theorem Session.two_sources_of_one_file : ∃ world first next second identities identity a b,
    (opened .exclusive .withOneFile).Fresh ∧
      Run (opened .exclusive .withOneFile)
        [.ran (.ok (.committed first)), .ran (.ok (.committed second))] (opened .exclusive next) ∧
      Importer.clicking.run (.click ⟨[47, 97]⟩ true) .withOneFile =
        (world, .ok (.committed first)) ∧
      Importer.clicking.run (.click .doubleSlash true) world = (next, .ok (.committed second)) ∧
      next.catalog.contents = .ok identities ∧ identity ∈ identities ∧
      identity.sources = [a, b] ∧ a.sameAs b = true := by
  obtain ⟨world, first, old, next, second, identities, identity, hfirst, -, -, hold, hsecond, -,
    hread, hmem, -, hsources⟩ := Importer.exists_run_click_again World.admit_doubleSlash true
  have hadded : identity.sources = [ImportJob.note (.click ⟨[47, 97]⟩ true) ⟨1, 0⟩ 0,
      ImportJob.note (.click .doubleSlash true) ⟨1, 0⟩ 0] := by
    rw [hsources, hold]
    decide
  exact ⟨world, first, next, second, identities, identity, _, _, .refl _,
    .step (.step (.start _) (step_of_run hfirst _)) (step_of_run hsecond _), hfirst, hsecond,
    hread, hmem, hadded, by decide⟩

end AudioCatalog
