import AudioCatalog.Proofs.FileSystem.Removal
import AudioCatalog.Proofs.Import.Orders
import AudioCatalog.Proofs.Import.Writing

/-!
# What a committed import does

A committed import adds one identity or extends one, resolves its ticket, and removes its
file unless that is to be kept or cannot be removed.  Nothing else changes, and the receipt
tells of all of it.  Others may change files between the commit and the removal, for that is
how a removal comes to fail.
-/

namespace AudioCatalog

/-! ## Others between commit and removal -/

/-- Others who change files after a commit, before the imported file is removed. -/
def Others.meddling (meddle : FileSystem Catalog → FileSystem Catalog) : Others where
  act phase world :=
    match phase with
    | .committed _ => { world with files := meddle world.files }
    | .starting | .admitted _ | .fingerprinted _ | .resolved .. | .claimed .. | .rolledBack _
    | .finished _ => world
  leave phase world := by
    refine ⟨world.catalog.locked, ?_⟩
    cases phase <;> rfl

namespace Importer

variable (importer : Importer) (job : ImportJob) (meddle : FileSystem Catalog → FileSystem Catalog)

/-- What is known in each phase of an import that began in a world, if others meddle. -/
def Along (before : World) : Phase → World → Prop
  | .starting, now => now = before
  | .admitted facts, now => now = before ∧ before.admit job.path = .ok (.ok facts)
  | .fingerprinted decoded, now => now = before ∧
      before.admit job.path = .ok (.ok decoded.facts) ∧
      importer.decode before job.path decoded.facts = .ok decoded
  | .resolved decoded resolution, now => now = before ∧
      before.admit job.path = .ok (.ok decoded.facts) ∧ job.wasCancelled before = false ∧
      importer.decode before job.path decoded.facts = .ok decoded ∧
      identify decoded.digest decoded.key before.catalog.lookup job.handling.careful =
        .ok resolution
  | .claimed decoded resolution, now => job.claimed? before = some now ∧
      before.admit job.path = .ok (.ok decoded.facts) ∧ job.wasCancelled before = false ∧
      importer.decode before job.path decoded.facts = .ok decoded ∧
      identify decoded.digest decoded.key before.catalog.lookup job.handling.careful =
        .ok resolution
  | .rolledBack _, _ => True
  | .committed receipt, now => ∃ decoded resolution id effect catalog claimed,
      importer.Commits job before decoded resolution id effect catalog ∧
      job.claimed? before = some claimed ∧ now = { claimed with catalog := catalog } ∧
      receipt = job.receipt decoded resolution id effect
  | .finished conclusion, now => ∀ receipt, conclusion.receipt? = some receipt →
      ∃ decoded resolution id effect catalog claimed,
        importer.Commits job before decoded resolution id effect catalog ∧
        job.claimed? before = some claimed ∧
        (now, receipt) =
          job.cleared { claimed with catalog := catalog, files := meddle claimed.files }
            (job.receipt decoded resolution id effect)

theorem along_failed (before now : World) (stage : Stage) (error : Error) :
    importer.Along job meddle before (job.failed stage error) now := by
  intro receipt hreceipt
  cases hreceipt

theorem along_advance {before now : World} {phase : Phase}
    (halong : importer.Along job meddle before phase now) :
    importer.Along job meddle before
      (importer.advance job ((Others.meddling meddle).act phase now) phase).2
      (importer.advance job ((Others.meddling meddle).act phase now) phase).1 := by
  cases phase with
  | starting =>
      obtain rfl := halong
      have hact : (Others.meddling meddle).act .starting now = now := rfl
      simp only [hact, advance, ImportJob.start]
      split
      · exact importer.along_failed job meddle _ _ _ _
      · intro receipt hreceipt
        cases hreceipt
      · exact ⟨rfl, ‹_›⟩
  | admitted facts =>
      obtain ⟨rfl, hadmitted⟩ := halong
      have hact : (Others.meddling meddle).act (.admitted facts) now = now := rfl
      simp only [hact, advance, examine]
      by_cases hcancelled : job.wasCancelled now
      · rw [if_pos hcancelled]
        exact importer.along_failed job meddle _ _ _ _
      · rw [if_neg hcancelled]
        cases hdecode : importer.decode now job.path facts with
        | error cause => exact importer.along_failed job meddle _ _ _ _
        | ok decoded =>
            obtain rfl := importer.decoded_facts hdecode
            exact ⟨rfl, hadmitted, hdecode⟩
  | fingerprinted decoded =>
      obtain ⟨rfl, hadmitted, hdecode⟩ := halong
      have hact : (Others.meddling meddle).act (.fingerprinted decoded) now = now := rfl
      simp only [hact, advance, ImportJob.compare]
      by_cases hcancelled : job.wasCancelled now
      · rw [if_pos hcancelled]
        exact importer.along_failed job meddle _ _ _ _
      · rw [if_neg hcancelled]
        cases hidentify : identify decoded.digest decoded.key now.catalog.lookup
            job.handling.careful with
        | error error => exact importer.along_failed job meddle _ _ _ _
        | ok resolution =>
            exact ⟨rfl, hadmitted, Bool.eq_false_iff.mpr hcancelled, hdecode, hidentify⟩
  | resolved decoded resolution =>
      obtain ⟨rfl, hknown⟩ := halong
      have hact : (Others.meddling meddle).act (.resolved decoded resolution) now = now := rfl
      simp only [hact, advance, ImportJob.claim_eq]
      cases hclaimed : job.claimed? now with
      | none => exact importer.along_failed job meddle _ _ _ _
      | some claimed => exact ⟨hclaimed, hknown⟩
  | claimed decoded resolution =>
      obtain ⟨hclaimed, hadmitted, hcancelled, hdecode, hidentified⟩ := halong
      obtain ⟨hcatalog, -, hnow, -⟩ := job.claimed?_eq_some hclaimed
      have hact : (Others.meddling meddle).act (.claimed decoded resolution) now = now := rfl
      simp only [hact, advance, ImportJob.commit, job.write_congr hcatalog hnow]
      split
      · exact trivial
      · rename_i id effect catalog hwritten
        exact ⟨decoded, resolution, id, effect, catalog, now,
          ⟨hadmitted, hcancelled, hdecode, hidentified, hwritten⟩, hclaimed, rfl, rfl⟩
  | rolledBack error => exact importer.along_failed job meddle _ _ _ _
  | committed receipt =>
      obtain ⟨decoded, resolution, id, effect, catalog, claimed, hcommits, hclaimed, rfl, rfl⟩ :=
        halong
      simp only [Others.meddling, advance, ImportJob.clear_eq]
      intro receipt hreceipt
      cases hreceipt
      exact ⟨decoded, resolution, id, effect, catalog, claimed, hcommits, hclaimed, rfl⟩
  | finished conclusion => exact halong

/-- A committed import has found out and written what `Commits` says, and has dealt with its
file after others meddled. -/
theorem commits_of_meddling {world next : World} {receipt : Receipt}
    (h : importer.runAmong job (.meddling meddle) world = (next, .ok (.committed receipt))) :
    ∃ decoded resolution id effect catalog claimed,
      importer.Commits job world decoded resolution id effect catalog ∧
      job.claimed? world = some claimed ∧
      (next, receipt) =
        job.cleared { claimed with catalog := catalog, files := meddle claimed.files }
          (job.receipt decoded resolution id effect) := by
  have halong := importer.drive_observed job
    (fun phase state => ((Others.meddling meddle).act phase state.1, ()))
    (fun phase state => importer.Along job meddle world phase state.1)
    (fun _ _ _ halong => importer.along_advance job meddle halong) (world, ()) .starting rfl
  rw [runAmong, Prod.mk.injEq] at h
  rw [h.1, h.2] at halong
  exact halong receipt rfl

end Importer

/-! ## Committed imports -/

/-- Only a path name without slashes behind it is admitted. -/
theorem World.trimmed_of_admitted {world : World} {path : Pathname} {facts : FileFacts}
    (h : world.admit path = .ok (.ok facts)) : path.trimmed = path := by
  unfold World.admit at h
  split at h
  · cases h
  · split at h
    · cases h
    · rename_i node hopen
      obtain ⟨⟨location, found⟩, hfind, rfl⟩ := map_eq_ok_iff.mp hopen
      refine FileSystem.trimmed_of_find hfind ?_
      cases found with
      | file body modified => rfl
      | directory entries => cases h
      | link target => cases h
      | special => cases h

/-- When a committed import has dealt with its file, only the files can have changed, and the
receipt tells whether the file is gone and what was in the way. -/
theorem ImportJob.cleared_eq (job : ImportJob) (world : World) (receipt : Receipt)
    (hthere : receipt.fileRemoved = false) : ∃ files removed,
    job.cleared world receipt = ({ world with files := files },
      { receipt with
        fileRemoved := removed
        remarks := receipt.remarks ++
          if job.handling.keepFile then []
          else match world.files.removeImported job.path with
            | .ok _ => []
            | .error cause => [.notRemoved cause] }) ∧
    (removed = true →
      job.handling.keepFile = false ∧ world.files.removeImported job.path = .ok files) ∧
    (removed = false →
      files = world.files ∧ (job.handling.keepFile = true ∨
        ∃ cause, world.files.removeImported job.path = .error cause)) := by
  obtain ⟨path, digest, verdict, id, effect, removed, remarks⟩ := receipt
  obtain rfl : removed = false := hthere
  by_cases hkeep : job.handling.keepFile
  · refine ⟨world.files, false, ?_, (absurd · Bool.false_ne_true), fun _ => ⟨rfl, .inl hkeep⟩⟩
    rw [cleared, if_pos hkeep, if_pos hkeep, List.append_nil]
  · rw [cleared, if_neg hkeep, if_neg hkeep]
    cases hremoved : world.files.removeImported job.path with
    | ok files =>
        refine ⟨files, true, ?_, fun _ => ⟨Bool.eq_false_iff.mpr hkeep, rfl⟩,
          (absurd ·.symm Bool.false_ne_true)⟩
        simp only [List.append_nil]
    | error cause =>
        exact ⟨world.files, false, rfl, (absurd · Bool.false_ne_true),
          fun _ => ⟨rfl, .inr ⟨cause, rfl⟩⟩⟩

theorem Resolution.remarks_eq (resolution : Resolution) {alone : Prop} [Decidable alone]
    (h : resolution.digestOnly = true ↔ alone) :
    resolution.remarks = (if alone then [.digestOnly] else []) ++
      match resolution.verdict with
      | .ambiguous candidates => [.ambiguous (candidates.map (·.id))]
      | .new | .exact _ | .perceptual .. => [] := by
  obtain ⟨verdict, digestOnly⟩ := resolution
  cases verdict <;> simp only [remarks, h]

/-- In whatever way a session has come to its catalog, a committed import does what its
receipt says and nothing else.  A new or ambiguous recording becomes one identity more, with
a number that was never given out; any other becomes the newest source of the identity that
it was matched with, unless a source of the same state is there, and brings its metadata.
Of the tickets only that of the import changes, and only if it was pending; of the files
only the imported one can go, and a file that was to be removed and was not is remarked
upon.  Others may change files between the commit and the removal. -/
theorem Session.effect_of_committed {first : Session} {storage : Storage} {world next : World}
    {answers : List Answer} (hfresh : first.Fresh)
    (hrun : Run first answers (opened storage world)) {importer : Importer} {job : ImportJob}
    {meddle : FileSystem Catalog → FileSystem Catalog} {receipt : Receipt}
    (hcommitted : importer.runAmong job (.meddling meddle) world =
      (next, .ok (.committed receipt))) :
    ∃ decoded before after,
      let deposit := job.deposit decoded world.now
      world.admit job.path = .ok (.ok decoded.facts) ∧
      importer.decode world job.path decoded.facts = .ok decoded ∧
      receipt.path = job.path ∧ receipt.digest = decoded.digest ∧
      world.catalog.contents = .ok before ∧ next.catalog.contents = .ok after ∧
      (receipt.effect = .inserted ↔
        receipt.verdict = .new ∨ ∃ candidates, receipt.verdict = .ambiguous candidates) ∧
      (receipt.effect = .inserted →
        (∀ given ∈ answers.flatMap (·.identities), given.value < receipt.identity.value) ∧
        (∀ identity ∈ before, identity.id.value < receipt.identity.value) ∧
        after = before ++
          [(deposit.draft.entry receipt.identity [deposit.source] world.now).asStored]) ∧
      (receipt.effect = .attached →
        receipt.verdict.matched = some receipt.identity ∧
        (∃ identity ∈ before, identity.id = receipt.identity) ∧
        after = extendEntry before receipt.identity deposit.source.asStored
          (some decoded.metadata)) ∧
      (∀ id, next.catalog.tickets.row? id =
        if job.ticket = some ⟨id⟩ then
          (world.catalog.tickets.row? id).map fun row =>
            row.settled (some receipt.identity) world.now
        else world.catalog.tickets.row? id) ∧
      (receipt.fileRemoved = true →
        job.handling.keepFile = false ∧ ((meddle world.files).Proper →
          (meddle world.files).LosesOnly job.path next.files)) ∧
      (receipt.fileRemoved = false →
        next.files = meddle world.files ∧ (job.handling.keepFile = true ∨
          ∃ cause, (meddle world.files).removeImported job.path = .error cause)) ∧
      receipt.remarks =
        (if job.handling.careful = true ∧ decoded.key = none ∧
            ∀ identity ∈ before, identity.digest ≠ decoded.digest then [.digestOnly] else []) ++
          (match receipt.verdict with
            | .ambiguous candidates => [.ambiguous (candidates.map (·.id))]
            | .new | .exact _ | .perceptual .. => []) ++
          if job.handling.keepFile then []
          else match (meddle world.files).removeImported job.path with
            | .ok _ => []
            | .error cause => [.notRemoved cause] := by
  obtain ⟨known, hknows⟩ := Knows.run hrun (Knows.of_fresh hfresh)
  have hsame : world.catalog.SameTables known := hknows.holds
  obtain ⟨ledger, hkeeps, -, -⟩ :=
    hknows.sound.congr hsame.identities hsame.sources hsame.tickets
  obtain ⟨decoded, resolution, id, effect, catalog, claimed, hcommits, hclaimed, hcleared⟩ :=
    importer.commits_of_meddling job meddle hcommitted
  obtain ⟨before, after, hbefore, hafter, heffect, hinserted, hattached, hdigestOnly⟩ :=
    hcommits.contents hkeeps
  obtain ⟨⟨identities, sources, hcatalog⟩, -⟩ := ImportJob.write_cases hkeeps hcommits.written
  have hgiven : effect = .inserted → ∀ given ∈ answers.flatMap (·.identities),
      given.value < id.value := by
    intro hinsertion given hmem
    have hrow : given.value ∈ world.catalog.identities.rows.map (·.1) := by
      rw [hsame.identities, hknows.identities]
      exact List.mem_map_of_mem hmem
    obtain ⟨entry, hentry, hnumber⟩ := List.mem_map.mp hrow
    rw [← hnumber]
    exact ImportJob.lt_of_inserted hkeeps hcommits.written hinsertion entry hentry
  have htickets : ∀ number, catalog.tickets.row? number =
      if job.ticket = some ⟨number⟩ then
        (world.catalog.tickets.row? number).map fun row => row.settled (some id) world.now
      else world.catalog.tickets.row? number := by
    intro number
    rw [hcatalog]
    exact Table.row?_afterCommit ..
  have hremarks : (job.receipt decoded resolution id effect).remarks =
      (if job.handling.careful = true ∧ decoded.key = none ∧
          ∀ identity ∈ before, identity.digest ≠ decoded.digest then [.digestOnly] else []) ++
        match resolution.verdict with
        | .ambiguous candidates => [.ambiguous (candidates.map (·.id))]
        | .new | .exact _ | .perceptual .. => [] := by
    exact resolution.remarks_eq hdigestOnly
  obtain ⟨-, hfiles, -, -⟩ := job.claimed?_eq_some hclaimed
  have htrimmed := World.trimmed_of_admitted hcommits.admitted
  rw [hfiles] at hcleared
  obtain ⟨files, removed, heq, hgone, hthere⟩ :=
    job.cleared_eq { claimed with catalog := catalog, files := meddle world.files }
      (job.receipt decoded resolution id effect) rfl
  rw [heq] at hcleared
  cases hcleared
  refine ⟨decoded, before, after, hcommits.admitted, hcommits.decodes, rfl, rfl, hbefore, hafter,
    heffect, fun h => ⟨hgiven h, hinserted h⟩, hattached, htickets, fun h => ?_, hthere,
    congrArg (· ++ _) hremarks⟩
  obtain ⟨hkeep, hremoved⟩ := hgone h
  exact ⟨hkeep, fun hproper => FileSystem.losesOnly_of_removeImported hproper htrimmed hremoved⟩

/-- The import of the file `a`, not to be kept. -/
def ImportJob.ofOneFile : ImportJob :=
  { ofUnknownTicket with ticket := none }

theorem World.removeImported_withOneFile :
    World.withOneFile.files.removeImported ⟨[47, 97]⟩ = .ok ⟨[], []⟩ := by
  have hname : PlainName [97] := by decide
  exact hname.removeImported_eq rfl

theorem World.proper_withOneFile : World.withOneFile.files.Proper := by
  refine ⟨fun path entries hfound => ?_, .inl rfl⟩
  have hchild : ∀ name inner,
      World.withOneFile.files.root.child? name ≠ some (.directory inner) := by
    intro name inner h
    rw [Directory.child?, Option.map_eq_some_iff] at h
    obtain ⟨entry, hentry, h⟩ := h
    obtain rfl := List.mem_singleton.mp (List.mem_of_find?_eq_some hentry)
    cases h
  cases path with
  | nil =>
      cases hfound
      exact List.nodup_singleton _
  | cons name rest =>
      cases rest with
      | nil => exact absurd hfound (hchild name entries)
      | cons next rest =>
          obtain ⟨inner, hinner, _⟩ :=
            Directory.descend?_eq_some_of_cons (List.cons_ne_nil _ _) hfound
          exact absurd hinner (hchild name inner)

/-- Others who meddle with nothing have no influence. -/
theorem Importer.runAmong_meddling_id (importer : Importer) (job : ImportJob) (world : World) :
    importer.runAmong job (.meddling id) world = importer.run job world := by
  have hobserve : (fun (phase : Phase) (state : World × Unit) =>
      ((Others.meddling id).act phase state.1, ())) = fun _ state => state := by
    funext phase state
    cases phase <;> rfl
  rw [runAmong, hobserve, run]

/-- An import of the file `a` into the empty catalog is committed and removes the file. -/
theorem Importer.runAmong_ofOneFile : ∃ next receipt,
    clicking.runAmong .ofOneFile (.meddling id) .withOneFile = (next, .ok (.committed receipt)) ∧
      receipt.identity = ⟨1⟩ ∧ receipt.effect = .inserted ∧ receipt.fileRemoved = true := by
  have hadmission : World.withOneFile.admit ImportJob.ofOneFile.path = .ok (.ok ⟨1, 0⟩) :=
    World.admit_withOneFile
  have hdecode : clicking.decode .withOneFile ImportJob.ofOneFile.path ⟨1, 0⟩ =
      .ok ⟨⟨1, 0⟩, .empty, click.stream.digest, none⟩ := rfl
  have hidentify : identify click.stream.digest none World.withOneFile.catalog.lookup
      ImportJob.ofOneFile.handling.careful = .ok ⟨.new, true⟩ := rfl
  have hclaim : ImportJob.ofOneFile.claimed? .withOneFile =
      some (World.withOneFile.setToken "t" .committing) := rfl
  obtain ⟨catalog, hwrite⟩ : ∃ catalog, ImportJob.ofOneFile.write .withOneFile
      ⟨⟨1, 0⟩, .empty, click.stream.digest, none⟩ ⟨.new, true⟩ =
        .ok (⟨1⟩, .inserted, catalog) := ⟨_, rfl⟩
  have hremove : { World.withOneFile.setToken "t" .committing with
      catalog := catalog }.files.removeImported ImportJob.ofOneFile.path = .ok ⟨[], []⟩ :=
    World.removeImported_withOneFile
  have hkeep : ¬ ImportJob.ofOneFile.handling.keepFile = true := Bool.false_ne_true
  have hcommits : clicking.Commits .ofOneFile .withOneFile
      ⟨⟨1, 0⟩, .empty, click.stream.digest, none⟩ ⟨.new, true⟩ ⟨1⟩ .inserted catalog :=
    ⟨hadmission, rfl, hdecode, hidentify, hwrite⟩
  rw [runAmong_meddling_id, run_of_commits clicking .ofOneFile hcommits hclaim, ImportJob.cleared,
    if_neg hkeep, hremove]
  exact ⟨_, _, rfl, rfl, rfl, rfl⟩

/-- The first import of a session makes one identity, and its file is gone. -/
theorem Session.effect_of_one_file : ∃ next receipt after,
    Importer.clicking.runAmong .ofOneFile (.meddling id) .withOneFile =
        (next, .ok (.committed receipt)) ∧
      next.catalog.contents = .ok [after] ∧ after.id = receipt.identity ∧
      next.files.find ⟨[47, 97]⟩ false = .error .notFound := by
  obtain ⟨next, receipt, hcommitted, hidentity, heffect, hremoved⟩ := Importer.runAmong_ofOneFile
  have hfresh : (opened .exclusive .withOneFile).Fresh := .refl _
  obtain ⟨decoded, before, after, -, -, -, -, hbefore, hafter, -, hinserted, -, -, hgone, -, -⟩ :=
    effect_of_committed hfresh (.start _) hcommitted
  have hempty : World.withOneFile.catalog.contents = .ok [] := rfl
  obtain rfl : before = [] := Except.ok.inj (hbefore.symm.trans hempty)
  obtain ⟨-, -, rfl⟩ := hinserted heffect
  obtain ⟨-, hloses⟩ := hgone hremoved
  exact ⟨next, receipt, _, hcommitted, hafter, rfl, (hloses World.proper_withOneFile).gone⟩

end AudioCatalog
