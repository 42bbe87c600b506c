import AudioCatalog.Import.Run

/-!
# The course of an import

`Importer.drive` is opened here once.  `drive_finished` and `drive_step` say how it
proceeds, `drive_invariant` carries a property of phases and worlds from the first phase
to the conclusion whatever the observer does, and `run_eq` gives an import that nobody
interferes with as one sequence of decisions.  `run_cases` reads off what is known when
such an import is committed: if it is not, the world is the one it began with.
`Importer.advances` says of a single step what it can do to catalog and files.
-/

namespace AudioCatalog

/-- The receipt of an import that was committed. -/
def Conclusion.receipt? : Conclusion → Option Receipt
  | .ok (.committed receipt) => some receipt
  | .ok (.rejected ..) | .error _ => none

namespace ImportJob

variable (job : ImportJob)

/-- The world in which an import has claimed the commit point of its token, if it can. -/
def claimed? (world : World) : Option World :=
  match job.token with
  | none => some world
  | some name => (world.tokens name).claim.map (world.setToken name)

/-- The receipt of a commit, before the file is dealt with. -/
def receipt (decoded : Decoded) (resolution : Resolution) (id : IdentityId)
    (effect : CommitEffect) : Receipt where
  path := job.path
  identity := id
  digest := decoded.digest
  verdict := resolution.verdict
  effect := effect
  fileRemoved := false
  remarks := resolution.remarks

/-- The world and the receipt after the file was dealt with. -/
def cleared (world : World) (receipt : Receipt) : World × Receipt :=
  if job.handling.keepFile then (world, receipt)
  else match world.files.removeImported job.path with
    | .ok files => ({ world with files := files }, { receipt with fileRemoved := true })
    | .error cause =>
      (world, { receipt with remarks := receipt.remarks ++ [.notRemoved cause] })

theorem claim_eq (world : World) (decoded : Decoded) (resolution : Resolution) :
    job.claim world decoded resolution =
      match job.claimed? world with
      | some claimed => (claimed, .claimed decoded resolution)
      | none => (world, job.failed .resolved .cancelled) := by
  cases htoken : job.token with
  | none => simp only [claim, claimed?, htoken]
  | some name =>
      cases hclaim : (world.tokens name).claim with
      | none => simp only [claim, claimed?, htoken, hclaim, Option.map_none]
      | some token => simp only [claim, claimed?, htoken, hclaim, Option.map_some]

theorem clear_eq (world : World) (receipt : Receipt) :
    job.clear world receipt =
      ((job.cleared world receipt).1,
        .finished (.ok (.committed (job.cleared world receipt).2))) := by
  by_cases keep : job.handling.keepFile
  · simp only [clear, cleared, if_pos keep]
  · simp only [clear, cleared, if_neg keep]
    cases world.files.removeImported job.path with
    | ok files => rfl
    | error cause => rfl

/-- Claiming a token changes nothing else, and giving the claim back changes nothing. -/
theorem claimed?_eq_some {world claimed : World} (h : job.claimed? world = some claimed) :
    claimed.catalog = world.catalog ∧ claimed.files = world.files ∧
      claimed.now = world.now ∧ job.release claimed = world := by
  cases htoken : job.token with
  | none =>
      simp only [claimed?, htoken, Option.some.injEq] at h
      subst h
      simp only [release, htoken, and_self]
  | some name =>
      simp only [claimed?, htoken, Option.map_eq_some_iff] at h
      obtain ⟨token, hclaim, rfl⟩ := h
      cases hpending : world.tokens name with
      | pending =>
          rw [hpending] at hclaim
          cases hclaim
          refine ⟨rfl, rfl, rfl, ?_⟩
          simp only [release, htoken, World.setToken, if_pos, CancelToken.release]
          congr 1
          funext other
          by_cases same : other = name
          · rw [if_pos same, same, hpending]
          · rw [if_neg same, if_neg same]
      | cancelled =>
          rw [hpending] at hclaim
          cases hclaim
      | committing =>
          rw [hpending] at hclaim
          cases hclaim

theorem write_congr {first second : World} (catalog : first.catalog = second.catalog)
    (now : first.now = second.now) (decoded : Decoded) (resolution : Resolution) :
    job.write first decoded resolution = job.write second decoded resolution := by
  simp only [write, catalog, now]

end ImportJob

namespace Importer

variable {σ : Type} (importer : Importer) (job : ImportJob)

theorem drive_finished (observe : Phase → World × σ → World × σ) (state : World × σ)
    (conclusion : Conclusion) :
    importer.drive job observe state (.finished conclusion) = (state, conclusion) := by
  rw [drive]
  rfl

theorem drive_step (observe : Phase → World × σ → World × σ) (state : World × σ)
    {phase : Phase} (unfinished : phase.conclusion? = none) :
    importer.drive job observe state phase =
      importer.drive job observe
        ((importer.advance job (observe phase state).1 phase).1, (observe phase state).2)
        (importer.advance job (observe phase state).1 phase).2 := by
  rw [drive]
  split
  · next conclusion finished =>
      rw [unfinished] at finished
      cases finished
  · rfl

/-- A property of phase and state that an observation and the step after it keep together
holds when the import ends. -/
theorem drive_observed (observe : Phase → World × σ → World × σ)
    (holds : Phase → World × σ → Prop)
    (stepped : ∀ phase state, phase.conclusion? = none → holds phase state →
      holds (importer.advance job (observe phase state).1 phase).2
        ((importer.advance job (observe phase state).1 phase).1, (observe phase state).2))
    (state : World × σ) (phase : Phase) (start : holds phase state) :
    holds (.finished (importer.drive job observe state phase).2)
      (importer.drive job observe state phase).1 := by
  induction state, phase using drive.induct importer job observe with
  | case1 state phase conclusion finished =>
      cases phase <;> simp only [Phase.conclusion?, reduceCtorEq, Option.some.injEq] at finished
      subst finished
      rw [drive_finished]
      exact start
  | case2 state phase unfinished seen next ih =>
      rw [drive_step importer job observe state unfinished]
      exact ih (stepped phase state unfinished start)

/-- A property of phase and state that every observation and every step keeps holds
when the import ends. -/
theorem drive_invariant (observe : Phase → World × σ → World × σ)
    (holds : Phase → World × σ → Prop)
    (observed : ∀ phase state, holds phase state → holds phase (observe phase state))
    (advanced : ∀ phase world rest, phase.conclusion? = none → holds phase (world, rest) →
      holds (importer.advance job world phase).2
        ((importer.advance job world phase).1, rest))
    (state : World × σ) (phase : Phase) (start : holds phase state) :
    holds (.finished (importer.drive job observe state phase).2)
      (importer.drive job observe state phase).1 :=
  importer.drive_observed job observe holds
    (fun phase state unfinished standing =>
      advanced phase _ _ unfinished (observed phase state standing))
    state phase start

/-- What an observer keeps to itself has no influence on the import. -/
theorem drive_forget {observe : Phase → World × σ → World × σ} {act : Phase → World → World}
    (acts : ∀ phase state, (observe phase state).1 = act phase state.1) (state : World × σ)
    (phase : Phase) :
    importer.drive job (fun phase state => (act phase state.1, ())) (state.1, ()) phase =
      (((importer.drive job observe state phase).1.1, ()),
        (importer.drive job observe state phase).2) := by
  induction state, phase using drive.induct importer job observe with
  | case1 state phase conclusion finished =>
      cases phase <;> simp only [Phase.conclusion?, reduceCtorEq, Option.some.injEq] at finished
      subst finished
      rw [drive_finished, drive_finished]
  | case2 state phase unfinished seen next ih =>
      rw [drive_step importer job observe state unfinished, drive_step _ _ _ _ unfinished]
      simp only [← acts]
      exact ih

/-- An import of an admitted file that nobody interferes with. -/
theorem drive_admitted (world : World) (facts : FileFacts) :
    importer.drive job (fun _ state => state) (world, ()) (.admitted facts) =
      if job.wasCancelled world then
        ((world, ()), .error ⟨job.path, .started, .cancelled⟩)
      else match importer.decode world job.path facts with
      | .error cause => ((world, ()), .error ⟨job.path, .fingerprinted, .decode cause⟩)
      | .ok decoded =>
        match identify decoded.digest decoded.key world.catalog.lookup job.handling.careful with
        | .error error => ((world, ()), .error ⟨job.path, .resolved, error⟩)
        | .ok resolution =>
          importer.drive job (fun _ state => state) (world, ()) (.resolved decoded resolution) := by
  rw [drive_step _ _ _ _ rfl]
  simp only [advance, examine]
  by_cases hcancelled : job.wasCancelled world
  · simp only [if_pos hcancelled, ImportJob.failed, drive_finished]
  · simp only [if_neg hcancelled]
    cases hdecode : importer.decode world job.path facts with
    | error cause => simp only [ImportJob.failed, drive_finished]
    | ok decoded =>
        simp only
        rw [drive_step _ _ _ _ rfl]
        simp only [advance, ImportJob.compare, if_neg hcancelled]
        cases identify decoded.digest decoded.key world.catalog.lookup job.handling.careful with
        | error error => simp only [ImportJob.failed, drive_finished]
        | ok resolution => rfl

/-- The commit of a resolved import that nobody interferes with. -/
theorem drive_resolved (world : World) (decoded : Decoded) (resolution : Resolution) :
    importer.drive job (fun _ state => state) (world, ()) (.resolved decoded resolution) =
      match job.claimed? world with
      | none => ((world, ()), .error ⟨job.path, .resolved, .cancelled⟩)
      | some claimed =>
        match job.write world decoded resolution with
        | .error error => ((world, ()), .error ⟨job.path, .committed, error⟩)
        | .ok (id, effect, catalog) =>
          let ended := job.cleared { claimed with catalog := catalog }
            (job.receipt decoded resolution id effect)
          ((ended.1, ()), .ok (.committed ended.2)) := by
  rw [drive_step _ _ _ _ rfl]
  simp only [advance, ImportJob.claim_eq]
  cases hclaimed : job.claimed? world with
  | none => simp only [ImportJob.failed, drive_finished]
  | some claimed =>
      obtain ⟨hcatalog, -, hnow, hrelease⟩ := job.claimed?_eq_some hclaimed
      simp only
      rw [drive_step _ _ _ _ rfl]
      simp only [advance, ImportJob.commit, job.write_congr hcatalog hnow decoded resolution]
      cases job.write world decoded resolution with
      | error error =>
          simp only
          rw [drive_step _ _ _ _ rfl]
          simp only [advance, ImportJob.failed, drive_finished, hrelease]
      | ok written =>
          simp only
          rw [drive_step _ _ _ _ rfl]
          simp only [advance, ImportJob.clear_eq, drive_finished]
          rfl

/-- An import that nobody interferes with, as one sequence of decisions. -/
theorem run_eq (world : World) :
    importer.run job world =
      match world.admit job.path with
      | .error error => (world, .error ⟨job.path, .started, error⟩)
      | .ok (.error reason) => (world, .ok (.rejected job.path reason))
      | .ok (.ok facts) =>
        if job.wasCancelled world then (world, .error ⟨job.path, .started, .cancelled⟩)
        else match importer.decode world job.path facts with
        | .error cause => (world, .error ⟨job.path, .fingerprinted, .decode cause⟩)
        | .ok decoded =>
          match identify decoded.digest decoded.key world.catalog.lookup
              job.handling.careful with
          | .error error => (world, .error ⟨job.path, .resolved, error⟩)
          | .ok resolution =>
            match job.claimed? world with
            | none => (world, .error ⟨job.path, .resolved, .cancelled⟩)
            | some claimed =>
              match job.write world decoded resolution with
              | .error error => (world, .error ⟨job.path, .committed, error⟩)
              | .ok (id, effect, catalog) =>
                let ended := job.cleared { claimed with catalog := catalog }
                  (job.receipt decoded resolution id effect)
                (ended.1, .ok (.committed ended.2)) := by
  unfold run
  rw [drive_step _ _ _ _ rfl]
  simp only [advance, ImportJob.start]
  cases hadmission : world.admit job.path with
  | error error => simp only [ImportJob.failed, drive_finished]
  | ok admitted =>
      cases admitted with
      | error reason => simp only [drive_finished]
      | ok facts =>
          simp only [drive_admitted, drive_resolved]
          by_cases hcancelled : job.wasCancelled world
          · simp only [if_pos hcancelled]
          · simp only [if_neg hcancelled]
            cases importer.decode world job.path facts with
            | error cause => rfl
            | ok decoded =>
                simp only
                cases identify decoded.digest decoded.key world.catalog.lookup
                    job.handling.careful with
                | error error => rfl
                | ok resolution =>
                    simp only
                    cases job.claimed? world with
                    | none => rfl
                    | some claimed =>
                        simp only
                        cases job.write world decoded resolution <;> rfl

/-- What an import that gets committed has found out and written. -/
structure Commits (importer : Importer) (job : ImportJob) (world : World)
    (decoded : Decoded) (resolution : Resolution) (id : IdentityId) (effect : CommitEffect)
    (catalog : Catalog) : Prop where
  admitted : world.admit job.path = .ok (.ok decoded.facts)
  uncancelled : job.wasCancelled world = false
  decodes : importer.decode world job.path decoded.facts = .ok decoded
  identified : identify decoded.digest decoded.key world.catalog.lookup job.handling.careful =
    .ok resolution
  written : job.write world decoded resolution = .ok (id, effect, catalog)

theorem decoded_facts {world : World} {path : Pathname} {facts : FileFacts} {decoded : Decoded}
    (h : importer.decode world path facts = .ok decoded) : decoded.facts = facts := by
  simp only [decode] at h
  cases hanalysis : (importer.decoder path (world.files.read path)).within importer.timeout with
  | error cause => rw [hanalysis] at h; cases h
  | ok recording => rw [hanalysis] at h; cases h; rfl

/-- An import that finds out and writes what `Commits` says, and can claim its token, is
committed. -/
theorem run_of_commits {world claimed : World} {decoded : Decoded} {resolution : Resolution}
    {id : IdentityId} {effect : CommitEffect} {catalog : Catalog}
    (hcommits : importer.Commits job world decoded resolution id effect catalog)
    (hclaimed : job.claimed? world = some claimed) :
    importer.run job world =
      ((job.cleared { claimed with catalog := catalog }
          (job.receipt decoded resolution id effect)).1,
        .ok (.committed (job.cleared { claimed with catalog := catalog }
          (job.receipt decoded resolution id effect)).2)) := by
  rw [run_eq, hcommits.admitted]
  simp only [hcommits.uncancelled, Bool.false_eq_true, if_false, hcommits.decodes,
    hcommits.identified, hclaimed, hcommits.written]

/-- An import that nobody interferes with either is not committed and leaves the world
as it is, or is committed with everything that `Commits` says. -/
theorem run_cases (world : World) :
    ((importer.run job world).1 = world ∧ (importer.run job world).2.receipt? = none) ∨
      ∃ decoded resolution id effect catalog claimed,
        importer.Commits job world decoded resolution id effect catalog ∧
        job.claimed? world = some claimed ∧
        importer.run job world =
          ((job.cleared { claimed with catalog := catalog }
              (job.receipt decoded resolution id effect)).1,
            .ok (.committed (job.cleared { claimed with catalog := catalog }
              (job.receipt decoded resolution id effect)).2)) := by
  rw [run_eq]
  cases hadmission : world.admit job.path with
  | error error => exact .inl ⟨rfl, rfl⟩
  | ok admitted =>
      cases admitted with
      | error reason => exact .inl ⟨rfl, rfl⟩
      | ok facts =>
          by_cases hcancelled : job.wasCancelled world
          · simp only [if_pos hcancelled]
            exact .inl ⟨trivial, rfl⟩
          · simp only [if_neg hcancelled]
            cases hdecode : importer.decode world job.path facts with
            | error cause => exact .inl ⟨rfl, rfl⟩
            | ok decoded =>
                simp only
                cases hidentify : identify decoded.digest decoded.key world.catalog.lookup
                    job.handling.careful with
                | error error => exact .inl ⟨rfl, rfl⟩
                | ok resolution =>
                    simp only
                    cases hclaimed : job.claimed? world with
                    | none => exact .inl ⟨rfl, rfl⟩
                    | some claimed =>
                        simp only
                        cases hwrite : job.write world decoded resolution with
                        | error error => exact .inl ⟨rfl, rfl⟩
                        | ok written =>
                            obtain ⟨id, effect, catalog⟩ := written
                            have hfacts := importer.decoded_facts hdecode
                            subst hfacts
                            exact .inr ⟨decoded, resolution, id, effect, catalog, claimed,
                              ⟨hadmission, Bool.eq_false_iff.mpr hcancelled, hdecode, hidentify,
                                hwrite⟩, rfl, rfl⟩

end Importer

/-! ## Single steps -/

/-- The receipt of an import that has got to a phase, if it is committed by then. -/
def Phase.receipt? : Phase → Option Receipt
  | .committed receipt => some receipt
  | .finished conclusion => conclusion.receipt?
  | .starting | .admitted _ | .fingerprinted _ | .resolved .. | .claimed .. | .rolledBack _ => none

/-- What a step of an import can do, from a phase to the next. -/
inductive ImportJob.Advances (job : ImportJob) (world : World) : Phase → World → Phase → Prop
  /-- Nothing that lasts, before the commit or without one. -/
  | quiet {phase entered : Phase} {next : World} (uncommitted : phase.receipt? = none)
      (unreceipted : entered.receipt? = none) (catalog : next.catalog = world.catalog)
      (files : next.files = world.files) : Advances job world phase next entered
  | commit {decoded : Decoded} {resolution : Resolution} {id : IdentityId} {effect : CommitEffect}
      {catalog : Catalog}
      (written : job.write world decoded resolution = .ok (id, effect, catalog)) :
      Advances job world (.claimed decoded resolution) { world with catalog := catalog }
        (.committed (job.receipt decoded resolution id effect))
  | clear (receipt : Receipt) :
      Advances job world (.committed receipt) (job.cleared world receipt).1
        (.finished (.ok (.committed (job.cleared world receipt).2)))
  /-- An import that has ended stays as it is. -/
  | rest (conclusion : Conclusion) :
      Advances job world (.finished conclusion) world (.finished conclusion)

theorem Importer.advances (importer : Importer) {job : ImportJob} {world next : World}
    {phase entered : Phase} (h : importer.advance job world phase = (next, entered)) :
    job.Advances world phase next entered := by
  cases phase with
  | starting =>
      simp only [advance, ImportJob.start] at h
      split at h <;> cases h <;> exact .quiet rfl rfl rfl rfl
  | admitted facts =>
      simp only [advance, examine] at h
      split at h
      · cases h
        exact .quiet rfl rfl rfl rfl
      · split at h <;> cases h <;> exact .quiet rfl rfl rfl rfl
  | fingerprinted decoded =>
      simp only [advance, ImportJob.compare] at h
      split at h
      · cases h
        exact .quiet rfl rfl rfl rfl
      · split at h <;> cases h <;> exact .quiet rfl rfl rfl rfl
  | resolved decoded resolution =>
      simp only [advance, ImportJob.claim_eq] at h
      split at h
      · rename_i claimed hclaimed
        cases h
        obtain ⟨hcatalog, hfiles, -, -⟩ := job.claimed?_eq_some hclaimed
        exact .quiet rfl rfl hcatalog hfiles
      · cases h
        exact .quiet rfl rfl rfl rfl
  | claimed decoded resolution =>
      simp only [advance, ImportJob.commit] at h
      split at h
      · cases h
        exact .quiet rfl rfl rfl rfl
      · rename_i id effect catalog hwritten
        cases h
        exact .commit hwritten
  | rolledBack error =>
      cases h
      rw [ImportJob.release]
      split <;> exact .quiet rfl rfl rfl rfl
  | committed receipt =>
      simp only [advance, ImportJob.clear_eq] at h
      cases h
      exact .clear receipt
  | finished conclusion =>
      cases h
      exact .rest conclusion

end AudioCatalog
