import AudioCatalog.Proofs.Import.Parallel

/-!
# Imports that take turns

An import that has decoded its file takes a turn when it looks into the catalog and later
commits what it decided.  `Parallel.Run.recounts` tells any run of imports side by side by its
turns: each commit is that of a decision taken on one of the catalogs there were until then.
In the other direction, `Parallel.Run.turn` makes a run of a turn that nothing stops.
-/

namespace AudioCatalog

open Contest (State)

/-! ## Imports that nothing stops -/

namespace Parallel

variable {ι κ : Type} {parallel : Parallel ι κ} {others : World → World → Prop}
  {first state : State ι} {commits : List (Commit ι)} {entrant : ι}

/-- A phase that holds no lock may always be entered. -/
theorem MayEnter.of_lockedDigest?_eq_none {phase : Phase} (hnone : phase.lockedDigest? = none) :
    parallel.MayEnter state entrant phase := by
  intro digest hdigest
  rw [hnone] at hdigest
  cases hdigest

variable [DecidableEq ι]

theorem enter_enter (state : State ι) (entrant : ι) (world next : World) (phase later : Phase) :
    (state.enter entrant world phase).enter entrant next later =
      state.enter entrant next later :=
  congrArg (State.mk next) (Function.update_idem ..)

theorem advance_enter (state : State ι) (entrant : ι) (world : World) (phase : Phase) :
    parallel.advance (state.enter entrant world phase) entrant =
      (parallel.importer entrant).advance (parallel.job entrant) world phase := by
  rw [advance, State.phase_enter_self]
  rfl

/-- Whether an import may enter a phase does not depend on the phase that it is in. -/
theorem MayEnter.enter {phase : Phase} (hmay : parallel.MayEnter state entrant phase)
    (world : World) (own : Phase) :
    parallel.MayEnter (state.enter entrant world own) entrant phase := by
  intro digest hdigest other hother held hheld
  rw [State.phase_enter_of_ne state hother] at hheld
  exact hmay digest hdigest other hother held hheld

/-- A step of an import that comes to a phase which it may enter. -/
theorem Run.enter (hrun : parallel.Run others first commits state) {world : World} {phase : Phase}
    (hadvance : parallel.advance state entrant = (world, phase))
    (hmay : parallel.MayEnter state entrant phase) :
    parallel.Run others first (commits ++ parallel.commits state entrant)
      (state.enter entrant world phase) := by
  have hstep : parallel.MayEnter state entrant (parallel.advance state entrant).2 →
      Step parallel others state _ _ := Step.proceed state entrant
  rw [hadvance] at hstep
  exact hrun.step (hstep hmay)

/-- A step that is not a commit. -/
theorem Run.enter_quietly (hrun : parallel.Run others first commits state) {world : World}
    {phase : Phase} (hphase : ∀ decoded resolution,
      state.phase entrant ≠ .claimed decoded resolution)
    (hadvance : parallel.advance state entrant = (world, phase))
    (hmay : parallel.MayEnter state entrant phase) :
    parallel.Run others first commits (state.enter entrant world phase) := by
  have hentered := hrun.enter hadvance hmay
  rwa [commits_eq_nil hphase, List.append_nil] at hentered

/-- An import that is not cancelled decodes its file. -/
theorem Run.decode (hrun : parallel.Run others first commits state) (entrant : ι)
    (hphase : state.phase entrant = .starting) {decoded : Decoded}
    (hadmitted : state.world.admit (parallel.job entrant).path = .ok (.ok decoded.facts))
    (huncancelled : (parallel.job entrant).wasCancelled state.world = false)
    (hdecodes : (parallel.importer entrant).decode state.world (parallel.job entrant).path
      decoded.facts = .ok decoded) :
    parallel.Run others first commits
      (state.enter entrant state.world (.fingerprinted decoded)) := by
  have hadmit : parallel.Run others first commits
      (state.enter entrant state.world (.admitted decoded.facts)) := by
    apply hrun.enter_quietly
    · simp [hphase]
    · simp only [advance, hphase, Importer.advance, ImportJob.start, hadmitted]
    · exact .of_lockedDigest?_eq_none rfl
  rw [← enter_enter state entrant state.world state.world (.admitted decoded.facts)]
  apply hadmit.enter_quietly
  · simp
  · simp only [advance_enter, Importer.advance, Importer.examine, huncancelled,
      Bool.false_eq_true, if_false, hdecodes]
  · exact .of_lockedDigest?_eq_none rfl

/-- An import that is not cancelled looks into the catalog. -/
theorem Run.look (hrun : parallel.Run others first commits state) (entrant : ι)
    {decoded : Decoded} (hphase : state.phase entrant = .fingerprinted decoded)
    (huncancelled : (parallel.job entrant).wasCancelled state.world = false)
    {resolution : Resolution}
    (hidentified : identify decoded.digest decoded.key state.world.catalog.lookup
      (parallel.job entrant).handling.careful = .ok resolution)
    (hmay : parallel.MayEnter state entrant (.resolved decoded resolution)) :
    parallel.Run others first commits
      (state.enter entrant state.world (.resolved decoded resolution)) := by
  apply hrun.enter_quietly
  · simp [hphase]
  · simp only [advance, hphase, Importer.advance, ImportJob.compare, huncancelled,
      Bool.false_eq_true, if_false, hidentified]
  · exact hmay

/-- An import that can claim its token commits what it has decided. -/
theorem Run.write (hrun : parallel.Run others first commits state) (entrant : ι)
    {decoded : Decoded} {resolution : Resolution}
    (hphase : state.phase entrant = .resolved decoded resolution) {claimed : World}
    (hclaimed : (parallel.job entrant).claimed? state.world = some claimed)
    (hmay : parallel.MayEnter state entrant (.resolved decoded resolution))
    {id : IdentityId} {effect : CommitEffect} {catalog : Catalog}
    (hwritten : (parallel.job entrant).write state.world decoded resolution =
      .ok (id, effect, catalog)) :
    let receipt := (parallel.job entrant).receipt decoded resolution id effect
    parallel.Run others first (commits ++ [⟨entrant, decoded, state.world.now, receipt⟩])
      (state.enter entrant { claimed with catalog := catalog } (.committed receipt)) := by
  intro receipt
  obtain ⟨hcatalog, -, hnow, -⟩ := (parallel.job entrant).claimed?_eq_some hclaimed
  rw [← hnow]
  have hclaim : parallel.Run others first commits
      (state.enter entrant claimed (.claimed decoded resolution)) := by
    apply hrun.enter_quietly
    · simp [hphase]
    · simp only [advance, hphase, Importer.advance, ImportJob.claim_eq, hclaimed]
    · exact hmay
  have hadvance : parallel.advance (state.enter entrant claimed (.claimed decoded resolution))
      entrant = ({ claimed with catalog := catalog }, .committed receipt) := by
    simp only [advance_enter, Importer.advance, ImportJob.commit,
      ImportJob.write_congr _ hcatalog hnow, hwritten]
    rfl
  have hcommits : parallel.commits (state.enter entrant claimed (.claimed decoded resolution))
      entrant = [⟨entrant, decoded, claimed.now, receipt⟩] := by
    simp only [Parallel.commits, State.phase_enter_self, hadvance]
    rfl
  have hcommit := hclaim.enter hadvance (.of_lockedDigest?_eq_none rfl)
  rwa [enter_enter, hcommits] at hcommit

/-- A committed import deals with its file, and is finished. -/
theorem Run.finish (hrun : parallel.Run others first commits state) (entrant : ι)
    {receipt : Receipt} (hphase : state.phase entrant = .committed receipt) :
    let ended := (parallel.job entrant).cleared state.world receipt
    parallel.Run others first commits
      (state.enter entrant ended.1 (.finished (.ok (.committed ended.2)))) := by
  apply hrun.enter_quietly
  · simp [hphase]
  · simp only [advance, hphase, Importer.advance, ImportJob.clear_eq]
  · exact .of_lockedDigest?_eq_none rfl

end Parallel

/-! ## Turns -/

/-- The catalog while nobody else holds the lock of the database. -/
def Catalog.unlocked (catalog : Catalog) : Catalog :=
  { catalog with locked := false }

/-- An import has decided on what one catalog showed, and commits that to another one. -/
def ImportJob.Turn (job : ImportJob) (decoded : Decoded) (seen before : Catalog) (now : Timestamp)
    (receipt : Receipt) (after : Catalog) : Prop :=
  ∃ (world : World) (resolution : Resolution) (id : IdentityId) (effect : CommitEffect),
    world.catalog = before ∧ world.now = now ∧
      identify decoded.digest decoded.key seen.lookup job.handling.careful = .ok resolution ∧
      job.write world decoded resolution = .ok (id, effect, after) ∧
      receipt = job.receipt decoded resolution id effect

/-- What a commit that succeeded tells of the catalog, of which it has changed the tables. -/
theorem ImportJob.openFor_of_write {job : ImportJob} {world : World} {decoded : Decoded}
    {resolution : Resolution} {id : IdentityId} {effect : CommitEffect} {catalog : Catalog}
    (h : job.write world decoded resolution = .ok (id, effect, catalog)) :
    world.catalog.OpenFor job.ticket ∧ job.path.text?.isSome ∧
      world.catalog.sources.greatestId < Table.idLimit ∧
      (effect = .inserted → world.catalog.identities.greatestId < Table.idLimit) ∧
      ∃ identities sources tickets, catalog = { world.catalog with
        identities := identities, sources := sources, tickets := tickets } := by
  rw [write] at h
  simp only at h
  split at h
  · obtain ⟨added, hadded, h⟩ := map_eq_ok_iff.mp h
    cases h
    obtain ⟨hopen, htext, hroom, hchanged⟩ := Catalog.openFor_of_addSource hadded
    exact ⟨hopen, htext, hroom, fun h => (by cases h), hchanged⟩
  · obtain ⟨⟨number, added⟩, hadded, h⟩ := map_eq_ok_iff.mp h
    cases h
    obtain ⟨hopen, htext, hroom, hidentities, hchanged⟩ := Catalog.openFor_of_addIdentity hadded
    exact ⟨hopen, htext, hroom, fun _ => hidentities, hchanged⟩

/-- An import whose token is pending was not cancelled and can claim the commit point. -/
theorem ImportJob.exists_claimed? (job : ImportJob) {world : World}
    (hpending : ∀ name, world.tokens name = .pending) :
    job.wasCancelled world = false ∧ ∃ claimed, job.claimed? world = some claimed := by
  cases htoken : job.token with
  | none =>
      refine ⟨?_, world, ?_⟩
      · simp only [wasCancelled, htoken]
      · simp only [claimed?, htoken]
  | some name =>
      refine ⟨?_, world.setToken name .committing, ?_⟩
      · simp only [wasCancelled, htoken, hpending, reduceCtorEq, decide_false]
      · simp only [claimed?, htoken, hpending, CancelToken.claim, Option.map_some]

theorem World.LeftAlone.unlocked_eq {world next : World} (hleft : world.LeftAlone next) :
    next.catalog.unlocked = world.catalog.unlocked := by
  obtain ⟨locked, hcatalog⟩ := hleft
  rw [hcatalog]
  rfl

theorem Catalog.unlocked_eq_self {catalog : Catalog} (hunlocked : catalog.locked = false) :
    catalog.unlocked = catalog := by
  rw [unlocked, ← hunlocked]

/-! ## Runs told by their turns -/

namespace Parallel

variable {ι κ : Type}

/-- The commits of some imports, and the catalogs that they have led through, the last one
first. -/
inductive Trace (parallel : Parallel ι κ) (start : Catalog) :
    List (Commit ι) → List Catalog → Prop
  | start : Trace parallel start [] [start]
  | commit {commits : List (Commit ι)} {before seen after : Catalog} {earlier : List Catalog}
      (trace : Trace parallel start commits (before :: earlier))
      (looked : seen ∈ before :: earlier) (commit : Commit ι)
      (turn : (parallel.job commit.entrant).Turn commit.decoded seen before commit.now
        commit.receipt after) :
      Trace parallel start (commits ++ [commit]) (after :: before :: earlier)

/-- What is told of an import in a phase, if it had decoded its file at first: what it has
committed, or else what it has decided. -/
def Tells (parallel : Parallel ι κ) (first : State ι) (commits : List (Commit ι))
    (catalogs : List Catalog) (entrant : ι) : Phase → Prop
  | .starting | .admitted _ => False
  | .fingerprinted decoded =>
    first.phase entrant = .fingerprinted decoded ∧ entrant ∉ commits.map (·.entrant)
  | .resolved decoded resolution | .claimed decoded resolution =>
    first.phase entrant = .fingerprinted decoded ∧ entrant ∉ commits.map (·.entrant) ∧
      ∃ seen ∈ catalogs, identify decoded.digest decoded.key seen.lookup
        (parallel.job entrant).handling.careful = .ok resolution
  | .rolledBack _ => True
  | .committed receipt => ∃ commit ∈ commits, commit.entrant = entrant ∧ commit.Shows receipt
  | .finished conclusion => first.phase entrant = .finished conclusion ∨
    ∀ receipt ∈ conclusion.receipt?, ∃ commit ∈ commits,
      commit.entrant = entrant ∧ commit.Shows receipt

/-- A run told by its turns. -/
structure Recounts (parallel : Parallel ι κ) (first : State ι) (commits : List (Commit ι))
    (earlier : List Catalog) (state : State ι) : Prop where
  trace : parallel.Trace first.world.catalog.unlocked commits
    (state.world.catalog.unlocked :: earlier)
  decoded : ∀ commit ∈ commits, first.phase commit.entrant = .fingerprinted commit.decoded
  distinct : (commits.map (·.entrant)).Nodup
  tells : ∀ entrant, parallel.Tells first commits (state.world.catalog.unlocked :: earlier) entrant
    (state.phase entrant)

variable {parallel : Parallel ι κ} {first state : State ι} {commits more : List (Commit ι)}
  {earlier : List Catalog} {entrant : ι}

theorem Recounts.refl (hrest : ∀ entrant,
      (∃ decoded, first.phase entrant = .fingerprinted decoded) ∨
        ∃ conclusion, first.phase entrant = .finished conclusion) :
    parallel.Recounts first [] [] first where
  trace := .start
  decoded commit hmem := by cases hmem
  distinct := .nil
  tells := by
    intro entrant
    rcases hrest entrant with ⟨decoded, hphase⟩ | ⟨conclusion, hphase⟩
    · rw [hphase]
      exact ⟨hphase, List.not_mem_nil⟩
    · rw [hphase]
      exact .inl hphase

/-- What is told of an import stays true while others go on. -/
theorem Tells.mono {catalogs later : List Catalog} {phase : Phase}
    (htells : parallel.Tells first commits catalogs entrant phase)
    (hcatalogs : ∀ seen ∈ catalogs, seen ∈ later) (hmore : entrant ∉ more.map (·.entrant)) :
    parallel.Tells first (commits ++ more) later entrant phase := by
  have hfree : entrant ∉ commits.map (·.entrant) → entrant ∉ (commits ++ more).map (·.entrant) := by
    intro hfree hmem
    rw [List.map_append, List.mem_append] at hmem
    exact hmem.elim hfree hmore
  have hshown : ∀ receipt, (∃ commit ∈ commits, commit.entrant = entrant ∧ commit.Shows receipt) →
      ∃ commit ∈ commits ++ more, commit.entrant = entrant ∧ commit.Shows receipt := by
    rintro receipt ⟨commit, hmem, hcommit⟩
    exact ⟨commit, List.mem_append_left _ hmem, hcommit⟩
  cases phase with
  | starting | admitted facts | rolledBack error => exact htells
  | fingerprinted decoded => exact ⟨htells.1, hfree htells.2⟩
  | resolved decoded resolution | claimed decoded resolution =>
      obtain ⟨hdecoded, hnone, seen, hseen, hidentified⟩ := htells
      exact ⟨hdecoded, hfree hnone, seen, hcatalogs seen hseen, hidentified⟩
  | committed receipt => exact hshown receipt htells
  | finished conclusion =>
      exact htells.imp_right fun h receipt hreceipt => hshown receipt (h receipt hreceipt)

/-- An import that fails has nothing to tell. -/
theorem tells_failed {catalogs : List Catalog} {job : ImportJob} {stage : Stage} {error : Error} :
    parallel.Tells first commits catalogs entrant (job.failed stage error) :=
  .inr fun _ hreceipt => by cases hreceipt

/-- The next step of an import is no commit, or it is the commit of what it has claimed. -/
theorem commits_cases (parallel : Parallel ι κ) (state : State ι) (entrant : ι) :
    parallel.commits state entrant = [] ∨
      ∃ decoded resolution id effect catalog,
        state.phase entrant = .claimed decoded resolution ∧
        (parallel.job entrant).write state.world decoded resolution = .ok (id, effect, catalog) ∧
        parallel.commits state entrant = [⟨entrant, decoded, state.world.now,
          (parallel.job entrant).receipt decoded resolution id effect⟩] ∧
        parallel.advance state entrant = ({ state.world with catalog := catalog },
          .committed ((parallel.job entrant).receipt decoded resolution id effect)) := by
  by_cases hclaimed : ∃ decoded resolution, state.phase entrant = .claimed decoded resolution
  · obtain ⟨decoded, resolution, hphase⟩ := hclaimed
    cases hwrite : (parallel.job entrant).write state.world decoded resolution with
    | error error =>
        left
        simp only [Parallel.commits, Parallel.advance, hphase, Importer.advance, ImportJob.commit,
          hwrite]
    | ok written =>
        obtain ⟨id, effect, catalog⟩ := written
        right
        refine ⟨decoded, resolution, id, effect, catalog, hphase, hwrite, ?_, ?_⟩
        · simp only [Parallel.commits, Parallel.advance, hphase, Importer.advance,
            ImportJob.commit, hwrite]
          rfl
        · simp only [Parallel.advance, hphase, Importer.advance, ImportJob.commit, hwrite]
          rfl
  · exact .inl (commits_eq_nil fun decoded resolution h => hclaimed ⟨decoded, resolution, h⟩)

/-- What is told of an import after a step of it that is not a commit. -/
theorem Tells.advance {phase : Phase} (hphase : state.phase entrant = phase)
    (htells : parallel.Tells first commits (state.world.catalog.unlocked :: earlier) entrant phase)
    (hnone : parallel.commits state entrant = []) :
    (parallel.advance state entrant).1.catalog = state.world.catalog ∧
      parallel.Tells first commits (state.world.catalog.unlocked :: earlier) entrant
        (parallel.advance state entrant).2 := by
  rw [Parallel.commits, hphase] at hnone
  rw [Parallel.advance, hphase]
  cases phase with
  | starting | admitted facts => cases htells
  | fingerprinted decoded =>
      simp only [Importer.advance, ImportJob.compare]
      refine ⟨trivial, ?_⟩
      split
      · exact tells_failed
      · split
        · exact tells_failed
        · rename_i resolution hidentified
          exact ⟨htells.1, htells.2, _, List.mem_cons_self, hidentified⟩
  | resolved decoded resolution =>
      simp only [Importer.advance, ImportJob.claim_eq]
      split
      · rename_i claimed hclaimed
        exact ⟨((parallel.job entrant).claimed?_eq_some hclaimed).1, htells⟩
      · exact ⟨rfl, tells_failed⟩
  | claimed decoded resolution =>
      simp only [Parallel.advance, hphase, Importer.advance, ImportJob.commit] at hnone ⊢
      cases hwrite : (parallel.job entrant).write state.world decoded resolution with
      | error error => exact ⟨rfl, trivial⟩
      | ok written =>
          rw [hwrite] at hnone
          cases hnone
  | rolledBack error =>
      simp only [Importer.advance, ImportJob.release]
      refine ⟨?_, tells_failed⟩
      split <;> rfl
  | committed receipt =>
      obtain ⟨commit, hmem, hown, hshows⟩ := htells
      simp only [Importer.advance, ImportJob.clear_eq, ImportJob.catalog_cleared]
      refine ⟨trivial, .inr fun cleared hcleared => ?_⟩
      cases hcleared
      exact ⟨commit, hmem, hown, hshows.cleared _ _⟩
  | finished conclusion => exact ⟨rfl, htells⟩

variable [DecidableEq ι]

/-- A step that is not a commit. -/
theorem Recounts.quiet (hrecounts : parallel.Recounts first commits earlier state) {world : World}
    {phase : Phase} (hcatalog : world.catalog = state.world.catalog)
    (htells : parallel.Tells first commits (state.world.catalog.unlocked :: earlier) entrant
      phase) :
    parallel.Recounts first (commits ++ []) earlier (state.enter entrant world phase) := by
  have hsame : (state.enter entrant world phase).world.catalog.unlocked =
      state.world.catalog.unlocked := congrArg Catalog.unlocked hcatalog
  rw [List.append_nil]
  refine ⟨hsame ▸ hrecounts.trace, hrecounts.decoded, hrecounts.distinct, fun other => ?_⟩
  rw [hsame]
  by_cases hother : other = entrant
  · subst hother
    rw [State.phase_enter_self]
    exact htells
  · rw [State.phase_enter_of_ne state hother]
    exact hrecounts.tells other

/-- A commit is a turn of the import that it is of. -/
theorem Recounts.commit (hrecounts : parallel.Recounts first commits earlier state)
    {decoded : Decoded} {resolution : Resolution}
    (hphase : state.phase entrant = .claimed decoded resolution) {id : IdentityId}
    {effect : CommitEffect} {catalog : Catalog}
    (hwritten : (parallel.job entrant).write state.world decoded resolution =
      .ok (id, effect, catalog)) :
    let receipt := (parallel.job entrant).receipt decoded resolution id effect
    parallel.Recounts first (commits ++ [⟨entrant, decoded, state.world.now, receipt⟩])
      (state.world.catalog.unlocked :: earlier)
      (state.enter entrant { state.world with catalog := catalog } (.committed receipt)) := by
  intro receipt
  have htells := hrecounts.tells entrant
  rw [hphase] at htells
  obtain ⟨hdecoded, hfree, seen, hseen, hidentified⟩ := htells
  obtain ⟨⟨hunlocked, -, -⟩, -, -, -, identities, sources, tickets, hcatalog⟩ :=
    ImportJob.openFor_of_write hwritten
  have hbefore := Catalog.unlocked_eq_self hunlocked
  have hafter : (state.enter entrant { state.world with catalog := catalog }
      (.committed receipt)).world.catalog.unlocked = catalog :=
    Catalog.unlocked_eq_self (by rw [hcatalog]; exact hunlocked)
  refine ⟨?_, ?_, ?_, fun other => ?_⟩
  · rw [hafter]
    exact hrecounts.trace.commit hseen ⟨entrant, decoded, state.world.now, receipt⟩
      ⟨state.world, resolution, id, effect, hbefore.symm, rfl, hidentified, hwritten, rfl⟩
  · intro commit hmem
    rcases List.mem_append.mp hmem with hmem | hmem
    · exact hrecounts.decoded commit hmem
    · rw [List.mem_singleton.mp hmem]
      exact hdecoded
  · rw [List.map_append, List.map_singleton]
    exact hrecounts.distinct.append (List.nodup_singleton _) (List.disjoint_singleton.mpr hfree)
  · by_cases hother : other = entrant
    · subst hother
      rw [State.phase_enter_self]
      exact ⟨_, List.mem_append_right _ (List.mem_singleton.mpr rfl), rfl, Commit.shows_receipt _⟩
    · rw [State.phase_enter_of_ne state hother, hafter]
      refine (hrecounts.tells other).mono (fun _ => List.mem_cons_of_mem _) ?_
      rwa [List.map_singleton, List.mem_singleton]

theorem Recounts.step {next : State ι}
    (hrecounts : parallel.Recounts first commits earlier state)
    (hstep : parallel.Step World.LeftAlone state more next) :
    ∃ earlier, parallel.Recounts first (commits ++ more) earlier next := by
  cases hstep with
  | proceed entrant free =>
      rcases commits_cases parallel state entrant with hnone |
        ⟨decoded, resolution, id, effect, catalog, hphase, hwritten, hcommits, hadvance⟩
      · obtain ⟨hcatalog, htells⟩ := (hrecounts.tells entrant).advance rfl hnone
        rw [hnone]
        exact ⟨earlier, hrecounts.quiet hcatalog htells⟩
      · rw [hcommits, hadvance]
        exact ⟨_, hrecounts.commit hphase hwritten⟩
  | others acts =>
      have hsame := acts.unlocked_eq
      rw [List.append_nil]
      exact ⟨earlier, hsame ▸ hrecounts.trace, hrecounts.decoded, hrecounts.distinct,
        hsame ▸ hrecounts.tells⟩

/-- Every run of imports that have decoded their files, or are finished already, is told by
its turns. -/
theorem Run.recounts {first last : State ι} {commits : List (Commit ι)}
    (hrun : parallel.Run World.LeftAlone first commits last)
    (hrest : ∀ entrant, (∃ decoded, first.phase entrant = .fingerprinted decoded) ∨
      ∃ conclusion, first.phase entrant = .finished conclusion) :
    ∃ earlier, parallel.Recounts first commits earlier last := by
  induction hrun with
  | start => exact ⟨[], .refl hrest⟩
  | step before last ih =>
      obtain ⟨earlier, hrecounts⟩ := ih
      exact hrecounts.step last

/-! ## Turns that nothing stops -/

/-- A turn is taken while nobody else holds a lock in its way. -/
theorem Run.turn {commits : List (Commit ι)}
    (hrun : parallel.Run World.LeftAlone first commits state) {decoded : Decoded}
    (hphase : state.phase entrant = .fingerprinted decoded) {now : Timestamp} {receipt : Receipt}
    {after : Catalog}
    (hturn : (parallel.job entrant).Turn decoded state.world.catalog.unlocked
      state.world.catalog.unlocked now receipt after)
    (hmay : ∀ resolution, parallel.MayEnter state entrant (.resolved decoded resolution)) :
    ∃ more world ended,
      parallel.Run World.LeftAlone first (commits ++ more)
        (state.enter entrant world (.finished (.ok (.committed ended)))) ∧
      world.catalog = after ∧ (⟨entrant, decoded, now, receipt⟩ : Commit ι).Shows ended := by
  obtain ⟨writer, resolution, id, effect, hcatalog, hnow, hidentified, hwritten, rfl⟩ := hturn
  -- Others let go of the lock, renew the tokens and set the clock.
  let ready : World :=
    { state.world with
      catalog := state.world.catalog.unlocked
      tokens := fun _ => .pending
      now := now }
  obtain ⟨huncancelled, claimed, hclaimed⟩ :=
    (parallel.job entrant).exists_claimed? fun name => (rfl : ready.tokens name = .pending)
  have hready : parallel.Run World.LeftAlone first (commits ++ []) ⟨ready, state.phase⟩ :=
    hrun.step (.others ⟨false, rfl⟩)
  have hlook := hready.look entrant hphase huncancelled hidentified (hmay resolution)
  have hwritten' : (parallel.job entrant).write ready decoded resolution =
      .ok (id, effect, after) := by
    rw [← hwritten]
    exact ImportJob.write_congr _ hcatalog.symm hnow.symm decoded resolution
  have hwrite := hlook.write entrant (State.phase_enter_self ..) hclaimed
    ((hmay resolution).enter _ _) hwritten'
  have hfinish := hwrite.finish entrant (State.phase_enter_self ..)
  simp only [enter_enter, List.append_assoc] at hfinish
  exact ⟨_, _, _, hfinish, ImportJob.catalog_cleared .., (Commit.shows_receipt _).cleared _ _⟩

end Parallel

end AudioCatalog
