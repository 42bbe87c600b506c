import AudioCatalog.Proofs.Import.Contest
import AudioCatalog.Proofs.Import.Standing
import AudioCatalog.Proofs.Session.Vouching

/-!
# Imports side by side

Any number of imports may run at the same time, and their steps may come in any order, except
that those whose digests share a lock take turns from the look-up to the end of the commit.
`Parallel.Run` is such an order, with the commits that happen in it.

`Parallel.Fares` is what is known of an import in each phase.  A step of one import keeps what
is known of the others, for while one of them is between its look-up and its commit no import
of its digest commits, and its decision stands.
-/

namespace AudioCatalog

open Contest (State)

/-- Imports that run side by side, and which lock each digest has. -/
structure Parallel (ι κ : Type) where
  importer : ι → Importer
  job : ι → ImportJob
  lock : Digest → κ

namespace Parallel

/-- A commit of one of the imports: what was decoded, when it was committed, and the receipt. -/
structure Commit (ι : Type) where
  entrant : ι
  decoded : Decoded
  now : Timestamp
  receipt : Receipt

variable {ι κ : Type} [DecidableEq ι]

/-- The next step of an import. -/
def advance (parallel : Parallel ι κ) (state : State ι) (entrant : ι) : World × Phase :=
  (parallel.importer entrant).advance (parallel.job entrant) state.world (state.phase entrant)

/-- Whether an import may enter a phase: if it holds a lock there, none of the others does. -/
def MayEnter (parallel : Parallel ι κ) (state : State ι) (entrant : ι) (phase : Phase) : Prop :=
  ∀ digest ∈ phase.lockedDigest?, ∀ other, other ≠ entrant →
    ∀ held ∈ (state.phase other).lockedDigest?, parallel.lock held ≠ parallel.lock digest

/-- The commit that happens in the next step of an import, if one does. -/
def commits (parallel : Parallel ι κ) (state : State ι) (entrant : ι) : List (Commit ι) :=
  match state.phase entrant, (parallel.advance state entrant).2 with
  | .claimed decoded _, .committed receipt => [⟨entrant, decoded, state.world.now, receipt⟩]
  | _, _ => []

/-- One step, of one of the imports or of others who are not among them. -/
inductive Step (parallel : Parallel ι κ) (others : World → World → Prop) :
    State ι → List (Commit ι) → State ι → Prop
  | proceed (state : State ι) (entrant : ι)
      (free : parallel.MayEnter state entrant (parallel.advance state entrant).2) :
      Step parallel others state (parallel.commits state entrant)
        (state.enter entrant (parallel.advance state entrant).1 (parallel.advance state entrant).2)
  | others {state : State ι} {world : World} (acts : others state.world world) :
      Step parallel others state [] ⟨world, state.phase⟩

/-- Any number of steps, with the commits among them in their order. -/
inductive Run (parallel : Parallel ι κ) (others : World → World → Prop) :
    State ι → List (Commit ι) → State ι → Prop
  | start (state : State ι) : Run parallel others state [] state
  | step {first second third : State ι} {before after : List (Commit ι)}
      (run : Run parallel others first before second)
      (last : Step parallel others second after third) :
      Run parallel others first (before ++ after) third

end Parallel

/-! ## Sources and identities -/

/-- Whether a catalog refers to a state of a file as a source of an identity. -/
def Catalog.Refers (catalog : Catalog) (id : IdentityId) (file : Pathname × Int × UInt64) : Prop :=
  ∃ ledger, catalog.Keeps ledger ∧ ∃ identity ∈ ledger, identity.id = id ∧
    ∃ source ∈ identity.sources, source.state = file

/-- A source counts among the sources of an identity that it is added to, be it that one of
the same state was there before. -/
theorem Source.exists_state_addTo (source : Source) (sources : List Source) :
    ∃ other ∈ source.addTo sources, other.state = source.state := by
  rw [addTo]
  split
  · rename_i hany
    obtain ⟨other, hother, hsame⟩ := List.any_eq_true.mp hany
    exact ⟨other, hother, sameState_iff.mp hsame⟩
  · exact ⟨source, List.mem_append_right _ (List.mem_singleton.mpr rfl), rfl⟩

theorem Source.mem_addTo_of_mem {source other : Source} {sources : List Source}
    (h : other ∈ sources) : other ∈ source.addTo sources := by
  rw [addTo]
  split
  · exact h
  · exact List.mem_append_left _ h

/-- A commit refers to the file that it was made of. -/
theorem ImportJob.refers_of_write {job : ImportJob} {world : World} (hsound : world.catalog.Sound)
    {decoded : Decoded} {resolution : Resolution} {id : IdentityId} {effect : CommitEffect}
    {catalog : Catalog} (h : job.write world decoded resolution = .ok (id, effect, catalog)) :
    catalog.Refers id (job.deposit decoded world.now).source.state ∧
      (effect = .inserted → catalog.Has id decoded.digest) := by
  obtain ⟨ledger, hkeeps, -, -⟩ := hsound
  obtain ⟨-, ⟨-, -, -, -, hkept⟩ | ⟨rfl, -, ⟨identity, hmem, rfl⟩, hkept⟩⟩ := write_cases hkeeps h
  · have hmem := List.mem_append_right ledger (List.mem_singleton.mpr (rfl :
      (job.deposit decoded world.now).draft.entry id [(job.deposit decoded world.now).source]
        world.now = _))
    exact ⟨⟨_, hkept, _, hmem, rfl, _, List.mem_singleton.mpr rfl, rfl⟩,
      fun _ => hkept.has_iff.mpr ⟨_, hmem, rfl, rfl⟩⟩
  · refine ⟨⟨_, hkept, _, List.mem_map_of_mem hmem, ?_⟩, fun h => by cases h⟩
    rw [if_pos rfl]
    exact ⟨rfl, Source.exists_state_addTo _ _⟩

theorem Catalog.Refers.congr {catalog next : Catalog} {id : IdentityId}
    {file : Pathname × Int × UInt64} (hrefers : catalog.Refers id file)
    (hsame : next.SameTables catalog) : next.Refers id file := by
  obtain ⟨ledger, hkeeps, hthere⟩ := hrefers
  exact ⟨ledger, hkeeps.congr (by rw [hsame.identities]) (by rw [hsame.sources]), hthere⟩

/-- No commit takes a source away. -/
theorem Catalog.Refers.write {job : ImportJob} {world : World} {decoded : Decoded}
    {resolution : Resolution} {id other : IdentityId} {effect : CommitEffect} {catalog : Catalog}
    (h : job.write world decoded resolution = .ok (id, effect, catalog))
    {file : Pathname × Int × UInt64} (hrefers : world.catalog.Refers other file) :
    catalog.Refers other file := by
  obtain ⟨ledger, hkeeps, identity, hmem, hid, source, hsource, hstate⟩ := hrefers
  obtain ⟨-, ⟨-, -, -, -, hkept⟩ | ⟨-, -, -, hkept⟩⟩ := ImportJob.write_cases hkeeps h
  · exact ⟨_, hkept, identity, List.mem_append_left _ hmem, hid, source, hsource, hstate⟩
  · refine ⟨_, hkept, _, List.mem_map_of_mem hmem, ?_⟩
    split
    · exact ⟨hid, source, Source.mem_addTo_of_mem hsource, hstate⟩
    · exact ⟨hid, source, hsource, hstate⟩

/-! ## What is known of imports that run side by side -/

namespace Parallel

variable {ι κ : Type}

/-- Why the commit of an import may fail, whatever the others do: the catalog cannot be written,
or the ticket of the import did not exist in the beginning. -/
def Excuses (parallel : Parallel ι κ) (start : World) (entrant : ι) (error : Error) : Prop :=
  (∃ fault, error = .store fault) ∨
    ∃ id ∈ (parallel.job entrant).ticket, start.catalog.tickets.row? id.value = none

/-- Whether a receipt is that of a commit, apart from what became of the file afterwards. -/
def Commit.Shows (commit : Commit ι) (receipt : Receipt) : Prop :=
  ∃ removed remarks,
    receipt = { commit.receipt with fileRemoved := removed, remarks := remarks }

theorem Commit.shows_receipt (commit : Commit ι) : commit.Shows commit.receipt :=
  ⟨commit.receipt.fileRemoved, commit.receipt.remarks, rfl⟩

/-- Dealing with the file changes nothing else on a receipt. -/
theorem Commit.Shows.cleared {commit : Commit ι} {receipt : Receipt} (hshows : commit.Shows receipt)
    (job : ImportJob) (world : World) : commit.Shows (job.cleared world receipt).2 := by
  obtain ⟨removed, remarks, rfl⟩ := hshows
  rw [ImportJob.cleared]
  split
  · exact ⟨removed, remarks, rfl⟩
  · split
    · exact ⟨true, remarks, rfl⟩
    · exact ⟨removed, _, rfl⟩

/-- What is known of an import in a phase, where `commits` have happened and left a catalog. -/
def Fares (parallel : Parallel ι κ) (start : World) (commits : List (Commit ι)) (catalog : Catalog)
    (entrant : ι) : Phase → Prop
  | .starting => True
  | .admitted _ | .fingerprinted _ => (parallel.job entrant).path.text?.isSome
  | .resolved decoded resolution | .claimed decoded resolution =>
    (parallel.job entrant).path.text?.isSome ∧ catalog.access ≠ .blind ∧
      resolution.StandsIn catalog decoded.digest
  | .rolledBack error => parallel.Excuses start entrant error
  | .committed receipt => ∃ commit ∈ commits, commit.entrant = entrant ∧ commit.Shows receipt
  | .finished conclusion =>
    (∀ path error, conclusion = .error ⟨path, .committed, error⟩ →
      parallel.Excuses start entrant error) ∧
    ∀ receipt ∈ conclusion.receipt?, ∃ commit ∈ commits,
      commit.entrant = entrant ∧ commit.Shows receipt

/-- What is known of a commit ever after: the catalog can be read, refers to the file as a source
of the identity on the receipt, and if the identity was new, it has the digest. -/
structure Lasts (parallel : Parallel ι κ) (commit : Commit ι) (catalog : Catalog) : Prop where
  visible : catalog.access ≠ .blind
  refers : catalog.Refers commit.receipt.identity
    ((parallel.job commit.entrant).deposit commit.decoded commit.now).source.state
  digest : commit.receipt.digest = commit.decoded.digest
  has : commit.receipt.effect = .inserted →
    catalog.Has commit.receipt.identity commit.receipt.digest

/-- The digests of which the commits made identities. -/
def inserted (commits : List (Commit ι)) : List Digest :=
  (commits.filter fun commit => commit.receipt.effect = .inserted).map (·.receipt.digest)

/-- What is known of all of them together. -/
structure Knows (parallel : Parallel ι κ) (start : World) (commits : List (Commit ι))
    (state : State ι) : Prop where
  sound : state.world.catalog.Sound
  tickets : ∀ id, (state.world.catalog.tickets.row? id).isSome =
    (start.catalog.tickets.row? id).isSome
  exclusive : ∀ entrant, parallel.MayEnter state entrant (state.phase entrant)
  fares : ∀ entrant,
    parallel.Fares start commits state.world.catalog entrant (state.phase entrant)
  lasts : ∀ commit ∈ commits, parallel.Lasts commit state.world.catalog
  distinct : (inserted commits).Nodup

variable {parallel : Parallel ι κ} {start : World} {commits more : List (Commit ι)}
  {state : State ι} {entrant : ι}

theorem Knows.of_starting (hsound : start.catalog.Sound) :
    parallel.Knows start [] ⟨start, fun _ => .starting⟩ where
  sound := hsound
  tickets _ := rfl
  exclusive _ digest hdigest := by cases hdigest
  fares _ := trivial
  lasts commit hcommit := by cases hcommit
  distinct := .nil

/-- What is known of an import stays known while its decision stands. -/
theorem Fares.mono {catalog next : Catalog} {phase : Phase}
    (hfares : parallel.Fares start commits catalog entrant phase)
    (haccess : next.access = catalog.access)
    (hstands : ∀ digest ∈ phase.lockedDigest?, ∀ resolution : Resolution,
      resolution.StandsIn catalog digest → resolution.StandsIn next digest) :
    parallel.Fares start (commits ++ more) next entrant phase := by
  have hshown : ∀ receipt, (∃ commit ∈ commits, commit.entrant = entrant ∧ commit.Shows receipt) →
      ∃ commit ∈ commits ++ more, commit.entrant = entrant ∧ commit.Shows receipt := by
    rintro receipt ⟨commit, hmem, hcommit⟩
    exact ⟨commit, List.mem_append_left _ hmem, hcommit⟩
  cases phase with
  | starting | admitted facts | fingerprinted decoded | rolledBack error => exact hfares
  | resolved decoded resolution | claimed decoded resolution =>
      obtain ⟨htext, hvisible, hstanding⟩ := hfares
      exact ⟨htext, haccess ▸ hvisible, hstands _ rfl resolution hstanding⟩
  | committed receipt => exact hshown receipt hfares
  | finished conclusion =>
      exact ⟨hfares.1, fun receipt hreceipt => hshown receipt (hfares.2 receipt hreceipt)⟩

/-- An import that fails before its commit. -/
theorem fares_failed {catalog : Catalog} {job : ImportJob} {stage : Stage} {error : Error}
    (hstage : stage = .committed → parallel.Excuses start entrant error) :
    parallel.Fares start commits catalog entrant (job.failed stage error) := by
  refine ⟨fun path other h => ?_, fun receipt hreceipt => by cases hreceipt⟩
  cases h
  exact hstage rfl

/-- An import that is rejected or committed. -/
theorem fares_ended {catalog : Catalog} {outcome : Outcome}
    (hshown : ∀ receipt ∈ Conclusion.receipt? (.ok outcome), ∃ commit ∈ commits,
      commit.entrant = entrant ∧ commit.Shows receipt) :
    parallel.Fares start commits catalog entrant (.finished (.ok outcome)) :=
  ⟨fun _ _ h => (by cases h), hshown⟩

/-- What is known of an import after a step of it that is not a commit, which leaves the catalog
as it is. -/
theorem Knows.fares_advance (hknows : parallel.Knows start commits state)
    (hphase : ∀ decoded resolution, state.phase entrant ≠ .claimed decoded resolution) :
    (parallel.advance state entrant).1.catalog = state.world.catalog ∧
      parallel.Fares start commits state.world.catalog entrant
        (parallel.advance state entrant).2 := by
  have hfares := hknows.fares entrant
  rw [advance]
  cases hcurrent : state.phase entrant with
  | starting =>
      simp only [Importer.advance, ImportJob.start]
      refine ⟨trivial, ?_⟩
      split
      · exact fares_failed (fun h => by cases h)
      · exact fares_ended fun receipt hreceipt => by cases hreceipt
      · exact World.text_of_admitted ‹_›
  | admitted facts =>
      rw [hcurrent] at hfares
      simp only [Importer.advance, Importer.examine]
      refine ⟨trivial, ?_⟩
      split
      · exact fares_failed (fun h => by cases h)
      · split
        · exact fares_failed (fun h => by cases h)
        · exact hfares
  | fingerprinted decoded =>
      rw [hcurrent] at hfares
      simp only [Importer.advance, ImportJob.compare]
      refine ⟨trivial, ?_⟩
      split
      · exact fares_failed (fun h => by cases h)
      · split
        · exact fares_failed (fun h => by cases h)
        · rename_i resolution hidentified
          have hstands := hknows.sound.standsIn_of_identify hidentified
          obtain ⟨ledger, hkeeps, -, -⟩ := hknows.sound
          exact ⟨hfares, (hkeeps.eq_resolutionIn_of_identify hidentified).1, hstands⟩
  | resolved decoded resolution =>
      rw [hcurrent] at hfares
      simp only [Importer.advance, ImportJob.claim_eq]
      split
      · rename_i claimed hclaimed
        exact ⟨((parallel.job entrant).claimed?_eq_some hclaimed).1, hfares⟩
      · exact ⟨rfl, fares_failed (fun h => by cases h)⟩
  | claimed decoded resolution => exact absurd hcurrent (hphase decoded resolution)
  | rolledBack error =>
      rw [hcurrent] at hfares
      simp only [Importer.advance, ImportJob.release]
      refine ⟨?_, fares_failed fun _ => hfares⟩
      split <;> rfl
  | committed receipt =>
      rw [hcurrent] at hfares
      obtain ⟨commit, hmem, hown, hshows⟩ := hfares
      simp only [Importer.advance, ImportJob.clear_eq, ImportJob.catalog_cleared]
      refine ⟨trivial, fares_ended fun cleared hcleared => ?_⟩
      cases hcleared
      exact ⟨commit, hmem, hown, hshows.cleared _ _⟩
  | finished conclusion =>
      rw [hcurrent] at hfares
      exact ⟨rfl, hfares⟩

/-- A refused commit is excused, for tickets neither come nor go. -/
theorem Knows.excuses (hknows : parallel.Knows start commits state) {error : Error}
    (hrefuses : state.world.catalog.Refuses (parallel.job entrant).ticket error) :
    parallel.Excuses start entrant error := by
  cases hrefuses with
  | locked | readOnly | full => exact .inl ⟨_, rfl⟩
  | @unknownTicket id hown hunknown =>
      have hthere := hknows.tickets id.value
      rw [hunknown, Option.isSome_none, eq_comm, Option.isSome_eq_false_iff,
        Option.isNone_iff_eq_none] at hthere
      exact .inr ⟨id, hown, hthere⟩

theorem inserted_append (commits more : List (Commit ι)) :
    inserted (commits ++ more) = inserted commits ++ inserted more := by
  rw [inserted, List.filter_append, List.map_append]
  rfl

/-- An identity is made of a digest that no identity was made of before. -/
theorem Knows.not_mem_inserted (hknows : parallel.Knows start commits state) {decoded : Decoded}
    {resolution : Resolution} {id : IdentityId} {catalog : Catalog}
    (hwritten : (parallel.job entrant).write state.world decoded resolution =
      .ok (id, .inserted, catalog)) : decoded.digest ∉ inserted commits := by
  intro hmem
  obtain ⟨commit, hcommit, hsame⟩ := List.mem_map.mp hmem
  obtain ⟨hcommit, heffect⟩ := List.mem_filter.mp hcommit
  have hhas := (hknows.lasts commit hcommit).has (of_decide_eq_true heffect)
  obtain ⟨ledger, hkeeps, -, -⟩ := hknows.sound
  obtain ⟨identity, hidentity, -, hdigest⟩ := hkeeps.has_iff.mp hhas
  obtain ⟨-, ⟨-, -, -, hnew, -⟩ | ⟨hattached, -⟩⟩ := ImportJob.write_cases hkeeps hwritten
  · exact hnew identity hidentity (hdigest.trans hsame)
  · cases hattached

theorem commits_eq_nil (hphase : ∀ decoded resolution,
    state.phase entrant ≠ .claimed decoded resolution) : parallel.commits state entrant = [] := by
  rw [commits]
  split
  · exact absurd ‹_› (hphase _ _)
  · rfl

/-- What others do to the lock of the database keeps what is known. -/
theorem Knows.others (hknows : parallel.Knows start commits state) {world : World}
    (hleft : state.world.LeftAlone world) : parallel.Knows start commits ⟨world, state.phase⟩ := by
  have hsame := hleft.sameTables
  have haccess : world.catalog.access = state.world.catalog.access := by
    obtain ⟨locked, hcatalog⟩ := hleft
    rw [hcatalog]
  refine ⟨hknows.sound.congr_tables hsame, ?_, hknows.exclusive, ?_, ?_, hknows.distinct⟩
  · intro id
    rw [hsame.tickets]
    exact hknows.tickets id
  · intro entrant
    rw [← List.append_nil commits]
    exact (hknows.fares entrant).mono haccess
      fun _ _ _ hstands => Resolution.StandsIn.congr hstands hsame
  · intro commit hmem
    obtain ⟨hvisible, hrefers, hdigest, hhas⟩ := hknows.lasts commit hmem
    exact ⟨haccess ▸ hvisible, hrefers.congr hsame, hdigest,
      fun hinserted => (hhas hinserted).congr hsame⟩

/-! ## Steps -/

variable [DecidableEq ι]

/-- No lock is held twice after a step into a phase that may be entered. -/
theorem exclusive_enter (hexclusive : ∀ other, parallel.MayEnter state other (state.phase other))
    {phase : Phase} (hmay : parallel.MayEnter state entrant phase) (world : World) (other : ι) :
    parallel.MayEnter (state.enter entrant world phase) other
      ((state.enter entrant world phase).phase other) := by
  intro digest hdigest first hne held hheld
  by_cases hother : other = entrant
  · subst hother
    rw [State.phase_enter_self] at hdigest
    rw [State.phase_enter_of_ne state hne] at hheld
    exact hmay digest hdigest first hne held hheld
  · rw [State.phase_enter_of_ne state hother] at hdigest
    by_cases hfirst : first = entrant
    · subst hfirst
      rw [State.phase_enter_self] at hheld
      exact (hmay held hheld other hother digest hdigest).symm
    · rw [State.phase_enter_of_ne state hfirst] at hheld
      exact hexclusive other digest hdigest first hne held hheld

/-- The import that takes a step enters its phase, and the others stay where they are. -/
theorem Knows.enter (hknows : parallel.Knows start commits state) {world : World} {phase : Phase}
    (hmay : parallel.MayEnter state entrant phase) (hsound : world.catalog.Sound)
    (htickets : ∀ id, (world.catalog.tickets.row? id).isSome =
      (state.world.catalog.tickets.row? id).isSome)
    (haccess : world.catalog.access = state.world.catalog.access)
    (hstands : ∀ other, other ≠ entrant → ∀ digest ∈ (state.phase other).lockedDigest?,
      ∀ resolution : Resolution, resolution.StandsIn state.world.catalog digest →
        resolution.StandsIn world.catalog digest)
    (hfares : parallel.Fares start (commits ++ more) world.catalog entrant phase)
    (hlasts : ∀ commit ∈ commits ++ more, parallel.Lasts commit world.catalog)
    (hdistinct : (inserted (commits ++ more)).Nodup) :
    parallel.Knows start (commits ++ more) (state.enter entrant world phase) where
  sound := hsound
  tickets id := (htickets id).trans (hknows.tickets id)
  exclusive := exclusive_enter hknows.exclusive hmay world
  fares := by
    intro other
    by_cases hother : other = entrant
    · subst hother
      rw [State.phase_enter_self]
      exact hfares
    · rw [State.phase_enter_of_ne state hother]
      exact (hknows.fares other).mono haccess (hstands other hother)
  lasts := hlasts
  distinct := hdistinct

/-- A step that does not write. -/
theorem Knows.quiet (hknows : parallel.Knows start commits state) {world : World} {phase : Phase}
    (hmay : parallel.MayEnter state entrant phase) (hcatalog : world.catalog = state.world.catalog)
    (hfares : parallel.Fares start commits state.world.catalog entrant phase) :
    parallel.Knows start (commits ++ []) (state.enter entrant world phase) := by
  refine hknows.enter hmay ?_ ?_ ?_ ?_ ?_ ?_ ?_
  · rw [hcatalog]
    exact hknows.sound
  · rw [hcatalog]
    exact fun _ => rfl
  · rw [hcatalog]
  · rw [hcatalog]
    exact fun _ _ _ _ _ hstands => hstands
  · rw [hcatalog, List.append_nil]
    exact hfares
  · rw [hcatalog, List.append_nil]
    exact hknows.lasts
  · rw [List.append_nil]
    exact hknows.distinct

/-- A commit is known of from then on. -/
theorem Knows.commit (hknows : parallel.Knows start commits state) {decoded : Decoded}
    {resolution : Resolution} (hphase : state.phase entrant = .claimed decoded resolution)
    {id : IdentityId} {effect : CommitEffect} {catalog : Catalog}
    (hwritten : (parallel.job entrant).write state.world decoded resolution =
      .ok (id, effect, catalog)) :
    let receipt := (parallel.job entrant).receipt decoded resolution id effect
    parallel.Knows start (commits ++ [⟨entrant, decoded, state.world.now, receipt⟩])
      (state.enter entrant { state.world with catalog := catalog } (.committed receipt)) := by
  intro receipt
  have hfares := hknows.fares entrant
  rw [hphase] at hfares
  obtain ⟨-, hvisible, hstands⟩ := hfares
  obtain ⟨haccess, htickets⟩ := ImportJob.frame_of_write hknows.sound hwritten
  have hwrite := ImportJob.write_of_write hwritten
  obtain ⟨hrefers, hhas⟩ := ImportJob.refers_of_write hknows.sound hwritten
  have hlasts : ∀ commit ∈ commits, parallel.Lasts commit catalog := by
    intro commit hmem
    obtain ⟨hseen, hthere, hdigest, hmade⟩ := hknows.lasts commit hmem
    exact ⟨haccess ▸ hseen, hthere.write hwritten, hdigest,
      fun hinserted => (hmade hinserted).write hwrite hknows.sound⟩
  refine hknows.enter (fun _ hdigest => by cases hdigest) (hknows.sound.write hwrite) htickets
    haccess ?_ ?_ ?_ ?_
  · -- While this import holds the lock of its digest, nobody else has decided on the digest.
    intro other hother digest hdigest decision hstanding
    refine hstanding.write hknows.sound (fun hsame => ?_) hwritten
    refine hknows.exclusive other digest hdigest entrant hother.symm decoded.digest ?_ ?_
    · rw [hphase]
      rfl
    · rw [hsame]
  · exact ⟨_, List.mem_append_right _ (List.mem_singleton.mpr rfl), rfl, Commit.shows_receipt _⟩
  · intro commit hmem
    rcases List.mem_append.mp hmem with hmem | hmem
    · exact hlasts commit hmem
    · rw [List.mem_singleton.mp hmem]
      exact ⟨haccess ▸ hvisible, hrefers, rfl, hhas⟩
  · rw [inserted_append]
    cases effect with
    | attached =>
        have hnone :
            inserted [(⟨entrant, decoded, state.world.now, receipt⟩ : Commit ι)] = [] := rfl
        rw [hnone, List.append_nil]
        exact hknows.distinct
    | inserted =>
        refine hknows.distinct.append (List.nodup_singleton decoded.digest) ?_
        exact List.disjoint_singleton.mpr (hknows.not_mem_inserted hwritten)

/-- A step of one of the imports keeps what is known of all. -/
theorem Knows.proceed (hknows : parallel.Knows start commits state)
    (hmay : parallel.MayEnter state entrant (parallel.advance state entrant).2) :
    parallel.Knows start (commits ++ parallel.commits state entrant)
      (state.enter entrant (parallel.advance state entrant).1
        (parallel.advance state entrant).2) := by
  by_cases hclaimed : ∃ decoded resolution, state.phase entrant = .claimed decoded resolution
  · obtain ⟨decoded, resolution, hphase⟩ := hclaimed
    have hfares := hknows.fares entrant
    rw [hphase] at hfares
    obtain ⟨htext, -, hstands⟩ := hfares
    simp only [Parallel.commits, Parallel.advance, hphase, Importer.advance, ImportJob.commit]
    cases hwrite : (parallel.job entrant).write state.world decoded resolution with
    | error error =>
        have hexcuses := hknows.excuses (ImportJob.refuses_write htext hstands hwrite)
        exact hknows.quiet (fun _ hdigest => by cases hdigest) rfl hexcuses
    | ok written => exact hknows.commit hphase hwrite
  · have hphase : ∀ decoded resolution, state.phase entrant ≠ .claimed decoded resolution :=
      fun decoded resolution h => hclaimed ⟨decoded, resolution, h⟩
    obtain ⟨hcatalog, hfares⟩ := hknows.fares_advance hphase
    rw [commits_eq_nil hphase]
    exact hknows.quiet hmay hcatalog hfares

/-- Every run keeps what is known. -/
theorem Run.knows {first last : State ι} {commits : List (Commit ι)}
    (hrun : parallel.Run World.LeftAlone first commits last)
    (hfirst : parallel.Knows start [] first) : parallel.Knows start commits last := by
  induction hrun with
  | start => exact hfirst
  | step before step ih =>
      cases step with
      | proceed entrant free => exact ih.proceed free
      | others acts =>
          rw [List.append_nil]
          exact ih.others acts

end Parallel

end AudioCatalog
