import AudioCatalog.Proofs.Session.Pools
import AudioCatalog.Proofs.Session.Queues

/-!
# Pools that empty the queue

A pool commits every ticket of importable files whose import reads the file before another one
of the batch removes it.  If files are kept, no import removes any, and none of the tickets stays
pending.  If they are removed, two tickets with the same path name are both committed if both
imports read the file before either removes it; an import that begins after the other one has
ended finds nothing, and its ticket stays pending.

`Parallel.Drains` is what a run of a pool keeps.
-/

namespace AudioCatalog

open Contest (State)

/-- Whether others have changed neither the catalog nor the files. -/
def World.Undisturbed (world next : World) : Prop :=
  next.catalog = world.catalog ∧ next.files = world.files

theorem World.Undisturbed.leftAlone {world next : World} (h : world.Undisturbed next) :
    world.LeftAlone next :=
  ⟨world.catalog.locked, h.1⟩

/-! ## One import -/

/-- Only the step after a commit removes a file or ends an import with a receipt. -/
theorem ImportJob.Advances.quiet_of_not_committed {job : ImportJob} {world next : World}
    {phase entered : Phase} (hadvances : job.Advances world phase next entered)
    (hcommitted : ∀ receipt, phase ≠ .committed receipt) :
    next.files = world.files ∧ ∀ receipt, entered = .finished (.ok (.committed receipt)) ↔
      phase = .finished (.ok (.committed receipt)) := by
  cases hadvances with
  | quiet uncommitted unreceipted catalog files =>
      refine ⟨files, fun receipt => iff_of_false ?_ ?_⟩
      · rintro rfl
        cases unreceipted
      · rintro rfl
        cases uncommitted
  | commit written => exact ⟨rfl, fun _ => iff_of_false (fun h => nomatch h) fun h => nomatch h⟩
  | clear receipt => exact absurd rfl (hcommitted receipt)
  | rest conclusion => exact ⟨rfl, fun _ => Iff.rfl⟩

namespace Importer

/-- Whether an import has ended because it did not find its file: when it looked at it, or when
the decoder could do nothing without it. -/
def Misses (importer : Importer) (path : Pathname) (conclusion : Conclusion) : Prop :=
  conclusion = .error ⟨path, .started, .io .notFound⟩ ∨
    ∃ cause, (importer.decoder path (.error .notFound)).within importer.timeout = .error cause ∧
      conclusion = .error ⟨path, .fingerprinted, .decode cause⟩

/-- Whether an import is on its way to a commit, or has missed its file after that was taken. -/
def Heads (importer : Importer) (path : Pathname) (taken : Prop) : Phase → Prop
  | .finished conclusion =>
    conclusion.receipt?.isSome ∨ taken ∧ importer.Misses path conclusion
  | .rolledBack _ => False
  | .starting | .admitted _ | .fingerprinted _ | .resolved .. | .claimed .. | .committed _ => True

theorem Heads.mono {importer : Importer} {path : Pathname} {taken later : Prop} {phase : Phase}
    (hheads : importer.Heads path taken phase) (h : taken → later) :
    importer.Heads path later phase := by
  cases phase with
  | finished conclusion => exact hheads.imp_right (And.imp_left h)
  | starting | admitted | fingerprinted | resolved | claimed | rolledBack | committed =>
      exact hheads

variable {importer : Importer} {handling : Handling} {start world : World} {ticket : Ticket}
  {paths : List Pathname}

/-- The import for a ticket of an importable file is on its way to its commit, whatever files
were removed, unless its own was among them. -/
theorem heads_advance (hproper : start.files.Proper) (hcan : importer.CanImport start ticket.path)
    (hcleared : start.files.Cleared paths world.files) (hsound : world.catalog.Sound)
    (hvisible : world.catalog.access ≠ .blind) {phase : Phase}
    (hwrites : ∀ decoded resolution, phase = .claimed decoded resolution →
      ∃ written, (ImportJob.replay ticket handling none).write world decoded resolution =
        .ok written)
    (hheads : importer.Heads ticket.path (∃ path ∈ paths, start.files.Takes path ticket.path)
      phase) :
    importer.Heads ticket.path (∃ path ∈ paths, start.files.Takes path ticket.path)
      (importer.advance (.replay ticket handling none) world phase).2 := by
  obtain ⟨known, hadmitted, hdecodes⟩ := hcan
  obtain ⟨htext, node, hopen, hleaf⟩ := World.exists_open_of_admit hadmitted
  obtain ⟨hgone, hthere⟩ := hcleared.open?_eq hproper hopen hleaf
  have hstays : (¬ ∃ path ∈ paths, start.files.Takes path ticket.path) →
      world.files.open? ticket.path = start.files.open? ticket.path := by
    intro hfree
    rw [hopen]
    exact hthere fun path hpath htakes => hfree ⟨path, hpath, htakes⟩
  have huncancelled : (ImportJob.replay ticket handling none).wasCancelled world = false := rfl
  cases phase with
  | starting =>
      simp only [advance, ImportJob.start, ImportJob.replay]
      by_cases htaken : ∃ path ∈ paths, start.files.Takes path ticket.path
      · rw [World.admit_of_notFound htext (hgone htaken)]
        exact .inr ⟨htaken, .inl rfl⟩
      · rw [World.admit_congr (hstays htaken), hadmitted]
        exact trivial
  | admitted facts =>
      simp only [advance, examine, ImportJob.replay]
      cases hdecode : importer.decode world ticket.path facts with
      | ok decoded => exact trivial
      | error cause =>
          have hwithin := map_eq_error_iff.mp hdecode
          by_cases htaken : ∃ path ∈ paths, start.files.Takes path ticket.path
          · rw [FileSystem.read, hgone htaken] at hwithin
            exact .inr ⟨htaken, .inr ⟨cause, hwithin, rfl⟩⟩
          · obtain ⟨recording, hrecording, -⟩ := map_eq_ok_iff.mp hdecodes
            rw [FileSystem.read_congr (hstays htaken), hrecording] at hwithin
            cases hwithin
  | fingerprinted decoded =>
      obtain ⟨ledger, hkeeps, -, -⟩ := hsound
      simp only [advance, ImportJob.compare, huncancelled, Bool.false_eq_true, if_false,
        hkeeps.identify_eq_resolutionIn, Catalog.demandVisible, if_neg hvisible]
      exact trivial
  | resolved decoded resolution => exact trivial
  | claimed decoded resolution =>
      obtain ⟨⟨id, effect, catalog⟩, hwritten⟩ := hwrites decoded resolution rfl
      simp only [advance, ImportJob.commit, hwritten]
      exact trivial
  | rolledBack error => exact hheads.elim
  | committed receipt =>
      simp only [advance, ImportJob.clear_eq]
      exact .inl rfl
  | finished conclusion => exact hheads

/-- After a commit the file is removed, unless it is to be kept or is gone already. -/
theorem exists_cleared (importer : Importer) (handling : Handling) (hproper : start.files.Proper)
    (hcan : importer.CanImport start ticket.path)
    (hcleared : start.files.Cleared paths world.files) (receipt : Receipt) :
    ∃ extra, start.files.Cleared (extra ++ paths)
        ((ImportJob.replay ticket handling none).cleared world receipt).1.files ∧
      (∀ path ∈ extra, handling.keepFile = false ∧ ticket.path = path) ∧
      (handling.keepFile = false →
        ∃ path ∈ extra ++ paths, start.files.Takes path ticket.path) := by
  obtain ⟨known, hadmitted, -⟩ := hcan
  obtain ⟨-, node, hopen, hleaf⟩ := World.exists_open_of_admit hadmitted
  by_cases hkeep : (ImportJob.replay ticket handling none).handling.keepFile = true
  · rw [ImportJob.cleared, if_pos hkeep]
    refine ⟨[], hcleared, fun _ hpath => absurd hpath List.not_mem_nil, fun hremoves => ?_⟩
    exact absurd (hkeep.symm.trans hremoves) (by decide)
  · obtain ⟨files, extra, hremoved, hnext, hextra, htakes⟩ :=
      hcleared.exists_removeImported hproper hopen hleaf
    have hremoved : world.files.removeImported (ImportJob.replay ticket handling none).path =
        .ok files := hremoved
    rw [ImportJob.cleared, if_neg hkeep, hremoved]
    exact ⟨extra, hnext,
      fun path hpath => ⟨Bool.eq_false_iff.mpr hkeep, (hextra path hpath).symm⟩, fun _ => htakes⟩

end Importer

/-! ## Runs of a pool -/

namespace Parallel

variable {ι κ : Type} {importer : Importer} {handling : Handling} {lock : Digest → κ}
  {ticket : ι → Ticket} {world : World} {commits more : List (Commit ι)} {paths : List Pathname}
  {state next : State ι}

/-- What a pool of importable files keeps, where some path names have been used to remove files:
the catalog is ready for all imports that have not committed, each import is on its way to its
commit or has missed its file, and the file of one that has ended is gone. -/
structure Drains [Fintype ι] (importer : Importer) (handling : Handling) (lock : Digest → κ)
    (ticket : ι → Ticket) (start : World) (commits : List (Commit ι)) (paths : List Pathname)
    (state : State ι) : Prop where
  knows : (importer.pool handling lock ticket).Knows start commits state
  tallies : (importer.pool handling lock ticket).Tallies commits state
  ready : state.world.catalog.ReadyFor (Fintype.card ι - commits.length)
  cleared : start.files.Cleared paths state.world.files
  cause : ∀ path ∈ paths, handling.keepFile = false ∧ ∃ i receipt,
    state.phase i = .finished (.ok (.committed receipt)) ∧ (ticket i).path = path
  gone : handling.keepFile = false → ∀ i receipt,
    state.phase i = .finished (.ok (.committed receipt)) →
      ∃ path ∈ paths, start.files.Takes path (ticket i).path
  heads : ∀ i, importer.Heads (ticket i).path
    (∃ path ∈ paths, start.files.Takes path (ticket i).path) (state.phase i)

variable [Fintype ι]

theorem Drains.start (hready : world.catalog.ReadyFor (Fintype.card ι)) :
    Drains importer handling lock ticket world [] [] ⟨world, fun _ => .starting⟩ where
  knows := .of_starting hready.sound
  tallies := .start _ _
  ready := hready
  cleared := .start
  cause _ hpath := nomatch hpath
  gone _ _ _ hphase := nomatch hphase
  heads _ := trivial

/-- A catalog that is ready for the imports without a commit stays so. -/
theorem Drains.ready_step (hdrains : Drains importer handling lock ticket world commits paths state)
    (entrant : ι) (hmore : (importer.pool handling lock ticket).commits state entrant = more)
    (htallies : (importer.pool handling lock ticket).Tallies (commits ++ more) next) :
    ((importer.pool handling lock ticket).advance state entrant).1.catalog.ReadyFor
      (Fintype.card ι - (commits ++ more).length) := by
  rcases commits_cases (importer.pool handling lock ticket) state entrant with hnone |
    ⟨decoded, resolution, id, effect, catalog, -, hwritten, hcommits, hadvance⟩
  · rw [← hmore, catalog_advance hnone, hnone, List.append_nil]
    exact hdrains.ready
  · have hroom := htallies.distinct.length_le_card
    rw [List.length_map] at hroom
    rw [hcommits] at hmore
    subst hmore
    rw [List.length_append, List.length_singleton] at hroom ⊢
    have hcount : Fintype.card ι - commits.length =
        Fintype.card ι - (commits.length + 1) + 1 := by
      omega
    have hready := hdrains.ready
    rw [hcount] at hready
    rw [hadvance]
    exact (hready.commit hwritten).1

/-- A claimed import can be committed. -/
theorem Drains.exists_write
    (hdrains : Drains importer handling lock ticket world commits paths state)
    (hrows : ∀ i, (world.catalog.tickets.row? (ticket i).id.value).isSome) {entrant : ι}
    {decoded : Decoded} {resolution : Resolution}
    (hphase : state.phase entrant = .claimed decoded resolution) :
    ∃ written, (ImportJob.replay (ticket entrant) handling none).write state.world decoded
      resolution = .ok written := by
  have hfares := hdrains.knows.fares entrant
  rw [hphase] at hfares
  obtain ⟨htext, -, hstands⟩ := hfares
  have hfree : entrant ∉ commits.map (·.entrant) := by
    rw [(hdrains.tallies.settles entrant).receipt, hphase]
    exact Bool.false_ne_true
  have hroom := (hdrains.tallies.distinct.cons hfree).length_le_card
  rw [List.length_cons, List.length_map] at hroom
  have hready := hdrains.ready
  have hidentities := hready.identities
  have hsources := hready.sources
  refine ImportJob.exists_write htext hstands ⟨hready.unlocked, hready.writable, ?_⟩ (by omega)
    (by omega)
  rintro id ⟨⟩
  rw [hdrains.knows.tickets]
  exact hrows entrant

variable [DecidableEq ι]

/-- A step that neither removes a file nor ends an import with a receipt. -/
theorem Drains.quiet (hdrains : Drains importer handling lock ticket world commits paths state)
    {entrant : ι} {after : World} {entered : Phase} (hfiles : after.files = state.world.files)
    (hends : ∀ receipt, entered = .finished (.ok (.committed receipt)) ↔
      state.phase entrant = .finished (.ok (.committed receipt)))
    (hknows : (importer.pool handling lock ticket).Knows world (commits ++ more)
      (state.enter entrant after entered))
    (htallies : (importer.pool handling lock ticket).Tallies (commits ++ more)
      (state.enter entrant after entered))
    (hready : after.catalog.ReadyFor (Fintype.card ι - (commits ++ more).length))
    (hheads : importer.Heads (ticket entrant).path
      (∃ path ∈ paths, world.files.Takes path (ticket entrant).path) entered) :
    Drains importer handling lock ticket world (commits ++ more) paths
      (state.enter entrant after entered) := by
  have hsame : ∀ i receipt,
      (state.enter entrant after entered).phase i = .finished (.ok (.committed receipt)) ↔
        state.phase i = .finished (.ok (.committed receipt)) := by
    intro i receipt
    by_cases hi : i = entrant
    · subst hi
      rw [State.phase_enter_self]
      exact hends receipt
    · rw [State.phase_enter_of_ne state hi]
  refine ⟨hknows, htallies, hready, ?_, ?_, ?_, ?_⟩
  · exact hfiles ▸ hdrains.cleared
  · simp only [hsame]
    exact hdrains.cause
  · simp only [hsame]
    exact hdrains.gone
  · exact (Function.forall_update_iff _ fun i phase => importer.Heads (ticket i).path
      (∃ path ∈ paths, world.files.Takes path (ticket i).path) phase).mpr
        ⟨hheads, fun i _ => hdrains.heads i⟩

/-- A step that ends an import with a receipt, after which its file is gone unless it is kept. -/
theorem Drains.clear (hproper : world.files.Proper)
    (hdrains : Drains importer handling lock ticket world commits paths state) {entrant : ι}
    (hcan : importer.CanImport world (ticket entrant).path) {receipt : Receipt}
    (hphase : state.phase entrant = .committed receipt) {next : State ι}
    (hnext : next = state.enter entrant
      ((ImportJob.replay (ticket entrant) handling none).cleared state.world receipt).1
      (.finished (.ok (.committed
        ((ImportJob.replay (ticket entrant) handling none).cleared state.world receipt).2))))
    (hknows : (importer.pool handling lock ticket).Knows world (commits ++ more) next)
    (htallies : (importer.pool handling lock ticket).Tallies (commits ++ more) next)
    (hready : next.world.catalog.ReadyFor (Fintype.card ι - (commits ++ more).length)) :
    ∃ extra,
      Drains importer handling lock ticket world (commits ++ more) (extra ++ paths) next := by
  subst hnext
  obtain ⟨extra, hcleared, hextra, hgone⟩ :=
    importer.exists_cleared handling hproper hcan hdrains.cleared receipt
  have hothers : ∀ {i other}, state.phase i = .finished other → i ≠ entrant := by
    rintro i other hother rfl
    rw [hphase] at hother
    cases hother
  refine ⟨extra, hknows, htallies, hready, hcleared, fun path hpath => ?_,
    fun hkeep i shown hshown => ?_, fun i => ?_⟩
  · rcases List.mem_append.mp hpath with hpath | hpath
    · obtain ⟨hkeep, rfl⟩ := hextra path hpath
      exact ⟨hkeep, entrant, _, State.phase_enter_self .., rfl⟩
    · obtain ⟨hkeep, i, shown, hshown, rfl⟩ := hdrains.cause path hpath
      refine ⟨hkeep, i, shown, ?_, rfl⟩
      rw [State.phase_enter_of_ne state (hothers hshown), hshown]
  · by_cases hi : i = entrant
    · rw [hi]
      exact hgone hkeep
    · rw [State.phase_enter_of_ne state hi] at hshown
      obtain ⟨path, hpath, htakes⟩ := hdrains.gone hkeep i shown hshown
      exact ⟨path, List.mem_append_right _ hpath, htakes⟩
  · by_cases hi : i = entrant
    · rw [hi, State.phase_enter_self]
      exact .inl rfl
    · rw [State.phase_enter_of_ne state hi]
      refine (hdrains.heads i).mono ?_
      rintro ⟨path, hpath, htakes⟩
      exact ⟨path, List.mem_append_right _ hpath, htakes⟩

/-- A step of a pool of importable files. -/
theorem Drains.step (hproper : world.files.Proper)
    (hcan : ∀ i, importer.CanImport world (ticket i).path)
    (hrows : ∀ i, (world.catalog.tickets.row? (ticket i).id.value).isSome)
    (hdrains : Drains importer handling lock ticket world commits paths state)
    (hstep : (importer.pool handling lock ticket).Step World.Undisturbed state more next) :
    ∃ extra,
      Drains importer handling lock ticket world (commits ++ more) (extra ++ paths) next := by
  have htallies := hdrains.tallies.step hstep
  cases hstep with
  | others acts =>
      obtain ⟨hcatalog, hfiles⟩ := acts
      refine ⟨[], ?_, htallies, ?_, hfiles ▸ hdrains.cleared, hdrains.cause, hdrains.gone,
        hdrains.heads⟩
      · rw [List.append_nil]
        exact hdrains.knows.others (World.Undisturbed.leftAlone ⟨hcatalog, hfiles⟩)
      · rw [List.append_nil, hcatalog]
        exact hdrains.ready
  | proceed entrant free =>
      have hknows := hdrains.knows.proceed free
      have hready := hdrains.ready_step entrant rfl htallies
      have hheads := Importer.heads_advance hproper (hcan entrant) hdrains.cleared
        hdrains.knows.sound hdrains.ready.visible (fun _ _ => hdrains.exists_write hrows)
        (hdrains.heads entrant)
      have hadvances : (ImportJob.replay (ticket entrant) handling none).Advances state.world
          (state.phase entrant) ((importer.pool handling lock ticket).advance state entrant).1
          ((importer.pool handling lock ticket).advance state entrant).2 :=
        importer.advances rfl
      by_cases hcommitted : ∃ receipt, state.phase entrant = .committed receipt
      · obtain ⟨receipt, hphase⟩ := hcommitted
        have hadvance := (ImportJob.replay (ticket entrant) handling none).clear_eq state.world
          receipt
        have hsame : (importer.pool handling lock ticket).advance state entrant =
            (ImportJob.replay (ticket entrant) handling none).clear state.world receipt := by
          rw [advance, hphase]
          rfl
        refine hdrains.clear hproper (hcan entrant) hphase ?_ hknows htallies hready
        rw [hsame, hadvance]
      · obtain ⟨hfiles, hends⟩ := hadvances.quiet_of_not_committed
          fun receipt hphase => hcommitted ⟨receipt, hphase⟩
        exact ⟨[], hdrains.quiet hfiles hends hknows htallies hready hheads⟩

section Runs

variable (hproper : world.files.Proper) (hcan : ∀ i, importer.CanImport world (ticket i).path)
  (hrows : ∀ i, (world.catalog.tickets.row? (ticket i).id.value).isSome)

include hproper hcan hrows

theorem Run.drains (hready : world.catalog.ReadyFor (Fintype.card ι))
    (hrun : (importer.pool handling lock ticket).Run World.Undisturbed
      ⟨world, fun _ => .starting⟩ commits state) :
    ∃ paths, Drains importer handling lock ticket world commits paths state := by
  generalize hfirst : (⟨world, fun _ => .starting⟩ : State ι) = first at hrun
  induction hrun with
  | start =>
      subst hfirst
      exact ⟨[], .start hready⟩
  | step before last ih =>
      obtain ⟨paths, hdrains⟩ := ih
      obtain ⟨extra, hnext⟩ := hdrains.step hproper hcan hrows last
      exact ⟨extra ++ paths, hnext⟩

/-- An import that has not begun when its file was removed finds nothing. -/
theorem Run.missed (hdrains : Drains importer handling lock ticket world commits paths state)
    {i : ι} (hphase : state.phase i = .starting)
    (htaken : ∃ path ∈ paths, world.files.Takes path (ticket i).path) {last : State ι}
    (hrun : (importer.pool handling lock ticket).Run World.Undisturbed state more last) :
    last.phase i = .starting ∨
      last.phase i = .finished (.error ⟨(ticket i).path, .started, .io .notFound⟩) := by
  obtain ⟨known, hadmitted, -⟩ := hcan i
  obtain ⟨htext, node, hopen, hleaf⟩ := World.exists_open_of_admit hadmitted
  have hkept : ∃ paths, Drains importer handling lock ticket world (commits ++ more) paths last ∧
      (∃ path ∈ paths, world.files.Takes path (ticket i).path) ∧
      (last.phase i = .starting ∨
        last.phase i = .finished (.error ⟨(ticket i).path, .started, .io .notFound⟩)) := by
    induction hrun with
    | start => exact ⟨paths, (List.append_nil commits).symm ▸ hdrains, htaken, .inl hphase⟩
    | step before last ih =>
        obtain ⟨earlier, hearlier, ⟨path, hpath, htakes⟩, hends⟩ := ih
        obtain ⟨extra, hnext⟩ := hearlier.step hproper hcan hrows last
        rw [List.append_assoc] at hnext
        refine ⟨extra ++ earlier, hnext, ⟨path, List.mem_append_right _ hpath, htakes⟩, ?_⟩
        cases last with
        | others acts => exact hends
        | proceed entrant free =>
            by_cases hi : i = entrant
            · subst hi
              rw [State.phase_enter_self, advance]
              rcases hends with hstarting | hmissed
              · have hnothing := (hearlier.cleared.open?_eq hproper hopen hleaf).1
                  ⟨path, hpath, htakes⟩
                rw [hstarting]
                simp only [Importer.advance, ImportJob.start, Importer.pool, ImportJob.replay,
                  World.admit_of_notFound htext hnothing]
                exact .inr rfl
              · rw [hmissed]
                exact .inr rfl
            · rw [State.phase_enter_of_ne _ hi]
              exact hends
  obtain ⟨-, -, -, hends⟩ := hkept
  exact hends

end Runs

end Parallel

/-! ## Whole batches -/

namespace Parallel.Drains

variable {ι κ : Type} [Fintype ι] {importer : Importer} {handling : Handling} {lock : Digest → κ}
  {ticket : ι → Ticket} {world next : World} {commits : List (Commit ι)} {paths : List Pathname}
  {conclusion : ι → Conclusion}
  (hdrains : Drains importer handling lock ticket world commits paths
    ⟨next, fun i => .finished (conclusion i)⟩)

include hdrains

/-- When a pool of importable files is done, a ticket without a commit has missed its file, which
another one has taken. -/
theorem committed_or_missed (i : ι) :
    (conclusion i).receipt?.isSome ∨ handling.keepFile = false ∧
      (∃ j, j ≠ i ∧ (conclusion j).receipt?.isSome ∧
        world.files.Takes (ticket j).path (ticket i).path) ∧
      importer.Misses (ticket i).path (conclusion i) := by
  rcases hdrains.heads i with hcommitted | ⟨⟨path, hpath, htakes⟩, hmisses⟩
  · exact .inl hcommitted
  · obtain ⟨hkeep, j, receipt, hphase, rfl⟩ := hdrains.cause path hpath
    have hconclusion : conclusion j = .ok (.committed receipt) := Phase.finished.inj hphase
    refine .inr ⟨hkeep, ⟨j, ?_, hconclusion ▸ rfl, htakes⟩, hmisses⟩
    rintro rfl
    rw [hconclusion] at hmisses
    rcases hmisses with hmissed | ⟨_, -, hmissed⟩
    · cases hmissed
    · cases hmissed

/-- If files are kept, or if no ticket takes away the file of another, all tickets are
committed. -/
theorem committed_of_apart (hapart : handling.keepFile = true ∨
      ∀ i j, i ≠ j → ¬ world.files.Takes (ticket i).path (ticket j).path) (i : ι) :
    (conclusion i).receipt?.isSome := by
  rcases hdrains.committed_or_missed i with hcommitted | ⟨hkeep, ⟨j, hother, -, htakes⟩, -⟩
  · exact hcommitted
  · rcases hapart with hkept | hapart
    · rw [hkept] at hkeep
      cases hkeep
    · exact absurd htakes (hapart j i hother)

end Parallel.Drains

/-- A batch whose tickets are all committed leaves none of them over. -/
theorem Batch.uncommitted_ofPool_eq_nil {n : Nat} {ticket : Fin n → Ticket}
    {conclusion : Fin n → Conclusion} (hcommitted : ∀ i, (conclusion i).receipt?.isSome) :
    (ofPool ticket conclusion).entries.filter (fun entry => !entry.isCommitted) = [] := by
  apply List.filter_eq_nil_iff.mpr
  intro entry hentry
  obtain ⟨i, rfl⟩ := List.mem_ofFn.mp hentry
  simp [BatchEntry.isCommitted, hcommitted i]

/-- In whatever way a session has come to its catalog, and in whatever order the workers of a pool
take their steps, a batch over importable files commits every ticket, except for those whose file
another committed one has removed before their import has read it.  These fail for want of a file
and stay pending, as any ticket does whose import begins after one with the same path name has
ended.  There are none if files are kept, or if no ticket takes away the file of another.

With one worker a ticket fails exactly if its file was removed by an earlier one. -/
theorem Session.replay_of_importable {κ : Type} {first : Session} {storage : Storage}
    {world : World} {answers : List Answer} (hfresh : first.Fresh)
    (hrun : Run first answers (opened storage world)) (hproper : world.files.Proper)
    (haccess : world.catalog.access = .full) (hunlocked : world.catalog.locked = false)
    (hidentities : world.catalog.identities.greatestId + world.catalog.countPending ≤
      Table.idLimit)
    (hsources : world.catalog.sources.greatestId + world.catalog.countPending ≤ Table.idLimit)
    (importer : Importer) (handling : Handling) (lock : Digest → κ)
    (hcan : ∀ tickets, world.catalog.pending = .ok tickets →
      ∀ ticket ∈ tickets, importer.CanImport world ticket.path) :
    ∃ tickets,
      world.catalog.pending = .ok tickets ∧
      (∀ ticket ∈ tickets, world.files.Takes ticket.path ticket.path) ∧
      (∀ commits state,
        (importer.pool handling lock tickets.get).Run World.Undisturbed
          ⟨world, fun _ => .starting⟩ commits state →
        (∃ more next conclusion, (importer.pool handling lock tickets.get).Completes
          World.Undisturbed world (commits ++ more) next conclusion) ∧
        (handling.keepFile = false → ∀ i j receipt, state.phase i = .starting →
          state.phase j = .finished (.ok (.committed receipt)) →
          (tickets.get j).path = (tickets.get i).path →
          ∀ more next (conclusion : Fin tickets.length → Conclusion),
          (importer.pool handling lock tickets.get).Run World.Undisturbed state more
            ⟨next, fun i => .finished (conclusion i)⟩ →
          conclusion i = .error ⟨(tickets.get i).path, .started, .io .notFound⟩)) ∧
      (∀ commits next conclusion,
        (importer.pool handling lock tickets.get).Completes World.Undisturbed world commits next
          conclusion →
        (∀ i, (conclusion i).receipt?.isSome ∨ handling.keepFile = false ∧
          (∃ j, j ≠ i ∧ (conclusion j).receipt?.isSome ∧
            world.files.Takes (tickets.get j).path (tickets.get i).path) ∧
          importer.Misses (tickets.get i).path (conclusion i)) ∧
        next.catalog.pending = .ok (((Batch.ofPool tickets.get conclusion).entries.filter
          fun entry => !entry.isCommitted).map (·.ticket)) ∧
        (handling.keepFile = true ∨
            (∀ i j, i ≠ j → ¬ world.files.Takes (tickets.get i).path (tickets.get j).path) →
          (∀ i, (conclusion i).receipt?.isSome) ∧ next.catalog.pending = .ok [])) ∧
      ∃ next batch,
        importer.replayPending handling world = .ok (next, batch) ∧
        (∃ commits conclusion, (importer.pool handling lock tickets.get).Completes
            World.Undisturbed world commits next conclusion ∧
          Batch.ofPool tickets.get conclusion = batch) ∧
        (∀ before entry after, batch.entries = before ++ entry :: after →
          entry.EndsBy world.files (removedPaths handling before)) ∧
        (tickets.Pairwise (fun earlier later => ¬ world.files.Takes earlier.path later.path) →
          ∀ entry ∈ batch.entries, entry.isCommitted = true) := by
  have hlistable : world.catalog.Listable := listable_of_run hfresh hrun (.refl _)
  obtain ⟨tickets, hread, hpending⟩ := hlistable.exists_pending
  have hcount : tickets.length = world.catalog.countPending := length_of_readTickets hread
  have hready : world.catalog.ReadyFor tickets.length := by
    refine ⟨hlistable.1, ?_, ?_, hunlocked, hcount ▸ hidentities, hcount ▸ hsources⟩
    · rw [haccess]
      decide
    · rw [haccess]
      decide
  have hall : world.catalog.ReadyFor (Fintype.card (Fin tickets.length)) := by
    rw [Fintype.card_fin]
    exact hready
  have hcan := hcan tickets hpending
  have hcanAt : ∀ i, importer.CanImport world (tickets.get i).path :=
    fun i => hcan _ (tickets.get_mem i)
  have hrows : ∀ ticket ∈ tickets, (world.catalog.tickets.row? ticket.id.value).isSome :=
    fun ticket hticket => Catalog.isSome_row?_of_pending hread hticket
  have hrowsAt : ∀ i, (world.catalog.tickets.row? (tickets.get i).id.value).isSome :=
    fun i => hrows _ (tickets.get_mem i)
  refine ⟨tickets, hpending, fun ticket hticket => ?_, fun commits state hpool => ⟨?_, ?_⟩,
    fun commits next conclusion hpool => ?_, ?_⟩
  · obtain ⟨decoded, hadmitted, -⟩ := hcan ticket hticket
    obtain ⟨-, node, hopen, hleaf⟩ := World.exists_open_of_admit hadmitted
    exact FileSystem.takes_self hproper hopen hleaf
  · exact hpool.exists_finished fun _ _ hheld => nomatch hheld
  · intro hkeep i j receipt hstarting hended hpath more next conclusion hlater
    obtain ⟨paths, hdrains⟩ := hpool.drains hproper hcanAt hrowsAt hall
    have htaken := hdrains.gone hkeep j receipt hended
    rw [hpath] at htaken
    rcases hlater.missed hproper hcanAt hrowsAt hdrains hstarting htaken with hphase | hphase
    · cases hphase
    · exact Phase.finished.inj hphase
  · obtain ⟨paths, hdrains⟩ := Parallel.Run.drains hproper hcanAt hrowsAt hall hpool
    have hstay := Parallel.Completes.pending_pool
      (Parallel.Run.mono hpool fun _ _ => World.Undisturbed.leftAlone) hlistable hread
        (injective_id_of_readTickets hread)
    refine ⟨hdrains.committed_or_missed, hstay, fun hapart => ?_⟩
    have hcommitted := hdrains.committed_of_apart hapart
    refine ⟨hcommitted, ?_⟩
    rw [hstay, Batch.uncommitted_ofPool_eq_nil hcommitted, List.map_nil]
  · obtain ⟨commits, conclusion, hpool, hentries⟩ :=
      importer.exists_completes_replayAlone handling lock World.Undisturbed tickets world
    have hends : ∀ before entry after,
        (importer.replayAlone handling tickets world).2 = before ++ entry :: after →
          entry.EndsBy world.files (removedPaths handling before) := by
      intro before entry after hsplit
      have hends := importer.endsBy_replayAlone handling hproper hcan .start hready hrows hsplit
      rwa [List.append_nil] at hends
    refine ⟨_, ⟨(importer.replayAlone handling tickets world).2⟩, ?_,
      ⟨commits, conclusion, hpool, congrArg Batch.mk hentries⟩, hends, fun hapart => ?_⟩
    · rw [importer.replayPending_eq, hpending]
      rfl
    · rw [← importer.map_ticket_replayAlone handling tickets world] at hapart
      exact isCommitted_of_endsBy hends hapart

/-! ## Two tickets for one file -/

/-- Another ticket for the file `a`. -/
def Ticket.ofOneFileAgain : Ticket :=
  { ofOneFile with id := ⟨2⟩ }

/-- The world with the file `a` after both tickets were added. -/
def World.withSameTickets : World :=
  ((World.withOneFile.call (.addTicket ⟨[47, 97]⟩)).1.call (.addTicket ⟨[47, 97]⟩)).1

theorem World.readTickets_withSameTickets :
    readTickets World.withSameTickets.catalog.pendingRows = .ok [.ofOneFile, .ofOneFileAgain] := by
  have hrows : World.withSameTickets.catalog.pendingRows =
      [(1, .ofPath "/a" 0), (2, .ofPath "/a" 0)] := by
    decide +kernel
  rw [hrows]
  rfl

theorem World.pending_withSameTickets :
    World.withSameTickets.catalog.pending = .ok [.ofOneFile, .ofOneFileAgain] := by
  have hpositive : ∀ entry ∈ World.withSameTickets.catalog.tickets.rows, 0 < entry.1 := by
    decide +kernel
  rw [Catalog.pending_eq hpositive, readTickets_withSameTickets]
  rfl

theorem World.canImport_withSameTickets :
    ∀ ticket ∈ [Ticket.ofOneFile, .ofOneFileAgain],
      Importer.clicking.CanImport .withSameTickets ticket.path := by
  have hcan : Importer.clicking.CanImport .withSameTickets ⟨[47, 97]⟩ :=
    ⟨⟨⟨1, 0⟩, .empty, Importer.click.stream.digest, none⟩, World.admit_withOneFile, rfl⟩
  simpa using ⟨hcan, hcan⟩

theorem Session.run_withSameTickets : ∃ answers, (opened .exclusive .withOneFile).Fresh ∧
    Run (opened .exclusive .withOneFile) answers (opened .exclusive .withSameTickets) :=
  ⟨_, .refl _, .step (.step (.start _) (.call _)) (.call _)⟩

/-- If the file is kept, both tickets are committed. -/
theorem Session.both_tickets_committed : ∃ commits next conclusion,
    (Importer.clicking.pool ⟨true, true⟩ (LockStripes.ofCount 4).stripeOf
      [Ticket.ofOneFile, .ofOneFileAgain].get).Completes World.Undisturbed .withSameTickets commits
        next conclusion ∧
      (∀ i, (conclusion i).receipt?.isSome) ∧ next.catalog.pending = .ok [] := by
  obtain ⟨answers, hfresh, hrun⟩ := run_withSameTickets
  obtain ⟨tickets, hpending, -, hruns, hall, -⟩ :=
    replay_of_importable hfresh hrun World.proper_withOneFile rfl rfl (by decide +kernel)
      (by decide +kernel) Importer.clicking ⟨true, true⟩ (LockStripes.ofCount 4).stripeOf
        fun tickets hpending => by
          rw [World.pending_withSameTickets] at hpending
          cases hpending
          exact World.canImport_withSameTickets
  rw [World.pending_withSameTickets] at hpending
  cases hpending
  obtain ⟨⟨commits, next, conclusion, hpool⟩, -⟩ := hruns [] _ (.start _)
  obtain ⟨-, -, hkept⟩ := hall _ _ _ hpool
  exact ⟨_, next, conclusion, hpool, hkept (.inl rfl)⟩

/-- If the file is removed with the first ticket, the second one is not committed. -/
theorem Importer.replayAlone_withSameTickets : ∃ next first second,
    clicking.replayAlone ⟨false, true⟩ [.ofOneFile, .ofOneFileAgain] .withSameTickets =
        (next, [first, second]) ∧
      first.ticket = .ofOneFile ∧ second.ticket = .ofOneFileAgain ∧ first.isCommitted = true ∧
      second.isCommitted = false := by
  obtain ⟨answers, hfresh, hrun⟩ := Session.run_withSameTickets
  have hready : World.withSameTickets.catalog.ReadyFor 2 :=
    ⟨Session.sound_of_run hfresh hrun (.refl _), by decide +kernel, by decide +kernel, rfl,
      by decide +kernel, by decide +kernel⟩
  have hproper : World.withSameTickets.files.Proper := World.proper_withOneFile
  have hends : ∀ {before entry after}, (clicking.replayAlone ⟨false, true⟩
      [.ofOneFile, .ofOneFileAgain] .withSameTickets).2 = before ++ entry :: after →
        entry.EndsBy World.withSameTickets.files (removedPaths ⟨false, true⟩ before ++ []) :=
    clicking.endsBy_replayAlone _ hproper World.canImport_withSameTickets .start hready
      (by decide +kernel)
  have htickets := clicking.map_ticket_replayAlone ⟨false, true⟩ [.ofOneFile, .ofOneFileAgain]
    .withSameTickets
  obtain ⟨first, rest, hentries, hfirst, htickets⟩ := List.map_eq_cons_iff.mp htickets
  obtain ⟨second, rest, rfl, hsecond, htickets⟩ := List.map_eq_cons_iff.mp htickets
  obtain rfl := List.map_eq_nil_iff.mp htickets
  have hcommitted : first.isCommitted = true :=
    (hends (hentries.trans (List.nil_append _).symm)).2 fun path hpath => nomatch hpath
  have htaken : World.withSameTickets.files.Takes ⟨[47, 97]⟩ ⟨[47, 97]⟩ := by
    obtain ⟨-, node, hopen, hleaf⟩ := World.exists_open_of_admit World.admit_withOneFile
    exact FileSystem.takes_self hproper hopen hleaf
  have hremoved : (⟨[47, 97]⟩ : Pathname) ∈ removedPaths ⟨false, true⟩ [first] ++ [] := by
    rw [removedPaths, if_neg (by decide), List.filter_cons_of_pos hcommitted, List.map_cons, hfirst]
    exact List.mem_cons_self
  have hfailed := (hends (hentries.trans (List.singleton_append ..).symm)).1
    ⟨⟨[47, 97]⟩, hremoved, hsecond ▸ htaken⟩
  refine ⟨_, first, second, Prod.ext rfl hentries, hfirst, hsecond, hcommitted, ?_⟩
  rw [BatchEntry.isCommitted, hfailed]
  rfl

/-- The second ticket stays pending, although its file was there when the batch began. -/
theorem Session.second_ticket_stays_pending : ∃ answers commits next conclusion,
    (opened .exclusive .withOneFile).Fresh ∧
      Run (opened .exclusive .withOneFile) answers (opened .exclusive .withSameTickets) ∧
      World.withSameTickets.catalog.pending = .ok [.ofOneFile, .ofOneFileAgain] ∧
      (∀ ticket ∈ [Ticket.ofOneFile, .ofOneFileAgain],
        Importer.clicking.CanImport .withSameTickets ticket.path) ∧
      (Importer.clicking.pool ⟨false, true⟩ (LockStripes.ofCount 4).stripeOf
        [Ticket.ofOneFile, .ofOneFileAgain].get).Completes World.Undisturbed .withSameTickets
          commits next conclusion ∧
      Importer.clicking.replayPending ⟨false, true⟩ .withSameTickets =
        .ok (next, .ofPool [Ticket.ofOneFile, .ofOneFileAgain].get conclusion) ∧
      next.catalog.pending = .ok [.ofOneFileAgain] := by
  obtain ⟨answers, hfresh, hrun⟩ := run_withSameTickets
  obtain ⟨next, first, second, hreplay, -, hsecond, hcommitted, hfailed⟩ :=
    Importer.replayAlone_withSameTickets
  obtain ⟨commits, conclusion, hpool, hentries⟩ :=
    Importer.clicking.exists_completes_replayAlone ⟨false, true⟩ (LockStripes.ofCount 4).stripeOf
      World.Undisturbed [.ofOneFile, .ofOneFileAgain] .withSameTickets
  have hstay := Parallel.Completes.pending_pool
    (Parallel.Run.mono hpool fun _ _ => World.Undisturbed.leftAlone)
      (listable_of_run hfresh hrun (.refl _)) World.readTickets_withSameTickets
        (injective_id_of_readTickets World.readTickets_withSameTickets)
  rw [hreplay] at hpool hentries hstay
  refine ⟨answers, commits, next, conclusion, hfresh, hrun, World.pending_withSameTickets,
    World.canImport_withSameTickets, hpool, ?_, ?_⟩
  · rw [Importer.replayPending_eq, World.pending_withSameTickets, Except.map, hreplay]
    exact congrArg (fun entries => Except.ok (next, Batch.mk entries)) hentries.symm
  · rw [hentries] at hstay
    simpa [hcommitted, hfailed, hsecond] using hstay

end AudioCatalog
