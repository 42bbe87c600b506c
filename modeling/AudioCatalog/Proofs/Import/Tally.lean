import AudioCatalog.Proofs.Import.Turns

/-!
# Who has committed

Of imports that run side by side, those end as committed of which there is a commit in the run,
whatever others do meanwhile, and there is one commit of each.  What an import tells when it has
ended is about its own file.  Imports that are done one after the other are such a run too, so
all this holds of them.
-/

namespace AudioCatalog

open Contest (State)

/-! ## The file that an import tells of -/

/-- The path name of the file that an import was of, as its conclusion tells it. -/
def Conclusion.path : Conclusion → Pathname
  | .ok (.committed receipt) => receipt.path
  | .ok (.rejected path _) => path
  | .error fault => fault.path

/-- Whether an import in a phase has nothing to tell, or tells of the file with a path name. -/
def Phase.Concerns (path : Pathname) : Phase → Prop
  | .committed receipt => receipt.path = path
  | .finished conclusion => conclusion.path = path
  | .starting | .admitted _ | .fingerprinted _ | .resolved .. | .claimed .. | .rolledBack _ => True

theorem ImportJob.path_cleared (job : ImportJob) (world : World) (receipt : Receipt) :
    (job.cleared world receipt).2.path = receipt.path := by
  rw [cleared]
  split
  · rfl
  · split <;> rfl

/-- A step of an import tells of nothing but the file of the import. -/
theorem Importer.concerns_advance (importer : Importer) {job : ImportJob} {world : World}
    {phase : Phase} (hphase : phase.Concerns job.path) :
    (importer.advance job world phase).2.Concerns job.path := by
  cases phase with
  | starting =>
      simp only [advance, ImportJob.start]
      split
      · rfl
      · rfl
      · exact trivial
  | admitted facts =>
      simp only [advance, examine]
      split
      · rfl
      · split
        · rfl
        · exact trivial
  | fingerprinted decoded =>
      simp only [advance, ImportJob.compare]
      split
      · rfl
      · split
        · rfl
        · exact trivial
  | resolved decoded resolution =>
      simp only [advance, ImportJob.claim_eq]
      split
      · exact trivial
      · rfl
  | claimed decoded resolution =>
      simp only [advance, ImportJob.commit]
      split
      · exact trivial
      · rfl
  | rolledBack error => rfl
  | committed receipt =>
      simp only [advance, ImportJob.clear_eq]
      exact (job.path_cleared world receipt).trans hphase
  | finished conclusion => exact hphase

/-! ## Commits and receipts -/

namespace Parallel

variable {ι κ : Type} {parallel : Parallel ι κ} {others : World → World → Prop}
  {commits more : List (Commit ι)} {first state : State ι} {entrant : ι}

/-- What the commits of a run tell of an import in a phase: it has a receipt if there is a commit
of it, which the receipt shows. -/
structure Settles (parallel : Parallel ι κ) (commits : List (Commit ι)) (entrant : ι)
    (phase : Phase) : Prop where
  receipt : entrant ∈ commits.map (·.entrant) ↔ phase.receipt?.isSome
  shows : ∀ receipt ∈ phase.receipt?,
    ∃ commit ∈ commits, commit.entrant = entrant ∧ commit.Shows receipt
  concerns : phase.Concerns (parallel.job entrant).path

/-- The commits of a run, none of which is of the same import as another, told against the phases
of the imports. -/
structure Tallies (parallel : Parallel ι κ) (commits : List (Commit ι)) (state : State ι) :
    Prop where
  distinct : (commits.map (·.entrant)).Nodup
  settles : ∀ entrant, parallel.Settles commits entrant (state.phase entrant)

theorem Tallies.start (parallel : Parallel ι κ) (world : World) :
    parallel.Tallies [] ⟨world, fun _ => .starting⟩ where
  distinct := .nil
  settles _ := ⟨iff_of_false List.not_mem_nil Bool.false_ne_true, (fun _ h => nomatch h), trivial⟩

/-- A commit of another import tells nothing of this one. -/
theorem Settles.append {phase : Phase} (hsettles : parallel.Settles commits entrant phase)
    (hmore : entrant ∉ more.map (·.entrant)) :
    parallel.Settles (commits ++ more) entrant phase where
  receipt := by rw [List.map_append, List.mem_append, or_iff_left hmore, hsettles.receipt]
  shows receipt hreceipt :=
    let ⟨commit, hmem, hcommit⟩ := hsettles.shows receipt hreceipt
    ⟨commit, List.mem_append_left _ hmem, hcommit⟩
  concerns := hsettles.concerns

/-- A step without a commit neither gives an import a receipt nor takes one from it. -/
theorem Settles.quiet (hsettles : parallel.Settles commits entrant (state.phase entrant))
    (hnone : parallel.commits state entrant = []) :
    parallel.Settles commits entrant (parallel.advance state entrant).2 := by
  have hconcerns : (parallel.advance state entrant).2.Concerns (parallel.job entrant).path :=
    (parallel.importer entrant).concerns_advance hsettles.concerns
  have hadvances : (parallel.job entrant).Advances state.world (state.phase entrant)
      (parallel.advance state entrant).1 (parallel.advance state entrant).2 :=
    (parallel.importer entrant).advances rfl
  generalize hphase : state.phase entrant = phase at hadvances hsettles
  generalize (parallel.advance state entrant).1 = next at hadvances
  generalize hentered : (parallel.advance state entrant).2 = entered at hadvances hconcerns ⊢
  cases hadvances with
  | quiet uncommitted unreceipted =>
      refine ⟨?_, fun receipt hreceipt => ?_, hconcerns⟩
      · rw [hsettles.receipt, uncommitted, unreceipted]
      · rw [unreceipted] at hreceipt
        cases hreceipt
  | commit written =>
      simp only [Parallel.commits, hphase, hentered] at hnone
      cases hnone
  | clear receipt =>
      obtain ⟨commit, hmem, hown, hshown⟩ := hsettles.shows receipt rfl
      refine ⟨hsettles.receipt, fun cleared hcleared => ?_, hconcerns⟩
      cases hcleared
      exact ⟨commit, hmem, hown, hshown.cleared _ _⟩
  | rest conclusion => exact hsettles

variable [DecidableEq ι]

theorem Tallies.step {next : State ι} (htallies : parallel.Tallies commits state)
    (hstep : parallel.Step others state more next) : parallel.Tallies (commits ++ more) next := by
  cases hstep with
  | proceed entrant free =>
      rcases commits_cases parallel state entrant with hnone |
        ⟨decoded, resolution, id, effect, catalog, hphase, -, hcommits, hadvance⟩
      · rw [hnone, List.append_nil]
        exact ⟨htallies.distinct, (Function.forall_update_iff _ _).mpr
          ⟨(htallies.settles entrant).quiet hnone, fun other _ => htallies.settles other⟩⟩
      · have hfree : entrant ∉ commits.map (·.entrant) := by
          rw [(htallies.settles entrant).receipt, hphase]
          exact Bool.false_ne_true
        rw [hcommits, hadvance]
        refine ⟨?_, (Function.forall_update_iff _ _).mpr ⟨⟨?_, ?_, rfl⟩, fun other hother => ?_⟩⟩
        · rw [List.map_append, List.map_singleton]
          exact htallies.distinct.append (List.nodup_singleton _)
            (List.disjoint_singleton.mpr hfree)
        · rw [List.map_append, List.mem_append, List.map_singleton, List.mem_singleton]
          exact iff_of_true (.inr rfl) rfl
        · rintro receipt ⟨rfl⟩
          exact ⟨_, List.mem_append_right _ (List.mem_singleton.mpr rfl), rfl,
            Commit.shows_receipt _⟩
        · exact (htallies.settles other).append (by simpa using hother)
  | others acts =>
      rw [List.append_nil]
      exact ⟨htallies.distinct, htallies.settles⟩

/-- In every run, the imports with a commit are those with a receipt. -/
theorem Run.tallies (hrun : parallel.Run others first commits state)
    (hfirst : parallel.Tallies [] first) : parallel.Tallies commits state := by
  induction hrun with
  | start => exact hfirst
  | step before last ih => exact ih.step last

/-! ## Imports that are done one after the other -/

/-- An import may be done alone while no other holds a lock. -/
theorem Run.alone (hrun : parallel.Run others first commits state)
    (hphase : state.phase entrant = .starting)
    (hidle : ∀ other, (state.phase other).lockedDigest? = none) :
    let ended := (parallel.importer entrant).run (parallel.job entrant) state.world
    ∃ more, parallel.Run others first (commits ++ more)
      (state.enter entrant ended.1 (.finished ended.2)) := by
  refine (parallel.importer entrant).drive_invariant (parallel.job entrant)
    (fun _ seen => seen)
    (fun phase seen => ∃ more, parallel.Run others first (commits ++ more)
      (state.enter entrant seen.1 phase)) (fun _ _ h => h) ?_ (state.world, ()) .starting ?_
  · intro phase world rest unfinished hbefore
    obtain ⟨more, hmore⟩ := hbefore
    have hmay : ∀ entered, parallel.MayEnter (state.enter entrant world phase) entrant entered := by
      intro entered
      refine MayEnter.enter (fun digest _ other _ held hheld => ?_) world phase
      rw [hidle other] at hheld
      cases hheld
    have hnext := hmore.enter (advance_enter state entrant world phase) (hmay _)
    rw [enter_enter, List.append_assoc] at hnext
    exact ⟨_, hnext⟩
  · refine ⟨[], ?_⟩
    rw [List.append_nil]
    have hsame : state.enter entrant state.world .starting = state := by
      rw [← hphase, State.enter, Function.update_eq_self]
    rwa [hsame]

end Parallel

end AudioCatalog
