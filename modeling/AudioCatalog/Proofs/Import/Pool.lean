import AudioCatalog.Import.Replay
import AudioCatalog.Proofs.Import.Tally
import Mathlib.Algebra.BigOperators.Group.Finset.Basic
import Mathlib.Algebra.Order.BigOperators.Group.Finset
import Mathlib.Data.Fintype.Basic
import Mathlib.Data.List.FinRange

/-!
# Pools of workers

The imports of a batch are shared out to the workers of a pool, which do them side by side;
`Importer.pool` is the one that replays tickets.  No pool gets stuck: whoever holds a lock can go
on, so every run comes to an end in some way (`Parallel.Run.exists_finished`).  An import that is
not committed drops out of a run without a trace (`Parallel.Run.only`).  A pool with one worker
does the imports one after the other (`Parallel.inTurn`), which is one of the runs.
-/

namespace AudioCatalog

open Contest (State)

/-- The import for each of some tickets, side by side. -/
def Importer.pool {ι κ : Type} (importer : Importer) (handling : Handling) (lock : Digest → κ)
    (ticket : ι → Ticket) : Parallel ι κ where
  importer _ := importer
  job i := .replay (ticket i) handling none
  lock := lock

/-- What a pool makes of some tickets when it is done: the results, in the order of the tickets. -/
def Batch.ofPool {n : Nat} (ticket : Fin n → Ticket) (conclusion : Fin n → Conclusion) : Batch :=
  ⟨List.ofFn fun i => ⟨ticket i, conclusion i⟩⟩

/-- An import that holds the lock of a digest does not take another one. -/
theorem Importer.lockedDigest?_advance (importer : Importer) (job : ImportJob) (world : World)
    {phase : Phase} {held digest : Digest} (hheld : phase.lockedDigest? = some held)
    (hentered : (importer.advance job world phase).2.lockedDigest? = some digest) :
    digest = held := by
  cases phase with
  | starting | admitted | fingerprinted | rolledBack | committed | finished => cases hheld
  | resolved decoded resolution =>
      simp only [advance, ImportJob.claim_eq] at hentered
      split at hentered
      · exact Option.some.inj (hentered.symm.trans hheld)
      · cases hentered
  | claimed decoded resolution =>
      simp only [advance, ImportJob.commit] at hentered
      split at hentered <;> cases hentered

/-- An import without a token that does not get a receipt changes nothing in the world. -/
theorem Importer.world_advance (importer : Importer) {job : ImportJob} (htoken : job.token = none)
    (world : World) {phase : Phase}
    (hnone : (importer.advance job world phase).2.receipt? = none) :
    (importer.advance job world phase).1 = world := by
  cases phase with
  | starting | admitted | fingerprinted | finished => rfl
  | resolved decoded resolution => simp only [advance, ImportJob.claim, htoken]
  | claimed decoded resolution =>
      simp only [advance, ImportJob.commit] at hnone ⊢
      split
      · rfl
      · rename_i hwritten
        rw [hwritten] at hnone
        cases hnone
  | rolledBack error => simp only [advance, ImportJob.release, htoken]
  | committed receipt =>
      simp only [advance, ImportJob.clear_eq] at hnone
      cases hnone

namespace Parallel

/-- Whether imports that all start in a world can all have ended in another one, after some
commits in their order. -/
def Completes {ι κ : Type} [DecidableEq ι] (parallel : Parallel ι κ)
    (others : World → World → Prop) (world : World) (commits : List (Commit ι)) (next : World)
    (conclusion : ι → Conclusion) : Prop :=
  parallel.Run others ⟨world, fun _ => .starting⟩ commits
    ⟨next, fun entrant => .finished (conclusion entrant)⟩

variable {ι κ : Type} {parallel : Parallel ι κ} {others : World → World → Prop}
  {first state : State ι} {commits : List (Commit ι)} {entrant : ι}

/-- A step that is no commit leaves the catalog as it is. -/
theorem catalog_advance (hnone : parallel.commits state entrant = []) :
    (parallel.advance state entrant).1.catalog = state.world.catalog := by
  have hadvances : (parallel.job entrant).Advances state.world (state.phase entrant)
      (parallel.advance state entrant).1 (parallel.advance state entrant).2 :=
    (parallel.importer entrant).advances rfl
  generalize hphase : state.phase entrant = phase at hadvances
  generalize (parallel.advance state entrant).1 = next at hadvances ⊢
  generalize hentered : (parallel.advance state entrant).2 = entered at hadvances
  cases hadvances with
  | quiet uncommitted unreceipted catalog => exact catalog
  | commit written =>
      simp only [commits, hphase, hentered] at hnone
      cases hnone
  | clear receipt => exact (parallel.job entrant).catalog_cleared ..
  | rest conclusion => rfl

/-! ## Waiting for a lock -/

/-- As long as an import is not finished, there is one that may take its next step. -/
theorem exists_mayEnter (hexclusive : ∀ entrant, parallel.MayEnter state entrant
      (state.phase entrant)) (hunfinished : 0 < (state.phase entrant).remaining) :
    ∃ next, 0 < (state.phase next).remaining ∧
      parallel.MayEnter state next (parallel.advance state next).2 := by
  by_cases hheld : ∃ holder held, (state.phase holder).lockedDigest? = some held
  · obtain ⟨holder, held, hheld⟩ := hheld
    refine ⟨holder, ?_, fun digest hdigest => ?_⟩
    · refine Nat.pos_of_ne_zero fun hzero => ?_
      cases hphase : state.phase holder with
      | finished conclusion =>
          rw [hphase] at hheld
          cases hheld
      | starting | admitted | fingerprinted | resolved | claimed | rolledBack | committed =>
          rw [hphase] at hzero
          cases hzero
    · have hsame : digest = held :=
        (parallel.importer holder).lockedDigest?_advance _ _ hheld hdigest
      subst hsame
      exact hexclusive holder digest hheld
  · -- Nobody holds a lock, so nobody has to wait.
    refine ⟨entrant, hunfinished, fun digest _ other _ held hother => ?_⟩
    exact absurd ⟨other, held, hother⟩ hheld

/-! ## Some of the imports -/

/-- Some of the imports by themselves. -/
def only (parallel : Parallel ι κ) (kept : ι → Prop) : Parallel {i // kept i} κ where
  importer i := parallel.importer i
  job i := parallel.job i
  lock := parallel.lock

/-- A commit of one of some imports, told among all. -/
def Commit.among {kept : ι → Prop} (commit : Commit {i // kept i}) : Commit ι :=
  ⟨commit.entrant, commit.decoded, commit.now, commit.receipt⟩

/-- How far some of the imports have got. -/
def restrict (state : State ι) (kept : ι → Prop) : State {i // kept i} :=
  ⟨state.world, fun i => state.phase i⟩

theorem map_among_commits (parallel : Parallel ι κ) (state : State ι) {kept : ι → Prop}
    (entrant : {i // kept i}) :
    ((parallel.only kept).commits (restrict state kept) entrant).map Commit.among =
      parallel.commits state entrant := by
  have hadvance : (parallel.only kept).advance (restrict state kept) entrant =
      parallel.advance state entrant := rfl
  rw [commits, commits, hadvance]
  simp only [restrict]
  split <;> rfl

variable [DecidableEq ι]

/-! ## Runs to the end -/

/-- What is a run while others do little is one while they may do more. -/
theorem Run.mono {most : World → World → Prop} (hrun : parallel.Run others first commits state)
    (hothers : ∀ seen next, others seen next → most seen next) :
    parallel.Run most first commits state := by
  induction hrun with
  | start => exact .start _
  | step before last ih =>
      cases last with
      | proceed entrant free => exact ih.step (.proceed _ entrant free)
      | others acts => exact ih.step (.others (hothers _ _ acts))

/-- In every run, no lock is held twice. -/
theorem Run.exclusive (hrun : parallel.Run others first commits state)
    (hfirst : ∀ entrant, parallel.MayEnter first entrant (first.phase entrant)) :
    ∀ entrant, parallel.MayEnter state entrant (state.phase entrant) := by
  induction hrun with
  | start => exact hfirst
  | step before last ih =>
      cases last with
      | proceed entrant free => exact exclusive_enter ih free _
      | others acts => exact ih

/-- Imports side by side do not block each other for good: from wherever they have got to, they
can all be finished. -/
theorem Run.exists_finished [Fintype ι] (hrun : parallel.Run others first commits state)
    (hfirst : ∀ entrant, parallel.MayEnter first entrant (first.phase entrant)) :
    ∃ more world, ∃ conclusion : ι → Conclusion, parallel.Run others first (commits ++ more)
      ⟨world, fun entrant => .finished (conclusion entrant)⟩ := by
  induction hleft : ∑ entrant, (state.phase entrant).remaining using Nat.strong_induction_on
    generalizing state commits with
  | _ left ih =>
  subst hleft
  by_cases hdone : ∀ entrant, ∃ conclusion, state.phase entrant = .finished conclusion
  · choose conclusion hconclusion using hdone
    refine ⟨[], state.world, conclusion, ?_⟩
    rw [List.append_nil, ← funext hconclusion]
    exact hrun
  · obtain ⟨entrant, hentrant⟩ := not_forall.mp hdone
    have hunfinished : 0 < (state.phase entrant).remaining := by
      cases hphase : state.phase entrant with
      | finished conclusion => exact absurd ⟨conclusion, hphase⟩ hentrant
      | starting | admitted | fingerprinted | resolved | claimed | rolledBack | committed =>
          exact Nat.succ_pos _
    obtain ⟨next, hnext, hmay⟩ := exists_mayEnter (hrun.exclusive hfirst) hunfinished
    have hcloser : (parallel.advance state next).2.remaining < (state.phase next).remaining :=
      Importer.remaining_advance_lt _ _ _ _ hnext
    have hless : ∑ other, ((state.enter next (parallel.advance state next).1
        (parallel.advance state next).2).phase other).remaining <
          ∑ other, (state.phase other).remaining := by
      apply Finset.sum_lt_sum
      · intro other _
        by_cases hother : other = next
        · subst hother
          rw [State.phase_enter_self]
          exact Nat.le_of_lt hcloser
        · rw [State.phase_enter_of_ne state hother]
      · refine ⟨next, Finset.mem_univ next, ?_⟩
        rw [State.phase_enter_self]
        exact hcloser
    obtain ⟨more, world, conclusion, hended⟩ :=
      ih _ hless (hrun.step (.proceed state next hmay)) rfl
    rw [List.append_assoc] at hended
    exact ⟨_, world, conclusion, hended⟩

/-! ## Runs of some of the imports -/

theorem restrict_enter (state : State ι) {kept : ι → Prop} (entrant : {i // kept i}) (world : World)
    (phase : Phase) :
    restrict (state.enter entrant world phase) kept =
      (restrict state kept).enter entrant world phase :=
  congrArg (State.mk world)
    (Function.update_comp_eq_of_injective state.phase Subtype.val_injective entrant phase)

/-- A step of an import that is left out is not seen by those that are kept. -/
theorem restrict_enter_of_not (state : State ι) {kept : ι → Prop} (hnot : ¬ kept entrant)
    (phase : Phase) : restrict (state.enter entrant state.world phase) kept = restrict state kept :=
  congrArg (State.mk state.world) (funext fun i =>
    State.phase_enter_of_ne state (fun h : i.1 = entrant => hnot (h ▸ i.2)) _ phase)

/-- Imports without tokens that are not committed have no influence on the others: these have a
run by themselves, with the same commits and to the same end. -/
theorem Run.only (hrun : parallel.Run others first commits state)
    (hfirst : parallel.Tallies [] first) (htoken : ∀ entrant, (parallel.job entrant).token = none)
    {kept : ι → Prop} (hkept : ∀ commit ∈ commits, kept commit.entrant) :
    ∃ steps : List (Commit {i // kept i}), steps.map Commit.among = commits ∧
      (parallel.only kept).Run others (restrict first kept) steps (restrict state kept) := by
  classical
  induction hrun with
  | start => exact ⟨[], rfl, .start _⟩
  | @step second third before after hbefore hlast ih =>
      obtain ⟨steps, hsteps, hrun⟩ := ih fun commit hmem =>
        hkept commit (List.mem_append_left _ hmem)
      have htallies := (hbefore.step hlast).tallies hfirst
      cases hlast with
      | others acts =>
          refine ⟨steps ++ [], ?_, hrun.step (.others acts)⟩
          rw [List.append_nil, List.append_nil, hsteps]
      | proceed entrant free =>
          by_cases hin : kept entrant
          · have hmay : (parallel.only kept).MayEnter (restrict second kept) ⟨entrant, hin⟩
                (parallel.advance second entrant).2 :=
              fun digest hdigest other hother => free digest hdigest other
                fun h => hother (Subtype.ext h)
            have hstep : (parallel.only kept).Step others _ _ _ := .proceed _ _ hmay
            refine ⟨_, ?_, hrun.step (restrict_enter second ⟨entrant, hin⟩ _ _ ▸ hstep)⟩
            rw [List.map_append, hsteps, map_among_commits]
          · have hfree : entrant ∉ (before ++ parallel.commits second entrant).map (·.entrant) := by
              intro hmem
              obtain ⟨commit, hcommit, hown⟩ := List.mem_map.mp hmem
              exact hin (hown ▸ hkept commit hcommit)
            have hnone : (parallel.advance second entrant).2.receipt? = none := by
              rw [← Option.not_isSome_iff_eq_none, ← State.phase_enter_self second entrant
                (parallel.advance second entrant).1 (parallel.advance second entrant).2]
              exact fun hsome => hfree ((htallies.settles entrant).receipt.mpr hsome)
            have hworld : (parallel.advance second entrant).1 = second.world :=
              (parallel.importer entrant).world_advance (htoken entrant) _ hnone
            refine ⟨steps, ?_, ?_⟩
            · rw [hsteps, (commits_cases parallel second entrant).resolve_right ?_,
                List.append_nil]
              rintro ⟨_, _, _, _, _, -, -, -, hadvance⟩
              rw [hadvance] at hnone
              cases hnone
            · rw [hworld, restrict_enter_of_not second hin]
              exact hrun

/-! ## One worker -/

/-- Does the imports of some entrants one after the other. -/
def inTurn (parallel : Parallel ι κ) : List ι → World → World × List Conclusion
  | [], world => (world, [])
  | entrant :: rest, world =>
    let (world, conclusion) := (parallel.importer entrant).run (parallel.job entrant) world
    let (world, conclusions) := inTurn parallel rest world
    (world, conclusion :: conclusions)

/-- Imports may be done one after the other while no other holds a lock. -/
theorem Run.inTurn (hrun : parallel.Run others first commits state) {entrants : List ι}
    (hdistinct : entrants.Nodup) (hstarting : ∀ entrant ∈ entrants,
      state.phase entrant = .starting)
    (hidle : ∀ entrant, (state.phase entrant).lockedDigest? = none) :
    let ended := parallel.inTurn entrants state.world
    ∃ more last, parallel.Run others first (commits ++ more) last ∧
      last.world = ended.1 ∧ entrants.map last.phase = ended.2.map .finished ∧
      ∀ entrant ∉ entrants, last.phase entrant = state.phase entrant := by
  induction entrants generalizing state commits with
  | nil => exact ⟨[], state, by rwa [List.append_nil], rfl, rfl, fun _ _ => rfl⟩
  | cons entrant rest ih =>
      obtain ⟨hfree, hdistinct⟩ := List.nodup_cons.mp hdistinct
      obtain ⟨more, hmore⟩ := hrun.alone (hstarting entrant List.mem_cons_self) hidle
      have hentered := ih hmore hdistinct
        (fun other hmem => by
          rw [State.phase_enter_of_ne state (ne_of_mem_of_not_mem hmem hfree)]
          exact hstarting other (List.mem_cons_of_mem _ hmem))
        ((Function.forall_update_iff _ fun _ (phase : Phase) => phase.lockedDigest? = none).mpr
          ⟨rfl, fun other _ => hidle other⟩)
      obtain ⟨later, last, hlast, hworld, hphases, hkept⟩ := hentered
      refine ⟨more ++ later, last, by rwa [← List.append_assoc], hworld, ?_, fun other hother => ?_⟩
      · rw [List.map_cons, hphases, hkept entrant hfree, State.phase_enter_self]
        rfl
      · rw [List.mem_cons, not_or] at hother
        rw [hkept other hother.2, State.phase_enter_of_ne state hother.1]

/-- All imports, done one after the other. -/
theorem exists_run_inTurn {n : Nat} (parallel : Parallel (Fin n) κ)
    (others : World → World → Prop) (start : World) :
    let ended := parallel.inTurn (List.finRange n) start
    ∃ commits conclusion, parallel.Completes others start commits ended.1 conclusion ∧
      List.ofFn conclusion = ended.2 := by
  intro ended
  have hstart : parallel.Run others ⟨start, fun _ => .starting⟩ [] ⟨start, fun _ => .starting⟩ :=
    .start _
  obtain ⟨commits, last, hrun, hworld, hphases, -⟩ :=
    hstart.inTurn (List.nodup_finRange n) (fun _ _ => rfl) fun _ => rfl
  have hfinished : ∀ i, ∃ conclusion, last.phase i = .finished conclusion := by
    intro i
    have hmem : last.phase i ∈ (List.finRange n).map last.phase :=
      List.mem_map_of_mem (List.mem_finRange i)
    rw [hphases] at hmem
    obtain ⟨conclusion, -, hconclusion⟩ := List.mem_map.mp hmem
    exact ⟨conclusion, hconclusion.symm⟩
  choose conclusion hconclusion using hfinished
  refine ⟨commits, conclusion, ?_, ?_⟩
  · have hlast : last = ⟨ended.1, fun i => .finished (conclusion i)⟩ := by
      rw [← hworld, ← funext hconclusion]
    rw [Completes, ← hlast]
    exact hrun
  · have hinjective : Function.Injective Phase.finished := fun _ _ h => Phase.finished.inj h
    refine List.map_injective_iff.mpr hinjective ?_
    rw [← hphases, List.ofFn_eq_map, List.map_map]
    exact List.map_congr_left fun i _ => (hconclusion i).symm

end Parallel

end AudioCatalog
