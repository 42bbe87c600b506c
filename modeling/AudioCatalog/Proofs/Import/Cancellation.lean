import AudioCatalog.Proofs.Catalog.Refusals
import AudioCatalog.Proofs.Import.Contest
import AudioCatalog.Proofs.Import.Writing

/-!
# Imports that report to be cancelled

An import reports that it was cancelled in three places, and nothing else that it does can go
wrong in that way.  Two of them look whether the token was cancelled.  The third, the claim of
the commit point, is refused by any token that is not pending, and the token of an import that
was committed is never pending again.  So of imports that are done in turn with one token, those
after the first that is committed report to be cancelled although nobody has cancelled anything.
`Contest.Sequence` is a contest in which the imports are done in turn; every import that is run
while no other is under way continues one, as `Sequence.exists_run` says.
-/

namespace AudioCatalog

/-! ## Errors that are not cancellations -/

theorem World.admit_ne_cancelled {world : World} {path : Pathname} {error : Error}
    (h : world.admit path = .error error) : error ≠ .cancelled := by
  unfold World.admit at h
  split at h
  · cases h
    exact nofun
  · split at h
    · cases h
      exact nofun
    · cases h

namespace Catalog

variable {catalog : Catalog} {error : Error}

theorem mapError_store_ne_cancelled {α : Type} {result : Except StoreFault α}
    (h : result.mapError .store = .error error) : error ≠ .cancelled := by
  cases result with
  | error fault =>
      cases h
      exact nofun
  | ok value => cases h

theorem identify_ne_cancelled {digest : Digest} {key : Option AcousticKey} {careful : Bool}
    (h : identify digest key catalog.lookup careful = .error error) : error ≠ .cancelled := by
  rw [identify.eq_def] at h
  rcases bind_eq_error_iff.mp h with hlooked | ⟨known, -, h⟩
  · exact mapError_store_ne_cancelled (map_eq_error_iff.mp (map_eq_error_iff.mp hlooked))
  · split at h
    · cases h
    · split at h
      · cases h
      · split at h
        · cases h
        · rcases bind_eq_error_iff.mp h with hlooked | ⟨candidates, -, h⟩
          · exact mapError_store_ne_cancelled (map_eq_error_iff.mp hlooked)
          · cases h

theorem numbered_ne_cancelled {α : Type} {result : Option α}
    (h : numbered result = .error error) : error ≠ .cancelled := by
  obtain ⟨-, rfl⟩ := numbered_eq_error h
  exact nofun

theorem demandWritable_ne_cancelled (h : catalog.demandWritable = .error error) :
    error ≠ .cancelled := by
  obtain ⟨-, rfl⟩ := demandWritable_eq_error h
  exact nofun

theorem placeSource_ne_cancelled {id : IdentityId} {source : Source}
    (h : catalog.placeSource id source = .error error) : error ≠ .cancelled := by
  by_cases htext : source.Textual
  · rcases placeSource_eq_error htext h with ⟨-, rfl⟩ | ⟨-, rfl⟩ <;> simp
  · rw [Source.Textual, Bool.not_eq_true, Option.isSome_eq_false_iff, Option.isNone_iff_eq_none]
      at htext
    rw [placeSource, htext] at h
    cases h
    simp

theorem settleTicket_ne_cancelled {ticket : Option TicketId} {identity : IdentityId}
    {now : Timestamp} (h : catalog.settleTicket ticket identity now = .error error) :
    error ≠ .cancelled := by
  rcases settleTicket_eq_error h with ⟨-, rfl⟩ | ⟨id, -, -, rfl⟩ <;> exact nofun

theorem addSource_ne_cancelled {id : IdentityId} {source : Source} {metadata : Option Metadata}
    {ticket : Option TicketId} {now : Timestamp}
    (h : catalog.addSource id source metadata ticket now = .error error) : error ≠ .cancelled := by
  rcases transaction_eq_error h with ⟨-, rfl⟩ | h
  · exact nofun
  split at h
  · cases h
    exact nofun
  · rcases bind_eq_error_iff.mp h with hplaced | ⟨placed, -, hsettled⟩
    · exact placeSource_ne_cancelled hplaced
    · exact settleTicket_ne_cancelled hsettled

theorem addIdentity_ne_cancelled {draft : Draft} {source : Source} {ticket : Option TicketId}
    {now : Timestamp} (h : catalog.addIdentity draft source ticket now = .error error) :
    error ≠ .cancelled := by
  rcases transaction_eq_error h with ⟨-, rfl⟩ | h
  · exact nofun
  rcases bind_eq_error_iff.mp h with hwritable | ⟨_, -, h⟩
  · exact demandWritable_ne_cancelled hwritable
  rcases bind_eq_error_iff.mp h with hnumbered | ⟨⟨number, identities⟩, -, h⟩
  · exact numbered_ne_cancelled hnumbered
  simp only at h
  split at h
  · cases h
    exact nofun
  rcases bind_eq_error_iff.mp h with hplaced | ⟨placed, -, h⟩
  · exact placeSource_ne_cancelled hplaced
  rcases bind_eq_error_iff.mp h with hsettled | ⟨_, -, h⟩
  · exact settleTicket_ne_cancelled hsettled
  · cases h

end Catalog

theorem ImportJob.write_ne_cancelled {job : ImportJob} {world : World} {decoded : Decoded}
    {resolution : Resolution} {error : Error}
    (h : job.write world decoded resolution = .error error) : error ≠ .cancelled := by
  rw [write] at h
  simp only at h
  split at h
  · exact Catalog.addSource_ne_cancelled (map_eq_error_iff.mp h)
  · exact Catalog.addIdentity_ne_cancelled (map_eq_error_iff.mp h)

/-! ## Steps -/

/-- Whether an import that has failed to commit has an error of its own to report. -/
def Phase.Faulted : Phase → Prop
  | .rolledBack error => error ≠ .cancelled
  | .starting | .admitted _ | .fingerprinted _ | .resolved .. | .claimed .. | .committed _
  | .finished _ => True

theorem Importer.faulted_advance (importer : Importer) (job : ImportJob) (world : World)
    (phase : Phase) : (importer.advance job world phase).2.Faulted := by
  cases phase with
  | starting =>
      simp only [advance, ImportJob.start]
      split <;> exact trivial
  | admitted facts =>
      simp only [advance, examine]
      split
      · exact trivial
      · split <;> exact trivial
  | fingerprinted decoded =>
      simp only [advance, ImportJob.compare]
      split
      · exact trivial
      · split <;> exact trivial
  | resolved decoded resolution =>
      simp only [advance, ImportJob.claim_eq]
      split <;> exact trivial
  | claimed decoded resolution =>
      simp only [advance, ImportJob.commit]
      split
      · rename_i error hfailed
        exact ImportJob.write_ne_cancelled hfailed
      · exact trivial
  | rolledBack error => exact trivial
  | committed receipt =>
      simp only [advance, ImportJob.clear_eq]
      exact trivial
  | finished conclusion => exact trivial

/-- An import that reports to be cancelled has seen its token cancelled, or was refused the
commit point. -/
theorem Importer.cancelled_cases (importer : Importer) {job : ImportJob} {world : World}
    {phase : Phase} (hunfinished : phase.conclusion? = none) (hfaulted : phase.Faulted)
    {path : Pathname} {stage : Stage}
    (h : (importer.advance job world phase).2 = .finished (.error ⟨path, stage, .cancelled⟩)) :
    phase.Reads ∧ job.wasCancelled world = true ∨
      stage = .resolved ∧ job.claimed? world = none ∧
        ∃ decoded resolution, phase = .resolved decoded resolution := by
  cases phase with
  | starting =>
      simp only [advance, ImportJob.start] at h
      split at h
      · rename_i error hadmit
        cases h
        exact absurd rfl (World.admit_ne_cancelled hadmit)
      · cases h
      · cases h
  | admitted facts =>
      simp only [advance, examine] at h
      split at h
      · rename_i hcancelled
        exact .inl ⟨trivial, hcancelled⟩
      · split at h
        · cases h
        · cases h
  | fingerprinted decoded =>
      simp only [advance, ImportJob.compare] at h
      split at h
      · rename_i hcancelled
        exact .inl ⟨trivial, hcancelled⟩
      · split at h
        · rename_i error hidentify
          cases h
          exact absurd rfl (Catalog.identify_ne_cancelled hidentify)
        · cases h
  | resolved decoded resolution =>
      simp only [advance, ImportJob.claim_eq] at h
      split at h
      · cases h
      · rename_i hrefused
        cases h
        exact .inr ⟨rfl, hrefused, decoded, resolution, rfl⟩
  | claimed decoded resolution =>
      simp only [advance, ImportJob.commit] at h
      split at h <;> cases h
  | rolledBack error =>
      cases h
      exact absurd rfl hfaulted
  | committed receipt =>
      simp only [advance, ImportJob.clear_eq] at h
      cases h
  | finished conclusion => cases hunfinished

/-- An import that is refused the commit point reports to be cancelled, and changes nothing. -/
theorem Importer.run_of_refused (importer : Importer) (job : ImportJob) {world : World}
    {facts : FileFacts} {decoded : Decoded} {resolution : Resolution}
    (hadmitted : world.admit job.path = .ok (.ok facts))
    (huncancelled : job.wasCancelled world = false)
    (hdecodes : importer.decode world job.path facts = .ok decoded)
    (hidentified : identify decoded.digest decoded.key world.catalog.lookup job.handling.careful =
      .ok resolution)
    (hrefused : job.claimed? world = none) :
    importer.run job world = (world, .error ⟨job.path, .resolved, .cancelled⟩) := by
  rw [run_eq, hadmitted]
  simp only [huncancelled, Bool.false_eq_true, if_false, hdecodes, hidentified, hrefused]

/-! ## Imports one after the other -/

/-- Whether an import has begun and not ended. -/
def Phase.UnderWay : Phase → Prop
  | .admitted _ | .fingerprinted _ | .resolved .. | .claimed .. | .rolledBack _ | .committed _ =>
    True
  | .starting | .finished _ => False

theorem Phase.underWay_of_claimed {phase : Phase} (hstake : phase.stake = .claimed) :
    phase.UnderWay := by
  cases phase with
  | claimed decoded resolution => exact trivial
  | rolledBack error => exact trivial
  | starting | admitted facts | fingerprinted decoded | resolved decoded resolution
  | committed receipt => cases hstake
  | finished conclusion =>
      rw [stake] at hstake
      split at hstake <;> cases hstake

/-- A token is refused to an import if it was cancelled, or if an import has it. -/
theorem Score.claim_token_eq_none_iff {ι : Type} {score : Score ι} :
    score.token.claim = none ↔
      score = cancelled ∨ ∃ winner, score = claimed winner ∨ score = committed winner := by
  cases score with
  | undecided => simp [token, CancelToken.claim]
  | cancelled => simp [token, CancelToken.claim]
  | claimed winner => simp [token, CancelToken.claim]
  | committed winner => simp [token, CancelToken.claim]

namespace Contest

variable {ι : Type} [DecidableEq ι] {contest : Contest ι} {state first last : State ι}
  {score : Score ι} {moves : List (Move ι)}

/-- Whether at most one import is under way. -/
def State.Single (state : State ι) : Prop :=
  ∀ a b, (state.phase a).UnderWay → (state.phase b).UnderWay → a = b

/-- A run in which the imports are done one after the other, while others may try to cancel them
and do what they like at any time. -/
inductive Sequence (contest : Contest ι) : State ι → List (Move ι) → State ι → Prop
  | start (state : State ι) : Sequence contest state [] state
  | step {first second third : State ι} {moves : List (Move ι)} {move : Move ι}
      (before : Sequence contest first moves second) (last : contest.Step second move third)
      (single : third.Single) : Sequence contest first (moves ++ [move]) third

theorem Sequence.run (hsequence : contest.Sequence first moves last) :
    contest.Run first moves last := by
  induction hsequence with
  | start => exact .start _
  | step before step single ih => exact .step ih step

theorem Sequence.single (hsequence : contest.Sequence first moves last)
    (hfresh : contest.Fresh first) : last.Single := by
  cases hsequence with
  | start =>
      intro a b ha
      rw [hfresh.phases] at ha
      cases ha
  | step before step single => exact single

/-- An import that steps while no other is under way is the only one afterwards. -/
theorem State.single_enter {entrant : ι}
    (hrest : ∀ other, other ≠ entrant → ¬ (state.phase other).UnderWay) (world : World)
    (phase : Phase) : (state.enter entrant world phase).Single := by
  have honly : ∀ other, ((state.enter entrant world phase).phase other).UnderWay →
      other = entrant := by
    intro other hunderWay
    by_contra hne
    rw [State.phase_enter_of_ne state hne] at hunderWay
    exact hrest other hne hunderWay
  exact fun a b ha hb => (honly a ha).trans (honly b hb).symm

/-- An import can always take its next step in the world as it is. -/
theorem Step.exists_advance (contest : Contest ι) (state : State ι) (entrant : ι) (world : World)
    (phase : Phase) :
    let next := (contest.importer entrant).advance (contest.job entrant) world phase
    ∃ move, contest.Step (state.enter entrant world phase) move
      (state.enter entrant next.1 next.2) := by
  intro next
  have hphase : (state.enter entrant world phase).phase entrant = phase :=
    State.phase_enter_self ..
  have hadvance : contest.advance (state.enter entrant world phase) entrant world = next := by
    rw [Contest.advance, hphase]
  have henter : ∀ after : World × Phase,
      (state.enter entrant world phase).enter entrant after.1 after.2 =
        state.enter entrant after.1 after.2 := fun after =>
    congrArg (State.mk after.1) (Function.update_idem ..)
  by_cases hreads : phase.Reads
  · have hstep : contest.Step _ _ _ := .read (state.enter entrant world phase) entrant world
      (hphase.symm ▸ hreads) rfl
    have hworld : next.1 = world := by
      cases phase with
      | starting | admitted facts | fingerprinted decoded => rfl
      | resolved | claimed | rolledBack | committed | finished => cases hreads
    rw [hadvance] at hstep
    rw [← henter next, hworld]
    exact ⟨_, hstep⟩
  · have hstep : contest.Step _ _ _ := .act (state.enter entrant world phase) entrant
      (hphase.symm ▸ hreads)
    rw [show contest.advance _ entrant (state.enter entrant world phase).world = next from hadvance,
      henter next] at hstep
    exact ⟨_, hstep⟩

/-- An import that is done while no other is under way continues a sequence: its steps up to the
last, and then its last step. -/
theorem Sequence.exists_drive {entrant : ι} {world : World} {phase : Phase}
    (hsequence : contest.Sequence first moves (state.enter entrant world phase))
    (hrest : ∀ other, other ≠ entrant → ¬ (state.phase other).UnderWay)
    (hunfinished : phase.conclusion? = none) :
    let ended := (contest.importer entrant).drive (contest.job entrant) (fun _ now => now)
      (world, ()) phase
    ∃ more before move, contest.Sequence first (moves ++ more) before ∧
      (before.phase entrant).conclusion? = none ∧
      contest.Step before move (state.enter entrant ended.1.1 (.finished ended.2)) := by
  intro ended
  have hended := (contest.importer entrant).drive_invariant (contest.job entrant)
    (fun _ now => now)
    (fun phase now =>
      (phase.conclusion? = none →
        ∃ more, contest.Sequence first (moves ++ more) (state.enter entrant now.1 phase)) ∧
      ∀ conclusion, phase = .finished conclusion →
        ∃ more before move, contest.Sequence first (moves ++ more) before ∧
          (before.phase entrant).conclusion? = none ∧
          contest.Step before move (state.enter entrant now.1 (.finished conclusion)))
    (fun _ _ reached => reached) ?_ (world, ()) phase ?_
  · exact hended.2 ended.2 rfl
  · rintro phase now rest hunfinished ⟨hreached, -⟩
    obtain ⟨more, hreached⟩ := hreached hunfinished
    obtain ⟨move, hstep⟩ := Step.exists_advance contest state entrant now phase
    refine ⟨fun _ => ⟨more ++ [move], ?_⟩, fun conclusion hconclusion => ?_⟩
    · rw [← List.append_assoc]
      exact hreached.step hstep (State.single_enter hrest _ _)
    · rw [hconclusion] at hstep
      refine ⟨more, _, move, hreached, ?_, hstep⟩
      rw [State.phase_enter_self]
      exact hunfinished
  · refine ⟨fun _ => ⟨[], by rwa [List.append_nil]⟩, fun conclusion hconclusion => ?_⟩
    rw [hconclusion] at hunfinished
    cases hunfinished

/-- An import that is run while no other is under way continues a sequence. -/
theorem Sequence.exists_run {entrant : ι} {world : World} {conclusion : Conclusion}
    (hsequence : contest.Sequence first moves state) (hstart : state.phase entrant = .starting)
    (hrest : ∀ other, other ≠ entrant → ¬ (state.phase other).UnderWay)
    (hrun : (contest.importer entrant).run (contest.job entrant) state.world =
      (world, conclusion)) :
    ∃ more before move, contest.Sequence first (moves ++ more) before ∧
      (before.phase entrant).conclusion? = none ∧
      contest.Step before move (state.enter entrant world (.finished conclusion)) := by
  have hstate : state.enter entrant state.world .starting = state := by
    rw [State.enter, ← hstart, Function.update_eq_self]
  rw [← hstate] at hsequence
  obtain ⟨rfl, rfl⟩ := Prod.mk.inj hrun
  exact hsequence.exists_drive hrest rfl

/-- Imports that fail to commit have an error of their own to report. -/
theorem Run.faulted (hrun : contest.Run first moves last) (hfresh : contest.Fresh first)
    (entrant : ι) : (last.phase entrant).Faulted := by
  have hentered : ∀ (state : State ι) (world : World) (own : ι) (phase : Phase), phase.Faulted →
      (state.phase entrant).Faulted → ((state.enter own world phase).phase entrant).Faulted := by
    intro state world own phase hphase hother
    by_cases hsame : entrant = own
    · rw [hsame, State.phase_enter_self]
      exact hphase
    · rw [State.phase_enter_of_ne state hsame]
      exact hother
  induction hrun with
  | start =>
      rw [hfresh.phases]
      exact trivial
  | step before step ih =>
      cases step with
      | cancel => exact ih
      | others => exact ih
      | read own seen reads token =>
          exact hentered _ _ _ _ ((contest.importer own).faulted_advance _ _ _) ih
      | act own acts =>
          exact hentered _ _ _ _ ((contest.importer own).faulted_advance _ _ _) ih

/-- To an import that is alone and has no claim, the commit point is refused exactly if somebody
has cancelled or some import was committed. -/
theorem Stands.refused_iff (hstands : contest.Stands score state) (htells : score.Tells moves)
    (hsingle : state.Single) {entrant : ι} (hunderWay : (state.phase entrant).UnderWay)
    (hstake : (state.phase entrant).stake = .none) :
    (state.world.tokens contest.token).claim = none ↔
      .cancel .cancelled ∈ moves ∨ ∃ other, other ≠ entrant ∧ .commit other ∈ moves := by
  rw [hstands.token, Score.claim_token_eq_none_iff, htells.cancelled]
  refine or_congr_right ⟨?_, ?_⟩
  · rintro ⟨winner, rfl | rfl⟩
    · have hclaimed : (state.phase winner).stake = .claimed := by
        rw [hstands.stakes, Score.stake_claimed_self]
      obtain rfl := hsingle winner entrant (Phase.underWay_of_claimed hclaimed) hunderWay
      rw [hclaimed] at hstake
      cases hstake
    · refine ⟨winner, ?_, (htells.committed winner).mpr rfl⟩
      rintro rfl
      rw [hstands.stakes, Score.stake_committed_self] at hstake
      cases hstake
  · rintro ⟨other, -, hcommitted⟩
    exact ⟨other, .inr ((htells.committed other).mp hcommitted)⟩

/-- An import that sees its token cancelled is in a contest that was cancelled. -/
theorem Stands.cancelled_of_seen (hstands : contest.Stands score state) {entrant : ι}
    {seen : World} (htoken : seen.tokens contest.token = state.world.tokens contest.token)
    (hcancelled : (contest.job entrant).wasCancelled seen = true) : score = .cancelled := by
  rw [ImportJob.wasCancelled, contest.shared entrant] at hcancelled
  have hseen : seen.tokens contest.token = .cancelled := of_decide_eq_true hcancelled
  rw [htoken, hstands.token] at hseen
  cases score with
  | cancelled => rfl
  | undecided => cases hseen
  | claimed winner => cases hseen
  | committed winner => cases hseen

/-- Why an import reports to be cancelled.  Imports are done one after the other with one token,
and anybody may try to cancel before, between and during them.  An import that reports to be
cancelled was cancelled by somebody before, or it was refused the commit point because another
one with the token was committed before; and the commit point is refused in just these two
cases. -/
theorem cancelled_or_token_used (hfresh : contest.Fresh first)
    (hsequence : contest.Sequence first moves last) (entrant : ι) :
    (∀ move next path stage, contest.Step last move next →
      (last.phase entrant).conclusion? = none →
      next.phase entrant = .finished (.error ⟨path, stage, .cancelled⟩) →
        .cancel .cancelled ∈ moves ∨
          stage = .resolved ∧ ∃ other, other ≠ entrant ∧ .commit other ∈ moves) ∧
    ∀ decoded resolution, last.phase entrant = .resolved decoded resolution →
      ((last.world.tokens contest.token).claim = none ↔
        .cancel .cancelled ∈ moves ∨ ∃ other, other ≠ entrant ∧ .commit other ∈ moves) := by
  obtain ⟨score, htells, hstands⟩ := hsequence.run.stands hfresh
  have hsingle := hsequence.single hfresh
  have hfaulted := hsequence.run.faulted hfresh entrant
  have hrefused : ∀ decoded resolution, last.phase entrant = .resolved decoded resolution →
      ((last.world.tokens contest.token).claim = none ↔
        .cancel .cancelled ∈ moves ∨ ∃ other, other ≠ entrant ∧ .commit other ∈ moves) := by
    intro decoded resolution hphase
    refine hstands.refused_iff htells hsingle ?_ ?_
    · rw [hphase]
      exact trivial
    · rw [hphase]
      rfl
  refine ⟨fun move next path stage hstep hunfinished hended => ?_, hrefused⟩
  -- Only a step of the import itself can have ended it.
  have hcases : ∀ (own : ι) (world seen : World),
      seen.tokens contest.token = last.world.tokens contest.token →
      (last.enter own world (contest.advance last own seen).2).phase entrant =
        .finished (.error ⟨path, stage, .cancelled⟩) →
      .cancel .cancelled ∈ moves ∨
        stage = .resolved ∧ ∃ other, other ≠ entrant ∧ .commit other ∈ moves := by
    intro own world seen htoken hentered
    by_cases hown : entrant = own
    · subst hown
      rw [State.phase_enter_self] at hentered
      rcases (contest.importer entrant).cancelled_cases hunfinished hfaulted hentered with
        ⟨-, hcancelled⟩ | ⟨rfl, hclaimed, decoded, resolution, hphase⟩
      · exact .inl (htells.cancelled.mpr (hstands.cancelled_of_seen htoken hcancelled))
      · rw [ImportJob.claimed?, contest.shared entrant] at hclaimed
        have hclaim : (last.world.tokens contest.token).claim = none := by
          rw [← htoken]
          exact Option.map_eq_none_iff.mp hclaimed
        exact ((hrefused decoded resolution hphase).mp hclaim).imp_right fun h => ⟨rfl, h⟩
    · rw [State.phase_enter_of_ne last hown] at hentered
      rw [hentered] at hunfinished
      cases hunfinished
  cases hstep with
  | cancel =>
      simp only at hended
      rw [hended] at hunfinished
      cases hunfinished
  | others world token =>
      simp only at hended
      rw [hended] at hunfinished
      cases hunfinished
  | read own seen reads token => exact hcases own _ seen token hended
  | act own acts => exact hcases own _ last.world rfl hended

/-- Two imports of the file `a` with one token. -/
def twice : Contest Bool where
  token := "t"
  importer := fun _ => .clicking
  job := fun _ => .direct ⟨[47, 97]⟩ ⟨true, true⟩ (some "t")
  shared := fun _ => rfl

/-- The first of the two imports is committed.  The second finds the file in the catalog, and
reports to be cancelled. -/
theorem run_twice : ∃ world receipt,
    Importer.clicking.run (twice.job false) .withOneFile = (world, .ok (.committed receipt)) ∧
      world.tokens "t" = .committing ∧
      Importer.clicking.run (twice.job true) world =
        (world, .error ⟨⟨[47, 97]⟩, .resolved, .cancelled⟩) := by
  have hempty : World.withOneFile.catalog.Keeps [] := (Catalog.Amounts.of_empty rfl rfl).keeps
  obtain ⟨catalog, hwrite⟩ : ∃ catalog, (twice.job false).write .withOneFile
      ⟨⟨1, 0⟩, .empty, Importer.click.stream.digest, none⟩ ⟨.new, true⟩ =
        .ok (⟨1⟩, .inserted, catalog) := ⟨_, rfl⟩
  have hcommits : Importer.clicking.Commits (twice.job false) .withOneFile
      ⟨⟨1, 0⟩, .empty, Importer.click.stream.digest, none⟩ ⟨.new, true⟩ ⟨1⟩ .inserted catalog :=
    ⟨World.admit_withOneFile, rfl, rfl, rfl, hwrite⟩
  have hkeep : (twice.job false).handling.keepFile = true := rfl
  have hfirst := Importer.run_of_commits Importer.clicking _ hcommits rfl
  rw [ImportJob.cleared, if_pos hkeep] at hfirst
  obtain ⟨⟨_, _, rfl⟩, ⟨-, -, -, -, hkeeps⟩ | ⟨hattached, -⟩⟩ := ImportJob.write_cases hempty hwrite
  · have hidentify := hkeeps.identify_eq_resolutionIn Importer.click.stream.digest none true
    exact ⟨_, _, hfirst, rfl, Importer.clicking.run_of_refused (twice.job true)
      World.admit_withOneFile rfl rfl hidentify rfl⟩
  · cases hattached

/-- The second import is alone when it reports to be cancelled, so its token was cancelled or
used. -/
theorem refused_second_of_twice :
    let begun : State Bool := ⟨.withOneFile, fun _ => .starting⟩
    ∃ moves last move next, twice.Fresh begun ∧ twice.Sequence begun moves last ∧
      twice.Step last move next ∧
      next.phase true = .finished (.error ⟨⟨[47, 97]⟩, .resolved, .cancelled⟩) ∧
      (.cancel .cancelled ∈ moves ∨ .commit false ∈ moves) := by
  intro begun
  obtain ⟨world, receipt, hfirst, -, hsecond⟩ := run_twice
  have hfresh : twice.Fresh begun := ⟨rfl, fun _ => rfl⟩
  have hbegun : ∀ other, other ≠ false → ¬ (begun.phase other).UnderWay := fun _ _ => id
  have hstart : twice.Sequence begun [] begun := .start begun
  obtain ⟨early, between, move, hearly, -, hcommitted⟩ := hstart.exists_run rfl hbegun hfirst
  have hended : ∀ other, other ≠ true →
      ¬ ((begun.enter false world (.finished (.ok (.committed receipt)))).phase
        other).UnderWay := by
    intro other hother
    rw [eq_false_of_ne_true hother, State.phase_enter_self]
    exact id
  have hsequence := hearly.step hcommitted (State.single_enter hbegun _ _)
  obtain ⟨late, last, refused, hlate, hunfinished, hrefused⟩ :=
    hsequence.exists_run rfl hended hsecond
  have hphase := State.phase_enter_self
    (begun.enter false world (.finished (.ok (.committed receipt)))) true world
    (.finished (.error ⟨⟨[47, 97]⟩, .resolved, .cancelled⟩))
  obtain ⟨hcancelled, -⟩ := cancelled_or_token_used hfresh hlate true
  refine ⟨_, last, refused, _, hfresh, hlate, hrefused, hphase, ?_⟩
  refine (hcancelled _ _ _ _ hrefused hunfinished hphase).imp_right ?_
  rintro ⟨-, other, hother, hcommit⟩
  rwa [eq_false_of_ne_true hother] at hcommit

/-- An import reports to be cancelled, and is refused the commit point, although its token is not
cancelled and was pending before an import with it was committed. -/
theorem refused_without_cancelling : ∃ world receipt,
    World.withOneFile.tokens "t" = .pending ∧
      Importer.clicking.run (.direct ⟨[47, 97]⟩ ⟨true, true⟩ (some "t")) .withOneFile =
        (world, .ok (.committed receipt)) ∧
      world.tokens "t" ≠ .cancelled ∧ (world.tokens "t").claim = none ∧
      (Importer.clicking.run (.direct ⟨[47, 97]⟩ ⟨true, true⟩ (some "t")) world).2 =
        .error ⟨⟨[47, 97]⟩, .resolved, .cancelled⟩ := by
  obtain ⟨world, receipt, hfirst, htoken, hsecond⟩ := run_twice
  refine ⟨world, receipt, rfl, hfirst, ?_, ?_, congrArg Prod.snd hsecond⟩
  · rw [htoken]
    decide
  · rw [htoken]
    rfl

end Contest

end AudioCatalog
