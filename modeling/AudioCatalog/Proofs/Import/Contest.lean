import AudioCatalog.Proofs.Import.Atomicity
import Mathlib.Logic.Function.Basic

/-!
# Contests for a token

Any number of imports may run with clones of one token while others try to cancel it, and
their steps may come in any order.  `Contest.Run` is such an order.  A contest is undecided,
cancelled, claimed by one import or committed by one, which is its `Score`; every step moves
the score as `Score.Turn` says, so that cancelling and committing exclude each other.
-/

namespace AudioCatalog

/-! ## Imports and the token -/

/-- What an import has to do with the commit point of its token. -/
inductive Stake where
  | none
  | claimed
  | committed
  deriving DecidableEq

namespace Phase

/-- What an import that has got to a phase has to do with the commit point.  A claim whose
commit was rolled back stands until it is given back. -/
def stake : Phase → Stake
  | starting | admitted _ | fingerprinted _ | resolved .. => .none
  | claimed .. | rolledBack _ => .claimed
  | committed _ => .committed
  | finished conclusion => if conclusion.receipt?.isSome then .committed else .none

/-- Whether the next step only looks at the world. -/
def Reads : Phase → Prop
  | starting | admitted _ | fingerprinted _ => True
  | resolved .. | claimed .. | rolledBack _ | committed _ | finished _ => False

theorem stake_of_reads {phase : Phase} (hreads : phase.Reads) : phase.stake = .none := by
  cases phase with
  | starting | admitted facts | fingerprinted decoded => rfl
  | resolved | claimed | rolledBack | committed | finished => cases hreads

end Phase

/-- What happens in a contest. -/
inductive Move (ι : Type) where
  /-- Somebody tries to cancel. -/
  | cancel (answer : CancelAnswer)
  | claim (entrant : ι)
  | commit (entrant : ι)
  | release (entrant : ι)
  /-- An import takes any other step. -/
  | proceed (entrant : ι)
  /-- Others act, who do not have the token. -/
  | others

namespace Move

variable {ι : Type}

/-- The move that an import makes with a step from one phase to another. -/
def ofStep (entrant : ι) : Phase → Phase → Move ι
  | .resolved .., .claimed .. => claim entrant
  | .claimed .., .committed _ => commit entrant
  | .rolledBack _, _ => release entrant
  | _, _ => proceed entrant

/-- Whether a move decides the contest: an attempt to cancel succeeds, or an import
commits. -/
def decides : Move ι → Bool
  | cancel .cancelled | commit _ => true
  | cancel .alreadyCancelled | cancel .pastCommitPoint | claim _ | release _ | proceed _ | others =>
    false

/-- Whether a move is made with the token by somebody who has no claim on it. -/
def Contends : Move ι → Prop
  | cancel _ | claim _ => True
  | commit _ | release _ | proceed _ | others => False

end Move

/-! ## Contests -/

/-- Imports that share a token. -/
structure Contest (ι : Type) where
  token : String
  importer : ι → Importer
  job : ι → ImportJob
  shared : ∀ entrant, (job entrant).token = some token

namespace Contest

variable {ι : Type} [DecidableEq ι]

/-- The world in a contest, and how far each import has got. -/
structure State (ι : Type) where
  world : World
  phase : ι → Phase

/-- The state in which one import has got to a phase and left the world as given. -/
def State.enter (state : State ι) (entrant : ι) (world : World) (phase : Phase) : State ι :=
  ⟨world, Function.update state.phase entrant phase⟩

@[simp]
theorem State.phase_enter_self (state : State ι) (entrant : ι) (world : World) (phase : Phase) :
    (state.enter entrant world phase).phase entrant = phase :=
  Function.update_self ..

theorem State.phase_enter_of_ne (state : State ι) {entrant other : ι} (hne : other ≠ entrant)
    (world : World) (phase : Phase) :
    (state.enter entrant world phase).phase other = state.phase other :=
  Function.update_of_ne hne ..

/-- The next step of an import, which sees a world. -/
def advance (contest : Contest ι) (state : State ι) (entrant : ι) (seen : World) : World × Phase :=
  (contest.importer entrant).advance (contest.job entrant) seen (state.phase entrant)

/-- One step of a contest. -/
inductive Step (contest : Contest ι) : State ι → Move ι → State ι → Prop
  | cancel (state : State ι) :
      Step contest state (.cancel (state.world.tokens contest.token).cancel.1)
        ⟨state.world.setToken contest.token (state.world.tokens contest.token).cancel.2,
          state.phase⟩
  /-- A step that only looks sees the token as it is; catalog and files it may have seen
  at other times. -/
  | read (state : State ι) (entrant : ι) (seen : World) (reads : (state.phase entrant).Reads)
      (token : seen.tokens contest.token = state.world.tokens contest.token) :
      Step contest state
        (.ofStep entrant (state.phase entrant) (contest.advance state entrant seen).2)
        (state.enter entrant state.world (contest.advance state entrant seen).2)
  | act (state : State ι) (entrant : ι) (acts : ¬ (state.phase entrant).Reads) :
      Step contest state
        (.ofStep entrant (state.phase entrant) (contest.advance state entrant state.world).2)
        (state.enter entrant (contest.advance state entrant state.world).1
          (contest.advance state entrant state.world).2)
  | others (state : State ι) (world : World)
      (token : world.tokens contest.token = state.world.tokens contest.token) :
      Step contest state .others ⟨world, state.phase⟩

/-- Any number of steps, with their moves in their order. -/
inductive Run (contest : Contest ι) : State ι → List (Move ι) → State ι → Prop
  | start (state : State ι) : Run contest state [] state
  | step {first second third : State ι} {moves : List (Move ι)} {move : Move ι}
      (before : Run contest first moves second) (last : Step contest second move third) :
      Run contest first (moves ++ [move]) third

/-- Whether a contest has just begun, with a new token. -/
structure Fresh (contest : Contest ι) (state : State ι) : Prop where
  token : state.world.tokens contest.token = .pending
  phases : ∀ entrant, state.phase entrant = .starting

end Contest

/-! ## The score -/

/-- How a contest stands. -/
inductive Score (ι : Type) where
  | undecided
  | cancelled
  | claimed (entrant : ι)
  | committed (entrant : ι)

namespace Score

variable {ι : Type}

/-- The token of a contest with a score. -/
def token : Score ι → CancelToken
  | undecided => .pending
  | cancelled => .cancelled
  | claimed _ | committed _ => .committing

/-- What each import has to do with the commit point. -/
def stake [DecidableEq ι] : Score ι → ι → Stake
  | undecided, _ | cancelled, _ => .none
  | claimed winner, entrant => if entrant = winner then .claimed else .none
  | committed winner, entrant => if entrant = winner then .committed else .none

@[simp]
theorem stake_claimed_self [DecidableEq ι] (entrant : ι) :
    (claimed entrant).stake entrant = .claimed :=
  if_pos rfl

@[simp]
theorem stake_committed_self [DecidableEq ι] (entrant : ι) :
    (committed entrant).stake entrant = .committed :=
  if_pos rfl

/-- Only the winner has anything to do with the commit point. -/
theorem stake_of_ne [DecidableEq ι] {winner entrant : ι} (hne : entrant ≠ winner) :
    (claimed winner).stake entrant = .none ∧ (committed winner).stake entrant = .none :=
  ⟨if_neg hne, if_neg hne⟩

theorem eq_of_stake_ne_none [DecidableEq ι] {score : Score ι} {entrant : ι}
    (hstake : score.stake entrant ≠ .none) :
    score = claimed entrant ∨ score = committed entrant := by
  cases score with
  | undecided | cancelled => exact absurd rfl hstake
  | claimed winner =>
      left
      by_cases hsame : entrant = winner
      · rw [hsame]
      · exact absurd (stake_of_ne hsame).1 hstake
  | committed winner =>
      right
      by_cases hsame : entrant = winner
      · rw [hsame]
      · exact absurd (stake_of_ne hsame).2 hstake

/-- How a move changes the score. -/
inductive Turn : Score ι → Move ι → Score ι → Prop
  | cancel : Turn undecided (.cancel .cancelled) cancelled
  | repeated : Turn cancelled (.cancel .alreadyCancelled) cancelled
  | late {score : Score ι} (token : score.token = .committing) :
      Turn score (.cancel .pastCommitPoint) score
  | claim (entrant : ι) : Turn undecided (.claim entrant) (claimed entrant)
  | commit (entrant : ι) : Turn (claimed entrant) (.commit entrant) (committed entrant)
  | release (entrant : ι) : Turn (claimed entrant) (.release entrant) undecided
  | proceed (score : Score ι) (entrant : ι) : Turn score (.proceed entrant) score
  | others (score : Score ι) : Turn score .others score

/-- How many decisive moves there have been. -/
def decisions : Score ι → Nat
  | undecided | claimed _ => 0
  | cancelled | committed _ => 1

theorem decisions_le_one (score : Score ι) : score.decisions ≤ 1 := by
  cases score with
  | undecided | claimed winner => exact Nat.zero_le 1
  | cancelled | committed winner => exact Nat.le_refl 1

/-- Whether the decisive moves are those that a score tells of. -/
structure Tells (score : Score ι) (moves : List (Move ι)) : Prop where
  decisions : moves.countP Move.decides = score.decisions
  cancelled : .cancel .cancelled ∈ moves ↔ score = cancelled
  committed : ∀ entrant, .commit entrant ∈ moves ↔ score = committed entrant

variable {score next : Score ι} {moves : List (Move ι)} {move : Move ι}

theorem Tells.nil : (undecided : Score ι).Tells [] :=
  ⟨rfl, by simp, by simp⟩

/-- A move that decides nothing leaves what the score tells of. -/
theorem Tells.append (htells : score.Tells moves) (hmove : move.decides = false)
    (hdecisions : next.decisions = score.decisions)
    (hcancelled : next = .cancelled ↔ score = .cancelled)
    (hcommitted : ∀ entrant, next = .committed entrant ↔ score = .committed entrant) :
    next.Tells (moves ++ [move]) where
  decisions := by
    rw [List.countP_append, htells.decisions, hdecisions]
    simp [hmove]
  cancelled := by
    have hother : .cancel .cancelled ≠ move := by
      rintro rfl
      cases hmove
    simp [hother, htells.cancelled, hcancelled]
  committed entrant := by
    have hother : .commit entrant ≠ move := by
      rintro rfl
      cases hmove
    simp [hother, htells.committed, hcommitted]

theorem Tells.turn (htells : score.Tells moves) (hturn : score.Turn move next) :
    next.Tells (moves ++ [move]) := by
  cases hturn with
  | cancel =>
      refine ⟨?_, by simp, fun entrant => by simp [htells.committed]⟩
      rw [List.countP_append, htells.decisions]
      rfl
  | commit winner =>
      refine ⟨?_, by simp [htells.cancelled], fun entrant => ?_⟩
      · rw [List.countP_append, htells.decisions]
        rfl
      · simp [htells.committed, eq_comm]
  | claim winner => exact htells.append rfl rfl (by simp) (by simp)
  | release winner => exact htells.append rfl rfl (by simp) (by simp)
  | repeated | late token | proceed entrant | others =>
      exact htells.append rfl rfl Iff.rfl fun _ => Iff.rfl

/-- Only the token of an undecided contest can be claimed. -/
theorem claim_token_eq_some {claimed : CancelToken} (h : score.token.claim = some claimed) :
    score = undecided ∧ claimed = .committing := by
  cases score with
  | undecided =>
      cases h
      exact ⟨rfl, rfl⟩
  | cancelled | claimed winner | committed winner => cases h

/-- Without an attempt to cancel and without a claim, nothing is decided. -/
theorem Turn.of_not_contends (hturn : undecided.Turn move next) (hmove : ¬ move.Contends) :
    next = undecided := by
  cases hturn with
  | cancel | claim entrant => exact absurd trivial hmove
  | late token => cases token
  | proceed | others => rfl

end Score

/-! ## Steps and the score -/

theorem ImportJob.tokens_cleared (job : ImportJob) (world : World) (receipt : Receipt) :
    (job.cleared world receipt).1.tokens = world.tokens := by
  rw [cleared]
  split
  · rfl
  · split <;> rfl

/-- A step that only looks leads to no claim. -/
theorem Importer.advance_of_reads {ι : Type} (importer : Importer) (job : ImportJob) (world : World)
    {phase : Phase} (hreads : phase.Reads) (entrant : ι) :
    (importer.advance job world phase).2.stake = .none ∧
      Move.ofStep entrant phase (importer.advance job world phase).2 = .proceed entrant := by
  cases phase with
  | starting =>
      simp only [advance, ImportJob.start]
      split <;> exact ⟨rfl, rfl⟩
  | admitted facts =>
      simp only [advance, examine]
      split
      · exact ⟨rfl, rfl⟩
      · split <;> exact ⟨rfl, rfl⟩
  | fingerprinted decoded =>
      simp only [advance, ImportJob.compare]
      split
      · exact ⟨rfl, rfl⟩
      · split <;> exact ⟨rfl, rfl⟩
  | resolved | claimed | rolledBack | committed | finished => cases hreads

namespace Contest

variable {ι : Type} [DecidableEq ι] {contest : Contest ι} {state next : State ι}
  {score : Score ι} {move : Move ι} {moves : List (Move ι)}

/-- Whether a contest stands as a score says. -/
structure Stands (contest : Contest ι) (score : Score ι) (state : State ι) : Prop where
  token : state.world.tokens contest.token = score.token
  stakes : ∀ entrant, (state.phase entrant).stake = score.stake entrant

theorem Stands.enter (hstands : contest.Stands score state) {turned : Score ι} {entrant : ι}
    {world : World} {phase : Phase} (htoken : world.tokens contest.token = turned.token)
    (hself : phase.stake = turned.stake entrant)
    (hothers : ∀ other, other ≠ entrant → turned.stake other = score.stake other) :
    contest.Stands turned (state.enter entrant world phase) := by
  refine ⟨htoken, fun other => ?_⟩
  by_cases hsame : other = entrant
  · rw [hsame, State.phase_enter_self, hself]
  · rw [State.phase_enter_of_ne state hsame, hstands.stakes, hothers other hsame]

/-- An import with a claim is the one that the score tells of. -/
theorem Stands.claimed (hstands : contest.Stands score state) {entrant : ι}
    (hphase : (state.phase entrant).stake = .claimed) : score = .claimed entrant := by
  rw [hstands.stakes] at hphase
  have hstake : score.stake entrant ≠ .none := by
    rw [hphase]
    decide
  rcases Score.eq_of_stake_ne_none hstake with hscore | rfl
  · exact hscore
  · rw [Score.stake_committed_self] at hphase
    cases hphase

/-- A commit is that of the import that the score tells of. -/
theorem Stands.committed (hstands : contest.Stands score state) {entrant : ι}
    (hphase : (state.phase entrant).stake = .committed) : score = .committed entrant := by
  rw [hstands.stakes] at hphase
  have hstake : score.stake entrant ≠ .none := by
    rw [hphase]
    decide
  rcases Score.eq_of_stake_ne_none hstake with rfl | hscore
  · rw [Score.stake_claimed_self] at hphase
    cases hphase
  · exact hscore

/-- An import that ends without a commit, or goes on without a claim, changes no score. -/
theorem Stands.keep (hstands : contest.Stands score state) {entrant : ι} {world : World}
    {phase : Phase} (htoken : world.tokens contest.token = state.world.tokens contest.token)
    (hstake : phase.stake = (state.phase entrant).stake) :
    contest.Stands score (state.enter entrant world phase) :=
  hstands.enter (htoken.trans hstands.token) (hstake.trans (hstands.stakes entrant))
    fun _ _ => rfl

/-! ## Moves -/

theorem Stands.cancel (hstands : contest.Stands score state) :
    ∃ turned, score.Turn (.cancel (state.world.tokens contest.token).cancel.1) turned ∧
      contest.Stands turned
        ⟨state.world.setToken contest.token (state.world.tokens contest.token).cancel.2,
          state.phase⟩ := by
  obtain ⟨htoken, hstakes⟩ := hstands
  rw [htoken]
  cases score with
  | undecided => exact ⟨.cancelled, .cancel, World.setToken_tokens_self .., hstakes⟩
  | cancelled => exact ⟨.cancelled, .repeated, World.setToken_tokens_self .., hstakes⟩
  | claimed winner => exact ⟨.claimed winner, .late rfl, World.setToken_tokens_self .., hstakes⟩
  | committed winner =>
      exact ⟨.committed winner, .late rfl, World.setToken_tokens_self .., hstakes⟩

/-- A step of an import that does not only look: it claims, commits or gives back in turn,
or it does nothing to the score. -/
theorem Stands.act (hstands : contest.Stands score state) {entrant : ι}
    (hacts : ¬ (state.phase entrant).Reads) :
    let stepped := contest.advance state entrant state.world
    ∃ turned, score.Turn (.ofStep entrant (state.phase entrant) stepped.2) turned ∧
      contest.Stands turned (state.enter entrant stepped.1 stepped.2) := by
  have hshared := contest.shared entrant
  simp only [advance]
  cases hphase : state.phase entrant with
  | starting | admitted | fingerprinted =>
      rw [hphase] at hacts
      exact absurd trivial hacts
  | resolved decoded resolution =>
      simp only [Importer.advance, ImportJob.claim_eq]
      cases hclaimed : (contest.job entrant).claimed? state.world with
      | none => exact ⟨score, .proceed score entrant, hstands.keep rfl (by rw [hphase]; rfl)⟩
      | some claimed =>
          simp only [ImportJob.claimed?, hshared, Option.map_eq_some_iff] at hclaimed
          obtain ⟨token, hclaim, rfl⟩ := hclaimed
          rw [hstands.token] at hclaim
          obtain ⟨rfl, rfl⟩ := Score.claim_token_eq_some hclaim
          exact ⟨.claimed entrant, .claim entrant,
            hstands.enter (World.setToken_tokens_self ..) (Score.stake_claimed_self entrant).symm
              fun other hother => (Score.stake_of_ne hother).1⟩
  | claimed decoded resolution =>
      obtain rfl := hstands.claimed (by rw [hphase]; rfl)
      simp only [Importer.advance, ImportJob.commit]
      cases (contest.job entrant).write state.world decoded resolution with
      | error error =>
          exact ⟨_, .proceed _ entrant, hstands.keep rfl (by rw [hphase]; rfl)⟩
      | ok written =>
          refine ⟨.committed entrant, .commit entrant, hstands.enter hstands.token
            (Score.stake_committed_self entrant).symm fun other hother => ?_⟩
          rw [(Score.stake_of_ne hother).1, (Score.stake_of_ne hother).2]
  | rolledBack error =>
      obtain rfl := hstands.claimed (by rw [hphase]; rfl)
      simp only [Importer.advance, ImportJob.release, hshared, hstands.token]
      exact ⟨.undecided, .release entrant,
        hstands.enter (World.setToken_tokens_self ..) rfl
          fun other hother => (Score.stake_of_ne hother).1.symm⟩
  | committed receipt =>
      simp only [Importer.advance, ImportJob.clear_eq]
      refine ⟨score, .proceed score entrant, hstands.keep ?_ (by rw [hphase]; rfl)⟩
      rw [ImportJob.tokens_cleared]
  | finished conclusion =>
      exact ⟨score, .proceed score entrant, hstands.keep rfl (by rw [hphase]; rfl)⟩

/-- Every step moves the score. -/
theorem Stands.step (hstands : contest.Stands score state) (hstep : contest.Step state move next) :
    ∃ turned, score.Turn move turned ∧ contest.Stands turned next := by
  cases hstep with
  | cancel => exact hstands.cancel
  | read entrant seen reads token =>
      obtain ⟨hstake, hmove⟩ := (contest.importer entrant).advance_of_reads (contest.job entrant)
        seen reads entrant
      refine ⟨score, ?_, hstands.keep rfl (hstake.trans (Phase.stake_of_reads reads).symm)⟩
      rw [advance, hmove]
      exact .proceed score entrant
  | act entrant acts => exact hstands.act acts
  | others world token =>
      exact ⟨score, .others score, token.trans hstands.token, hstands.stakes⟩

/-- Where no import has a claim or a commit, a step of one changes neither catalog nor
files. -/
theorem Step.stored_eq (hstep : contest.Step state move next)
    (hstakes : ∀ entrant, (state.phase entrant).stake = .none) (hmove : move ≠ .others) :
    next.world.catalog = state.world.catalog ∧ next.world.files = state.world.files := by
  cases hstep with
  | cancel => exact ⟨rfl, rfl⟩
  | read => exact ⟨rfl, rfl⟩
  | others => exact absurd rfl hmove
  | act entrant acts =>
      have hstake := hstakes entrant
      simp only [State.enter, advance]
      cases hphase : state.phase entrant with
      | starting | admitted | fingerprinted =>
          rw [hphase] at acts
          exact absurd trivial acts
      | claimed | rolledBack | committed =>
          rw [hphase] at hstake
          cases hstake
      | finished conclusion => exact ⟨rfl, rfl⟩
      | resolved decoded resolution =>
          simp only [Importer.advance, ImportJob.claim_eq]
          cases hclaimed : (contest.job entrant).claimed? state.world with
          | none => exact ⟨rfl, rfl⟩
          | some claimed =>
              obtain ⟨hcatalog, hfiles, -, -⟩ := (contest.job entrant).claimed?_eq_some hclaimed
              exact ⟨hcatalog, hfiles⟩

/-! ## Runs -/

theorem Fresh.stands (hfresh : contest.Fresh state) : contest.Stands .undecided state :=
  ⟨hfresh.token, fun entrant => by rw [hfresh.phases]; rfl⟩

/-- The score after a run tells of its moves. -/
theorem Run.stands {first last : State ι} (hrun : contest.Run first moves last)
    (hfresh : contest.Fresh first) :
    ∃ score : Score ι, score.Tells moves ∧ contest.Stands score last := by
  induction hrun with
  | start => exact ⟨.undecided, .nil, hfresh.stands⟩
  | step before step ih =>
      obtain ⟨score, htells, hstands⟩ := ih
      obtain ⟨turned, hturn, hturned⟩ := hstands.step step
      exact ⟨turned, htells.turn hturn, hturned⟩

theorem Run.read {first : State ι} (hrun : contest.Run first moves state) {entrant : ι}
    {seen : World} {phase : Phase} (hreads : (state.phase entrant).Reads)
    (htoken : seen.tokens contest.token = state.world.tokens contest.token)
    (hphase : (contest.advance state entrant seen).2 = phase) :
    contest.Run first (moves ++ [.proceed entrant]) (state.enter entrant state.world phase) := by
  have hstep := Step.read state entrant seen hreads htoken
  have hmove := ((contest.importer entrant).advance_of_reads (contest.job entrant) seen hreads
    entrant).2
  rw [← advance, hphase] at hmove
  rw [hphase, hmove] at hstep
  exact hrun.step hstep

/-- As long as nobody contends, an undecided contest stays undecided. -/
theorem Run.undecided {first last : State ι} (hrun : contest.Run first moves last)
    (hstands : contest.Stands .undecided first) (hmoves : ∀ move ∈ moves, ¬ move.Contends) :
    contest.Stands .undecided last := by
  induction hrun with
  | start => exact hstands
  | @step second third moves move before step ih =>
      have hsecond := ih fun move hmem => hmoves move (List.mem_append_left _ hmem)
      obtain ⟨turned, hturn, hturned⟩ := hsecond.step step
      have hmove := hmoves move (List.mem_append_right _ (List.mem_singleton.mpr rfl))
      rwa [hturn.of_not_contends hmove] at hturned

/-- Cancelling and committing exclude each other.  In every order of steps at most one
attempt to cancel succeeds or one import commits, and not both.  Once an attempt has
succeeded no import changes catalog or files; once an import has committed every attempt
comes too late; and once a claim was given back the next attempt succeeds unless somebody
claims before. -/
theorem cancel_excludes_commit {first last : State ι} (hfresh : contest.Fresh first)
    (hrun : contest.Run first moves last) :
    moves.countP Move.decides ≤ 1 ∧
      (∀ entrant, .commit entrant ∈ moves ↔ (last.phase entrant).stake = .committed) ∧
      (.cancel .cancelled ∈ moves → ∀ move next, contest.Step last move next → move ≠ .others →
        next.world.catalog = last.world.catalog ∧ next.world.files = last.world.files) ∧
      ((∃ entrant, .commit entrant ∈ moves) →
        (last.world.tokens contest.token).cancel.1 = .pastCommitPoint) ∧
      ∀ entrant after later final, contest.Step last (.release entrant) after →
        contest.Run after later final → (∀ move ∈ later, ¬ move.Contends) →
        (final.world.tokens contest.token).cancel.1 = .cancelled := by
  obtain ⟨score, htells, hstands⟩ := hrun.stands hfresh
  refine ⟨?_, fun entrant => ?_, fun hcancelled => ?_, ?_, ?_⟩
  · exact htells.decisions ▸ score.decisions_le_one
  · rw [htells.committed, hstands.stakes]
    constructor
    · rintro rfl
      exact Score.stake_committed_self entrant
    · intro hstake
      exact hstands.committed ((hstands.stakes entrant).trans hstake)
  · obtain rfl := htells.cancelled.mp hcancelled
    exact fun move next hstep => hstep.stored_eq hstands.stakes
  · rintro ⟨entrant, hcommitted⟩
    obtain rfl := (htells.committed entrant).mp hcommitted
    rw [hstands.token]
    rfl
  · intro entrant after later final hrelease hlater hmoves
    obtain ⟨turned, hturn, hturned⟩ := hstands.step hrelease
    cases hturn with
    | release =>
        rw [(hlater.undecided hturned hmoves).token]
        rfl

/-- The import of the file `a` for a ticket that does not exist, alone with its token. -/
def ofUnknownTicket : Contest Unit where
  token := "t"
  importer := fun _ => .clicking
  job := fun _ => .ofUnknownTicket
  shared := fun _ => rfl

/-- The import claims the commit point and gives the claim back after the commit failed.
It can be cancelled then. -/
theorem cancel_excludes_commit_ofUnknownTicket :
    let begun : State Unit := ⟨.withOneFile, fun _ => .starting⟩
    ∃ failed released,
      ofUnknownTicket.Fresh begun ∧
      ofUnknownTicket.Run begun [.proceed (), .proceed (), .proceed (), .claim (), .proceed ()]
        failed ∧
      ofUnknownTicket.Step failed (.release ()) released ∧
      (released.world.tokens "t").cancel.1 = .cancelled := by
  intro begun
  have hfresh : ofUnknownTicket.Fresh begun := ⟨rfl, fun _ => rfl⟩
  have hadmit : World.withOneFile.admit ImportJob.ofUnknownTicket.path = .ok (.ok ⟨1, 0⟩) :=
    World.admit_withOneFile
  have hstart : (ofUnknownTicket.advance begun () .withOneFile).2 = .admitted ⟨1, 0⟩ := by
    simp only [advance, begun, ofUnknownTicket, Importer.advance, ImportJob.start, hadmit]
  have hadmitted := (Run.start begun).read trivial rfl hstart
  have hfingerprinted := hadmitted.step (.read _ () .withOneFile trivial rfl)
  have hresolved := hfingerprinted.step (.read _ () .withOneFile trivial rfl)
  have hclaimed := hresolved.step (.act _ () id)
  have hfailed := hclaimed.step (.act _ () id)
  obtain ⟨-, -, -, -, hreleased⟩ := cancel_excludes_commit hfresh hfailed
  exact ⟨_, _, hfresh, hfailed, .act _ () id,
    hreleased () _ [] _ (.act _ () id) (.start _) (by simp)⟩

end Contest

end AudioCatalog
