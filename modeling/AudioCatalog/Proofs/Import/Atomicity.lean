import Mathlib.Logic.Relation
import AudioCatalog.Proofs.FileSystem.Root
import AudioCatalog.Proofs.Import.Course

/-!
# Failed imports change nothing

An import that is not committed leaves catalog, files and tokens as they were, at
whatever stage it ends.  While others change catalog and files, cancel tokens and let
time pass between its steps, it adds nothing of its own: catalog and files change only by
what the others do, and the claim on the commit point is given back.  Other imports that
claim the same token meanwhile are not considered here.
-/

namespace AudioCatalog

open Relation

/-- What others can make of the first world: any number of their changes to catalog and
files, and attempts to cancel tokens.  The time does not matter. -/
structure World.LeftToOthers (others : Catalog × FileSystem Catalog →
    Catalog × FileSystem Catalog → Prop) (before after : World) : Prop where
  stored : ReflTransGen others (before.catalog, before.files) (after.catalog, after.files)
  tokens : ∀ name, after.tokens name = before.tokens name ∨
    after.tokens name = (before.tokens name).cancel.2

/-- Cancelling twice leaves a token as cancelling once does. -/
@[simp]
theorem CancelToken.cancel_cancel (token : CancelToken) :
    token.cancel.2.cancel.2 = token.cancel.2 := by
  cases token <;> rfl

namespace World

theorem setToken_tokens_self (world : World) (name : String) (token : CancelToken) :
    (world.setToken name token).tokens name = token :=
  if_pos rfl

theorem setToken_tokens_of_ne (world : World) {name other : String} (token : CancelToken)
    (ne : other ≠ name) : (world.setToken name token).tokens other = world.tokens other :=
  if_neg ne

/-- Setting a token to the state that it has changes nothing. -/
theorem setToken_eq_self {world : World} {name : String} {token : CancelToken}
    (h : world.tokens name = token) : world.setToken name token = world := by
  have tokens : (world.setToken name token).tokens = world.tokens := by
    funext other
    by_cases same : other = name
    · rw [same, setToken_tokens_self, h]
    · rw [setToken_tokens_of_ne world token same]
  exact congrArg (fun tokens => { world with tokens := tokens }) tokens

@[simp]
theorem setToken_setToken (world : World) (name : String) (first second : CancelToken) :
    (world.setToken name first).setToken name second = world.setToken name second := by
  have tokens : ((world.setToken name first).setToken name second).tokens =
      (world.setToken name second).tokens := by
    funext other
    by_cases same : other = name
    · rw [same, setToken_tokens_self, setToken_tokens_self]
    · rw [setToken_tokens_of_ne _ _ same, setToken_tokens_of_ne _ _ same,
        setToken_tokens_of_ne _ _ same]
  exact congrArg (fun tokens => { world with tokens := tokens }) tokens

namespace LeftToOthers

variable {others : Catalog × FileSystem Catalog → Catalog × FileSystem Catalog → Prop}
  {first second third : World}

theorem refl (world : World) : world.LeftToOthers others world :=
  ⟨.refl, fun _ => .inl rfl⟩

theorem trans (early : first.LeftToOthers others second)
    (late : second.LeftToOthers others third) : first.LeftToOthers others third := by
  refine ⟨early.stored.trans late.stored, fun name => ?_⟩
  rcases late.tokens name with hlate | hlate <;> rcases early.tokens name with hearly | hearly
  · exact .inl (hlate.trans hearly)
  · exact .inr (hlate.trans hearly)
  · exact .inr (by rw [hlate, hearly])
  · exact .inr (by rw [hlate, hearly, CancelToken.cancel_cancel])

/-- A claimed token stays claimed, and to give the claim back later is to give it back
before. -/
theorem setToken_pending {name : String} (h : first.LeftToOthers others second)
    (committing : first.tokens name = .committing) :
    second.tokens name = .committing ∧
      (first.setToken name .pending).LeftToOthers others (second.setToken name .pending) := by
  have still : second.tokens name = .committing := by
    rcases h.tokens name with same | cancelled
    · rw [same, committing]
    · rw [cancelled, committing]
      rfl
  refine ⟨still, h.stored, fun other => ?_⟩
  by_cases same : other = name
  · rw [same, setToken_tokens_self, setToken_tokens_self]
    exact .inl rfl
  · rw [setToken_tokens_of_ne _ _ same, setToken_tokens_of_ne _ _ same]
    exact h.tokens other

/-- Nobody who only cancels leaves a token claimed that was not. -/
theorem token (h : first.LeftToOthers others second) (name : String) :
    second.tokens name = first.tokens name ∨
      second.tokens name = (first.tokens name).cancel.2 ∧ second.tokens name ≠ .committing := by
  rcases h.tokens name with same | cancelled
  · exact .inl same
  · rw [cancelled]
    cases first.tokens name with
    | pending => exact .inr ⟨rfl, by decide⟩
    | cancelled => exact .inl rfl
    | committing => exact .inl rfl

end LeftToOthers

end World

namespace ImportJob

variable (others : Catalog × FileSystem Catalog → Catalog × FileSystem Catalog → Prop)
  (job : ImportJob)

/-- The world of an import that has claimed its commit point, as long as it has not
written: all would be left to the others if the claim were given back. -/
def Claiming (before now : World) : Prop :=
  match job.token with
  | none => before.LeftToOthers others now
  | some name => now.tokens name = .committing ∧
      before.LeftToOthers others (now.setToken name .pending)

/-- What is known in each phase of an import that began in a world, as long as it is not
committed. -/
def Pristine (before : World) : Phase → World → Prop
  | .starting | .admitted _ | .fingerprinted _ | .resolved .. => before.LeftToOthers others
  | .claimed .. | .rolledBack _ => job.Claiming others before
  | .committed _ => fun _ => True
  | .finished conclusion => fun now =>
      conclusion.receipt? = none → before.LeftToOthers others now

variable {others} {job}

theorem Claiming.trans {before first second : World}
    (claiming : job.Claiming others before first) (later : first.LeftToOthers others second) :
    job.Claiming others before second := by
  unfold Claiming at claiming ⊢
  cases htoken : job.token with
  | none =>
      simp only [htoken] at claiming ⊢
      exact claiming.trans later
  | some name =>
      simp only [htoken] at claiming ⊢
      obtain ⟨still, released⟩ := later.setToken_pending claiming.1
      exact ⟨still, claiming.2.trans released⟩

theorem claiming_of_claimed? {before world claimed : World}
    (h : job.claimed? world = some claimed) (quiet : before.LeftToOthers others world) :
    job.Claiming others before claimed := by
  unfold Claiming
  cases htoken : job.token with
  | none =>
      simp only [claimed?, htoken, Option.some.injEq] at h
      subst h
      exact quiet
  | some name =>
      simp only [claimed?, htoken, Option.map_eq_some_iff] at h
      obtain ⟨token, hclaim, rfl⟩ := h
      cases hpending : world.tokens name with
      | pending =>
          rw [hpending] at hclaim
          cases hclaim
          refine ⟨World.setToken_tokens_self .., ?_⟩
          rw [World.setToken_setToken, World.setToken_eq_self hpending]
          exact quiet
      | cancelled =>
          rw [hpending] at hclaim
          cases hclaim
      | committing =>
          rw [hpending] at hclaim
          cases hclaim

theorem Claiming.release {before now : World} (claiming : job.Claiming others before now) :
    before.LeftToOthers others (job.release now) := by
  unfold Claiming at claiming
  cases htoken : job.token with
  | none =>
      simp only [htoken] at claiming
      simp only [ImportJob.release, htoken]
      exact claiming
  | some name =>
      simp only [htoken] at claiming
      simp only [ImportJob.release, htoken, claiming.1, CancelToken.release]
      exact claiming.2

theorem Pristine.trans {before first second : World} {phase : Phase}
    (pristine : job.Pristine others before phase first)
    (later : first.LeftToOthers others second) : job.Pristine others before phase second := by
  cases phase with
  | starting | admitted _ | fingerprinted _ | resolved _ _ =>
      exact World.LeftToOthers.trans pristine later
  | claimed _ _ | rolledBack _ => exact Claiming.trans pristine later
  | committed _ => exact trivial
  | finished conclusion => exact fun failed => (pristine failed).trans later

end ImportJob

namespace Importer

variable (importer : Importer) (job : ImportJob)

/-- A step of an import that is not committed makes no lasting change. -/
theorem pristine_advance {others : Catalog × FileSystem Catalog →
    Catalog × FileSystem Catalog → Prop} {before world : World} {phase : Phase}
    (pristine : job.Pristine others before phase world) :
    job.Pristine others before (importer.advance job world phase).2
      (importer.advance job world phase).1 := by
  cases phase with
  | starting =>
      simp only [advance, ImportJob.start]
      split
      · exact fun _ => pristine
      · exact fun _ => pristine
      · exact pristine
  | admitted facts =>
      simp only [advance, examine]
      split
      · exact fun _ => pristine
      · split
        · exact fun _ => pristine
        · exact pristine
  | fingerprinted decoded =>
      simp only [advance, ImportJob.compare]
      split
      · exact fun _ => pristine
      · split
        · exact fun _ => pristine
        · exact pristine
  | resolved decoded resolution =>
      simp only [advance, ImportJob.claim_eq]
      split
      · next claimed hclaimed => exact ImportJob.claiming_of_claimed? hclaimed pristine
      · exact fun _ => pristine
  | claimed decoded resolution =>
      simp only [advance, ImportJob.commit]
      split
      · exact pristine
      · exact trivial
  | rolledBack error => exact fun _ => ImportJob.Claiming.release pristine
  | committed receipt =>
      simp only [advance, ImportJob.clear_eq]
      exact fun failed => by cases failed
  | finished conclusion => exact pristine

/-- An import that is not committed changes nothing: neither catalog nor files nor tokens
if it is alone, and while others act between its steps nothing beyond what they do
themselves.  In particular it leaves no token claimed. -/
theorem unchanged_of_not_committed (world : World) :
    ((importer.run job world).2.receipt? = none → (importer.run job world).1 = world) ∧
      ∀ {σ : Type} (others : Catalog × FileSystem Catalog → Catalog × FileSystem Catalog → Prop)
        (observe : Phase → World × σ → World × σ) (rest : σ),
        (∀ phase state, World.LeftToOthers others state.1 (observe phase state).1) →
        (importer.drive job observe (world, rest) .starting).2.receipt? = none →
        let after := (importer.drive job observe (world, rest) .starting).1.1
        ReflTransGen others (world.catalog, world.files) (after.catalog, after.files) ∧
          ∀ name, after.tokens name = world.tokens name ∨
            after.tokens name = (world.tokens name).cancel.2 ∧
              after.tokens name ≠ .committing := by
  refine ⟨fun failed => ?_, fun others observe rest interfering failed => ?_⟩
  · rcases importer.run_cases job world with ⟨same, -⟩ | ⟨_, _, _, _, _, _, -, -, hrun⟩
    · exact same
    · rw [hrun] at failed
      cases failed
  · have pristine := importer.drive_invariant job observe
      (fun phase state => job.Pristine others world phase state.1)
      (fun phase state pristine => pristine.trans (interfering phase state))
      (fun phase current rest _ pristine => importer.pristine_advance job pristine)
      (world, rest) .starting (World.LeftToOthers.refl world)
    have quiet := pristine failed
    exact ⟨quiet.stored, quiet.token⟩

/-- A recording of one sample, for which there is no fingerprint. -/
def click : Recording where
  metadata := .empty
  fingerprint := none
  stream := ⟨44100, 1, .int16 [0]⟩

/-- An importer to which every file is the same click. -/
def clicking : Importer where
  decoder := fun _ _ => .answered click
  timeout := .ofParts 1 0

end Importer

/-- A world with an empty catalog and one file of one byte, which is called `a`. -/
def World.withOneFile : World where
  catalog := .empty
  files := ⟨[([97], .file (.data [0] 1) 0)], []⟩
  tokens := fun _ => .pending
  now := 0

/-- The import of the file `a`, not to be kept, for a ticket that does not exist. -/
def ImportJob.ofUnknownTicket : ImportJob where
  path := ⟨[47, 97]⟩
  handling := ⟨false, true⟩
  route := .deferred
  ticket := some ⟨7⟩
  token := some "t"

/-- The file `a` is admitted. -/
theorem World.admit_withOneFile : World.withOneFile.admit ⟨[47, 97]⟩ = .ok (.ok ⟨1, 0⟩) := by
  have hname : PlainName [97] := by decide
  have hchild : World.withOneFile.files.root.child? [97] = some (.file (.data [0] 1) 0) := rfl
  exact hname.admitted (by decide) hchild (by decide)

namespace Importer

/-- The ticket is looked for only after the rows of identity and source were made, and the
token is claimed by then. -/
theorem run_ofUnknownTicket :
    (clicking.run .ofUnknownTicket .withOneFile).2 =
      .error ⟨⟨[47, 97]⟩, .committed, .unknownTicket ⟨7⟩⟩ := by
  have hadmission : World.withOneFile.admit ImportJob.ofUnknownTicket.path =
      .ok (.ok ⟨1, 0⟩) := World.admit_withOneFile
  have hdecode : clicking.decode .withOneFile ImportJob.ofUnknownTicket.path ⟨1, 0⟩ =
      .ok ⟨⟨1, 0⟩, .empty, click.stream.digest, none⟩ := rfl
  rw [run_eq, hadmission]
  simp only [hdecode]
  rfl

/-- The import of the file `a` by its name is committed, whenever it is done. -/
theorem run_direct_withOneFile (now : Timestamp) : ∃ receipt,
    (clicking.run (.direct ⟨[47, 97]⟩ ⟨true, true⟩ none) { World.withOneFile with now := now }).2 =
      .ok (.committed receipt) ∧ .digestOnly ∈ receipt.remarks := by
  have hadmission : World.admit { World.withOneFile with now := now }
      (ImportJob.direct ⟨[47, 97]⟩ ⟨true, true⟩ none).path = .ok (.ok ⟨1, 0⟩) :=
    World.admit_withOneFile
  have hdecode : clicking.decode { World.withOneFile with now := now }
      (ImportJob.direct ⟨[47, 97]⟩ ⟨true, true⟩ none).path ⟨1, 0⟩ =
        .ok ⟨⟨1, 0⟩, .empty, click.stream.digest, none⟩ := rfl
  rw [run_eq, hadmission]
  simp only [hdecode]
  exact ⟨_, rfl, List.mem_singleton.mpr rfl⟩

theorem unchanged_of_unknown_ticket :
    (clicking.run .ofUnknownTicket .withOneFile).2.receipt? = none ∧
      (clicking.run .ofUnknownTicket .withOneFile).1 = .withOneFile ∧
      (clicking.drive .ofUnknownTicket (fun _ state => state) (.withOneFile, ())
        .starting).1.1.tokens "t" ≠ .committing := by
  have failed : (clicking.run .ofUnknownTicket .withOneFile).2.receipt? = none := by
    rw [run_ofUnknownTicket]
    rfl
  refine ⟨failed, (unchanged_of_not_committed _ _ _).1 failed, fun claimed => ?_⟩
  have token := ((unchanged_of_not_committed clicking .ofUnknownTicket .withOneFile).2
    (fun _ _ => False) (fun _ state => state) () (fun _ state => .refl state.1) failed).2 "t"
  rcases token with same | ⟨-, unclaimed⟩
  · rw [same] at claimed
    cases claimed
  · exact unclaimed claimed

end Importer

end AudioCatalog
