import AudioCatalog.Import.Stripes
import AudioCatalog.Proofs.Import.Serial
import AudioCatalog.Proofs.Session.Reimport

/-!
# Decisions in sessions

What an import decides at its look-up does not become wrong by what others import meanwhile, as
long as nobody imports the same recording.  It may no longer be what the import would decide
now: two files that sound alike both become new identities if both imports look into the
catalog before either commits.
-/

namespace AudioCatalog

open Contest (State)
open Relation

/-- Identities of a sound catalog are told apart by their digests. -/
theorem Catalog.Sound.nodup_digests {catalog : Catalog} (hsound : catalog.Sound)
    {identities : List Identity} (h : catalog.contents = .ok identities) :
    (identities.map (·.digest)).Nodup := by
  obtain ⟨ledger, hkeeps, hledger, -⟩ := hsound
  rw [hkeeps.contents, demandVisible] at h
  split at h
  · cases h
  · obtain rfl : ledger.map Identity.asStored = identities := Except.ok.inj h
    rw [List.map_map]
    exact hledger.digests

/-- What lasts of a commit can be read in the snapshot. -/
theorem Parallel.Lasts.exists_identity {ι κ : Type} {parallel : Parallel ι κ} {commit : Commit ι}
    {catalog : Catalog} (hlasts : parallel.Lasts commit catalog) (hsound : catalog.Sound) :
    ∃ identities, catalog.contents = .ok identities ∧
      ∃ identity ∈ identities, identity.id = commit.receipt.identity ∧
        (∃ source ∈ identity.sources, source.state =
          ((parallel.job commit.entrant).deposit commit.decoded commit.now).source.state) ∧
        (commit.receipt.effect = .inserted →
          ∀ other ∈ identities, other.digest = commit.receipt.digest ↔ other = identity) := by
  obtain ⟨hvisible, ⟨ledger, hkeeps, identity, hmem, hid, source, hsource, hstate⟩, -, hhas⟩ :=
    hlasts
  have hcontents := hkeeps.contents_eq_ok hvisible
  refine ⟨_, hcontents, identity.asStored, List.mem_map_of_mem hmem, hid,
    ⟨source.asStored, List.mem_map_of_mem hsource, hstate⟩, fun hinserted => ?_⟩
  obtain ⟨known, hknown, hsame, hdigest⟩ := hkeeps.has_iff.mp (hhas hinserted)
  obtain rfl := hkeeps.eq_of_id_eq hknown hmem (hsame.trans hid.symm)
  rintro other hother
  constructor
  · intro hother'
    exact List.inj_on_of_nodup_map (hsound.nodup_digests hcontents) hother
      (List.mem_map_of_mem hmem) (hother'.trans hdigest.symm)
  · rintro rfl
    exact hdigest

/-- The decision of an import stands while others import other digests.  In whatever way a
session has come to its catalog, what an import decides at its look-up can be committed after
any commits of other digests, unless the catalog cannot be written.

If any number of imports run side by side and those that share a lock take turns, no commit of
a known ticket fails for any other reason.  Every import that ends with a receipt has committed
what the receipt tells of; from then on the file is among the sources of the identity on the
receipt.  No two commits make identities of the same digest, and an identity that was made is
the only one of its digest. -/
theorem Session.decision_stands {first : Session} {storage : Storage} {world : World}
    {answers : List Answer} (hfresh : first.Fresh)
    (hrun : Run first answers (opened storage world)) :
    (∀ (job : ImportJob) (decoded : Decoded) (resolution : Resolution),
      job.path.text?.isSome →
      identify decoded.digest decoded.key world.catalog.lookup job.handling.careful =
        .ok resolution →
      (∀ id ∈ job.ticket, (world.catalog.tickets.row? id.value).isSome) →
      ∀ later : World,
        ReflTransGen (Catalog.Beside decoded.digest) world.catalog later.catalog →
        (∀ error, job.write later decoded resolution = .error error →
          ∃ fault, error = .store fault) ∧
        (later.catalog.locked = false → later.catalog.access ≠ .readOnly →
          later.catalog.identities.greatestId < Table.idLimit →
          later.catalog.sources.greatestId < Table.idLimit →
          ∃ written, job.write later decoded resolution = .ok written)) ∧
    ∀ {ι κ : Type} [DecidableEq ι] (parallel : Parallel ι κ)
      (commits : List (Parallel.Commit ι)) (last : State ι),
      parallel.Run World.LeftAlone ⟨world, fun _ => .starting⟩ commits last →
      (∀ entrant, (∀ id ∈ (parallel.job entrant).ticket,
          (world.catalog.tickets.row? id.value).isSome) →
        ∀ path error, last.phase entrant = .finished (.error ⟨path, .committed, error⟩) →
          ∃ fault, error = .store fault) ∧
      (∀ entrant receipt, last.phase entrant = .finished (.ok (.committed receipt)) →
        ∃ commit ∈ commits, commit.entrant = entrant ∧ commit.Shows receipt) ∧
      (Parallel.inserted commits).Nodup ∧
      ∀ commit ∈ commits, ∃ identities, last.world.catalog.contents = .ok identities ∧
        ∃ identity ∈ identities, identity.id = commit.receipt.identity ∧
          (∃ source ∈ identity.sources, source.state =
            ((parallel.job commit.entrant).deposit commit.decoded commit.now).source.state) ∧
          (commit.receipt.effect = .inserted →
            ∀ other ∈ identities, other.digest = commit.receipt.digest ↔ other = identity) := by
  have hsound : world.catalog.Sound := sound_of_run hfresh hrun (.refl _)
  constructor
  · intro job decoded resolution htext hidentified hknown later hbeside
    obtain ⟨-, hstands, htickets⟩ :=
      (hsound.standsIn_of_identify hidentified).beside hsound hbeside
    have hstill : ∀ id ∈ job.ticket, (later.catalog.tickets.row? id.value).isSome := by
      intro id hid
      rw [htickets]
      exact hknown id hid
    refine ⟨fun error herror => ?_, fun hunlocked hwritable hidentities hsources =>
      ImportJob.exists_write htext hstands ⟨hunlocked, hwritable, hstill⟩ hidentities hsources⟩
    cases ImportJob.refuses_write htext hstands herror with
    | locked | readOnly | full => exact ⟨_, rfl⟩
    | unknownTicket hown hunknown =>
        have hthere := hstill _ hown
        rw [hunknown] at hthere
        cases hthere
  · intro ι κ _ parallel commits last hrun
    have hknows := hrun.knows (.of_starting hsound)
    refine ⟨fun entrant hknown path error hphase => ?_, fun entrant receipt hphase => ?_,
      hknows.distinct, fun commit hmem => (hknows.lasts commit hmem).exists_identity hknows.sound⟩
    · have hfares := hknows.fares entrant
      rw [hphase] at hfares
      rcases hfares.1 path error rfl with hfault | ⟨id, hid, hunknown⟩
      · exact hfault
      · have hthere := hknown id hid
        rw [hunknown] at hthere
        cases hthere
    · have hfares := hknows.fares entrant
      rw [hphase] at hfares
      exact hfares.2 receipt rfl

/-! ## Two files that sound alike, at once -/

namespace Parallel

/-- Careful imports of the two files by some jobs, with four locks for all digests. -/
def alike (job : Bool → ImportJob) : Parallel Bool Nat where
  importer second := (Errand.twin second true).importer
  job := job
  lock := (LockStripes.ofCount 4).stripeOf

/-- Careful imports of the two files, with four locks for all digests. -/
def twins : Parallel Bool Nat where
  importer second := (Errand.twin second true).importer
  job second := (Errand.twin second true).job
  lock := (LockStripes.ofCount 4).stripeOf

theorem lock_twins_ne : twins.lock (Decoded.twin true).digest ≠
    twins.lock (Decoded.twin false).digest := by
  decide +kernel

/-- Neither of the two waits for the other, since their locks differ. -/
theorem mayEnter_alike {job : Bool → ImportJob} {state : State Bool} {second : Bool}
    {resolution : Resolution}
    (hother : ∀ held ∈ (state.phase !second).lockedDigest?, held = (Decoded.twin !second).digest) :
    (alike job).MayEnter state second (.resolved (.twin second) resolution) := by
  rintro _ ⟨⟩ other hne held hheld
  obtain rfl : other = !second := Bool.eq_not.mpr hne
  rw [hother held hheld]
  cases second with
  | false => exact lock_twins_ne
  | true => exact lock_twins_ne.symm

/-- What each of the two decides in the empty catalog. -/
def decision (second : Bool) : Resolution :=
  resolutionIn [] (Decoded.twin second).digest (Decoded.twin second).key true

theorem verdict_decision (second : Bool) : (decision second).verdict = .new :=
  verdict_resolutionIn_nil _ _ _

theorem identify_twin {world : World} {imports : Nat} (htwins : world.Twins [] imports)
    (second : Bool) :
    identify (Decoded.twin second).digest (Decoded.twin second).key world.catalog.lookup true =
      .ok (decision second) := by
  rw [htwins.keeps.identify_eq_resolutionIn, Catalog.demandVisible, htwins.access]
  rfl

theorem matched_decision (second : Bool) : (decision second).verdict.matched = none := by
  rw [verdict_decision]
  rfl

/-- A decision for no identity makes an identity where it stands. -/
theorem exists_write_twin {world : World} {ledger : List Identity} {imports : Nat}
    (htwins : world.Twins ledger imports) (hnumbers : (ledger.length : Int) < Table.idLimit)
    (hroom : (imports : Int) < Table.idLimit) {job : ImportJob} {second : Bool}
    (hjob : job.OfTwin second true)
    (hknown : ∀ id ∈ job.ticket, (world.catalog.tickets.row? id.value).isSome)
    (hstands : (decision second).StandsIn world.catalog (Decoded.twin second).digest) :
    ∃ catalog entry,
      job.write world (.twin second) (decision second) =
        .ok (⟨ledger.length + 1⟩, .inserted, catalog) ∧
      { world with catalog := catalog }.Twins (ledger ++ [entry]) (imports + 1) := by
  have htext : job.path.text?.isSome := by
    rw [hjob.path]
    cases second <;> decide
  rw [← htwins.identities] at hnumbers
  rw [← htwins.sources] at hroom
  obtain ⟨⟨id, effect, catalog⟩, hwritten⟩ := ImportJob.exists_write htext hstands
    (htwins.accepted_of hjob hknown).openFor hnumbers hroom
  obtain ⟨hsources, hidentities⟩ := ImportJob.greatestId_write htwins.keeps hwritten
  obtain ⟨⟨_, _, hcatalog⟩, ⟨rfl, -, hid, -, hkept⟩ | ⟨-, hmatched, -⟩⟩ :=
    ImportJob.write_cases htwins.keeps hwritten
  · rw [htwins.identities] at hid hidentities
    rw [htwins.sources] at hsources
    obtain rfl : id = ⟨ledger.length + 1⟩ := congrArg IdentityId.mk hid
    refine ⟨catalog, _, hwritten, htwins.files, hkept, ?_, ?_, ?_, hsources⟩
    · rw [hcatalog]
      exact htwins.access
    · rw [hcatalog]
      exact htwins.locked
    · rw [List.length_append]
      exact hidentities
  · rw [matched_decision] at hmatched
    cases hmatched

section Alike

variable {job : Bool → ImportJob} {start : World} {others : World → World → Prop}

/-- Both imports decode their files. -/
theorem run_ready_alike (hstart : start.Twins [] 0)
    (hjobs : ∀ second, (job second).OfTwin second true)
    (hknown : ∀ second, ∀ id ∈ (job second).ticket, (start.catalog.tickets.row? id.value).isSome) :
    (alike job).Run others ⟨start, fun _ => .starting⟩ [] (ready .twin start) := by
  have haccepted := fun second => hstart.accepted_of (hjobs second) (hknown second)
  have huncancelled : ∀ second world, (job second).wasCancelled world = false := by
    intro second world
    simp only [ImportJob.wasCancelled, (hjobs second).token]
  have hbefore : (alike job).Run others ⟨start, fun _ => .starting⟩ [] _ := .start _
  have hdecode := hbefore.decode false rfl (haccepted false).admitted (huncancelled _ _)
    (haccepted false).decodes
  have hdecode := hdecode.decode true rfl (haccepted true).admitted (huncancelled _ _)
    (haccepted true).decodes
  have hready : ready .twin start =
      ((⟨start, fun _ => .starting⟩ : State Bool).enter false start
        (.fingerprinted (.twin false))).enter true start (.fingerprinted (.twin true)) := by
    refine congrArg (State.mk _) (funext fun second => ?_)
    cases second <;> rfl
  rw [hready]
  exact hdecode

/-- Both imports run side by side: both look before either commits, and so each makes an identity
of its own. -/
theorem exists_run_alike (hstart : start.Twins [] 0)
    (hjobs : ∀ second, (job second).OfTwin second true)
    (hknown : ∀ second, ∀ id ∈ (job second).ticket, (start.catalog.tickets.row? id.value).isSome)
    (hsound : start.catalog.Sound) {first : State Bool}
    (hready : (alike job).Run others first [] (ready .twin start)) :
    ∃ (last : State Bool) (commits : List (Commit Bool)) (receipt : Bool → Receipt),
      (alike job).Run others first commits last ∧
      (∀ second, last.phase second = .finished (.ok (.committed (receipt second))) ∧
        (receipt second).verdict = .new ∧ (receipt second).effect = .inserted ∧
        (receipt second).digest = (Decoded.twin second).digest ∧
        (receipt second).identity = if second then ⟨2⟩ else ⟨1⟩) ∧
      commits.map (·.receipt) = [receipt false, receipt true] ∧
      last.world.catalog.size = .ok 2 := by
  have hlimit : ∀ count : Nat, count ≤ 1 → (count : Int) < Table.idLimit := by
    intro count hcount
    rw [Table.idLimit]
    omega
  have hstanding := fun second => hsound.standsIn_of_identify (identify_twin hstart second)
  obtain ⟨between, one, hfirst, hbetween⟩ := exists_write_twin hstart (hlimit 0 (by decide))
    (hlimit 0 (by decide)) (hjobs false) (hknown false) (hstanding false)
  obtain ⟨-, hkept⟩ := ImportJob.frame_of_write hsound hfirst
  have hstill : ∀ id ∈ (job true).ticket, (between.tickets.row? id.value).isSome := by
    intro id hid
    rw [hkept]
    exact hknown true id hid
  have hstands := (hstanding true).write hsound Decoded.digest_twin_ne.symm hfirst
  obtain ⟨after, two, hsecond, hafter⟩ := exists_write_twin hbetween (hlimit 1 (by decide))
    (hlimit 1 (by decide)) (hjobs true) hstill hstands
  have huncancelled : ∀ second world, (job second).wasCancelled world = false := by
    intro second world
    simp only [ImportJob.wasCancelled, (hjobs second).token]
  have hclaimed : ∀ second world, (job second).claimed? world = some world := by
    intro second world
    simp only [ImportJob.claimed?, (hjobs second).token]
  have hcleared : ∀ second world receipt,
      (job second).cleared world receipt = (world, receipt) := by
    intro second world receipt
    rw [ImportJob.cleared, if_pos (congrArg Handling.keepFile (hjobs second).handling)]
  have hdecides : ∀ second, identify (Decoded.twin second).digest (Decoded.twin second).key
      start.catalog.lookup (job second).handling.careful = .ok (decision second) := by
    intro second
    rw [(hjobs second).handling]
    exact identify_twin hstart second
  have hlook := hready.look false rfl (huncancelled _ _) (hdecides false)
    (mayEnter_alike fun _ hheld => absurd hheld (Option.not_mem_none _))
  have hlook := hlook.look true rfl (huncancelled _ _) (hdecides true)
    (mayEnter_alike fun _ hheld => (Option.some.inj hheld).symm)
  have hwrite := hlook.write false rfl (hclaimed _ _)
    (mayEnter_alike fun _ hheld => (Option.some.inj hheld).symm) hfirst
  have hwrite := hwrite.write true rfl (hclaimed _ _)
    (mayEnter_alike fun _ hheld => absurd hheld (Option.not_mem_none _)) hsecond
  have hend := (hwrite.finish false rfl).finish true rfl
  simp only [alike, hcleared] at hend
  refine ⟨_, _, fun second => (job second).receipt (.twin second) (decision second)
    (if second then ⟨2⟩ else ⟨1⟩) .inserted, hend, ?_, rfl, hafter.keeps.size_eq ?_⟩
  · intro second
    refine ⟨?_, verdict_decision second, rfl, rfl, rfl⟩
    cases second <;> rfl
  · rw [hafter.access]
    decide

end Alike

/-- Both imports decode their files. -/
theorem run_ready_twins (others : World → World → Prop) :
    twins.Run others ⟨.withTwins, fun _ => .starting⟩ [] (ready .twin .withTwins) :=
  run_ready_alike .start (fun second => .direct second true) fun _ _ hid => nomatch hid

/-- Both imports run side by side. -/
theorem exists_run_twins {others : World → World → Prop} {first : State Bool}
    (hready : twins.Run others first [] (ready .twin .withTwins)) :
    ∃ (last : State Bool) (commits : List (Commit Bool)) (receipt : Bool → Receipt),
      twins.Run others first commits last ∧
      (∀ second, last.phase second = .finished (.ok (.committed (receipt second))) ∧
        (receipt second).verdict = .new ∧ (receipt second).effect = .inserted ∧
        (receipt second).digest = (Decoded.twin second).digest ∧
        (receipt second).identity = if second then ⟨2⟩ else ⟨1⟩) ∧
      commits.map (·.receipt) = [receipt false, receipt true] ∧
      last.world.catalog.size = .ok 2 :=
  exists_run_alike .start (fun second => .direct second true) (fun _ _ hid => nomatch hid)
    (.of_empty rfl rfl rfl) hready

end Parallel

/-- Of the two files each makes an identity, although both imports looked into the empty catalog,
and what one of them has decided can be committed after the other. -/
theorem Session.decision_stands_for_twins :
    (∃ between written,
      (Parallel.twins.job false).write .withTwins (.twin false) (Parallel.decision false) =
        .ok (⟨1⟩, .inserted, between) ∧
      (Parallel.twins.job true).write { World.withTwins with catalog := between } (.twin true)
        (Parallel.decision true) = .ok written) ∧
    ∃ (last : State Bool) (commits : List (Parallel.Commit Bool)),
      Parallel.twins.Run World.LeftAlone ⟨.withTwins, fun _ => .starting⟩ commits last ∧
      commits.map (·.receipt.identity) = [⟨1⟩, ⟨2⟩] ∧ (Parallel.inserted commits).Nodup ∧
      ∀ commit ∈ commits, ∃ identities, last.world.catalog.contents = .ok identities ∧
        ∃ identity ∈ identities, identity.id = commit.receipt.identity := by
  have hfresh : (opened .exclusive .withTwins).Fresh := .refl _
  obtain ⟨hdecision, hparallel⟩ := decision_stands hfresh (.start _)
  have hstanding := Catalog.Sound.standsIn_of_identify (.of_empty rfl rfl rfl)
    (Parallel.identify_twin .start false)
  obtain ⟨between, one, hfirst, hbetween⟩ := Parallel.exists_write_twin .start (by decide)
    (by decide) (.direct false true) (fun _ hid => nomatch hid) hstanding
  have hbeside : Catalog.Beside (Decoded.twin true).digest World.withTwins.catalog between :=
    .commit Decoded.digest_twin_ne.symm hfirst
  obtain ⟨-, hstands⟩ := hdecision (Parallel.twins.job true) (.twin true) (Parallel.decision true)
    (by decide) (Parallel.identify_twin .start true) (fun _ hid => nomatch hid)
    { World.withTwins with catalog := between } (.single hbeside)
  have hlimit : ((1 : Nat) : Int) < Table.idLimit := by decide
  have hvisible : Access.full ≠ .readOnly := by decide
  obtain ⟨written, hsecond⟩ := hstands hbetween.locked (hbetween.access ▸ hvisible)
    (hbetween.identities ▸ hlimit) (hbetween.sources ▸ hlimit)
  obtain ⟨last, commits, receipt, hrun, hreceipts, hcommits, -⟩ :=
    Parallel.exists_run_twins (Parallel.run_ready_twins World.LeftAlone)
  obtain ⟨-, -, hdistinct, hidentities⟩ := hparallel Parallel.twins commits last hrun
  refine ⟨⟨between, written, hfirst, hsecond⟩, last, commits, hrun, ?_, hdistinct, ?_⟩
  · have hids := congrArg (List.map (·.identity)) hcommits
    rw [List.map_map, List.map_cons, List.map_singleton] at hids
    rw [(hreceipts false).2.2.2.2, (hreceipts true).2.2.2.2] at hids
    exact hids
  · intro commit hmem
    obtain ⟨identities, hcontents, identity, hidentity, hid, -⟩ := hidentities commit hmem
    exact ⟨identities, hcontents, identity, hidentity, hid⟩

end AudioCatalog
