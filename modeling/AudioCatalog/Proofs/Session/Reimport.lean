import AudioCatalog.Proofs.Import.Orders
import AudioCatalog.Proofs.Session.Vouching

/-!
# Importing a known file again

A file that was imported before and has not changed is given the same identity again, and no
identity is made: unless it was only found to sound like the identity that it was given.  For
then its digest is another one, and an import that goes by the digest cannot find the identity.
-/

namespace AudioCatalog

/-! ## Imports of known files -/

namespace Errand

variable {errand : Errand} {world : World} {ledger : List Identity} {decoded : Decoded}

/-- A file that is accepted is compared over the ledger. -/
theorem Accepted.identified (haccepted : errand.Accepted world decoded)
    (hkeeps : world.catalog.Keeps ledger) :
    identify decoded.digest decoded.key world.catalog.lookup errand.job.handling.careful =
      .ok (resolutionIn ledger decoded.digest decoded.key errand.job.handling.careful) := by
  rw [hkeeps.identify_eq_resolutionIn, Catalog.demandVisible, if_neg haccepted.visible]
  rfl

/-- An import of a file that is accepted can be committed, in careful mode or not. -/
theorem exists_commits (hkeeps : world.catalog.Keeps ledger)
    (haccepted : errand.Accepted world decoded)
    (hnumbers : (∀ identity ∈ ledger, identity.digest ≠ decoded.digest) →
      world.catalog.identities.greatestId < Table.idLimit)
    (hroom : world.catalog.sources.greatestId < Table.idLimit) :
    ∃ id effect catalog, errand.importer.Commits errand.job world decoded
      (resolutionIn ledger decoded.digest decoded.key errand.job.handling.careful) id effect
        catalog := by
  have htext : (errand.job.deposit decoded world.now).source.Textual :=
    World.text_of_admitted haccepted.admitted
  have hwritten : ∃ written, errand.job.write world decoded
      (resolutionIn ledger decoded.digest decoded.key errand.job.handling.careful) =
        .ok written := by
    rcases matched_resolutionIn ledger decoded.digest decoded.key errand.job.handling.careful with
      ⟨identity, hmem, hmatched⟩ | ⟨hmatched, hnew⟩
    · have hadded : ∃ next, world.catalog.addSource identity.id
          (errand.job.deposit decoded world.now).source (some decoded.metadata) errand.job.ticket
            world.now = .ok next :=
        (hkeeps.exists_addSource_iff ⟨identity, hmem, rfl⟩ htext hroom).mpr haccepted.openFor
      simp only [ImportJob.write, hmatched]
      exact exists_map_eq_ok_iff.mpr hadded
    · have hadded : ∃ added, world.catalog.addIdentity
          (errand.job.deposit decoded world.now).draft
            (errand.job.deposit decoded world.now).source errand.job.ticket world.now =
              .ok added :=
        (hkeeps.exists_addIdentity_iff hnew htext (hnumbers hnew) hroom).mpr haccepted.openFor
      simp only [ImportJob.write, hmatched]
      exact exists_map_eq_ok_iff.mpr hadded
  obtain ⟨⟨id, effect, catalog⟩, hwritten⟩ := hwritten
  exact ⟨id, effect, catalog, haccepted.admitted,
    ImportJob.wasCancelled_of_claimed? haccepted.claimable, haccepted.decodes,
    haccepted.identified hkeeps, hwritten⟩

/-- What is committed for a file that is accepted is in the catalog and on the receipt. -/
theorem exists_run (hkeeps : world.catalog.Keeps ledger) (haccepted : errand.Accepted world decoded)
    {resolution : Resolution} {id : IdentityId} {effect : CommitEffect} {catalog : Catalog}
    (hcommits : errand.importer.Commits errand.job world decoded resolution id effect catalog) :
    ∃ next receipt,
      errand.importer.run errand.job world = (next, .ok (.committed receipt)) ∧
      receipt.identity = id ∧ receipt.effect = effect ∧ next.catalog = catalog ∧
      catalog.access ≠ .blind := by
  obtain ⟨claimed, hclaimed⟩ := Option.isSome_iff_exists.mp haccepted.claimable
  obtain ⟨⟨_, _, hcatalog⟩, -⟩ := ImportJob.write_cases hkeeps hcommits.written
  obtain ⟨hid, heffect⟩ := errand.job.receipt_cleared { claimed with catalog := catalog }
    (errand.job.receipt decoded resolution id effect)
  refine ⟨_, _, errand.importer.run_of_commits errand.job hcommits hclaimed, hid, heffect,
    errand.job.catalog_cleared _ _, ?_⟩
  rw [hcatalog]
  exact haccepted.visible

end Errand

/-- Where look-ups see anything, there are as many identities as entries. -/
theorem Catalog.Keeps.size_eq {catalog : Catalog} {ledger : List Identity}
    (hkeeps : catalog.Keeps ledger) (hvisible : catalog.access ≠ .blind) :
    catalog.size = .ok ledger.length := by
  rw [size, demandVisible, if_neg hvisible, hkeeps.identities, List.length_map]
  rfl

/-- An identity has one digest. -/
theorem Catalog.Keeps.digest_eq_of_has {catalog : Catalog} {ledger : List Identity}
    (hkeeps : catalog.Keeps ledger) {id : IdentityId} {digest other : Digest}
    (hhas : catalog.Has id digest) (hother : catalog.Has id other) : digest = other := by
  obtain ⟨identity, hmem, hid, hdigest⟩ := hkeeps.has_iff.mp hhas
  obtain ⟨same, hsame, hid', hdigest'⟩ := hkeeps.has_iff.mp hother
  obtain rfl := hkeeps.eq_of_id_eq hmem hsame (hid.trans hid'.symm)
  exact hdigest.symm.trans hdigest'

/-- A file of which there is an identity with the digest is given this identity. -/
theorem Errand.run_of_has {errand : Errand} {world : World} {decoded : Decoded} {id : IdentityId}
    (hsound : world.catalog.Sound) (haccepted : errand.Accepted world decoded)
    (hroom : world.catalog.sources.greatestId < Table.idLimit)
    (hhas : world.catalog.Has id decoded.digest) :
    ∃ next receipt count,
      errand.importer.run errand.job world = (next, .ok (.committed receipt)) ∧
      receipt.identity = id ∧ receipt.effect = .attached ∧ next.catalog.Has id decoded.digest ∧
      world.catalog.size = .ok count ∧ next.catalog.size = .ok count := by
  have ⟨ledger, hkeeps, hledger, _⟩ := hsound
  obtain ⟨identity, hmem, hid, hdigest⟩ := hkeeps.has_iff.mp hhas
  have hresolution : resolutionIn ledger decoded.digest decoded.key errand.job.handling.careful =
      ⟨.exact id, false⟩ := by
    rcases resolutionIn_cases ledger decoded.digest with
      ⟨other, hother, hsame, hfound⟩ | ⟨hnew, _⟩
    · rw [hfound, ← hid]
      have heq := List.inj_on_of_nodup_map hledger.digests hother hmem (hsame.trans hdigest.symm)
      rw [heq]
    · exact absurd hdigest (hnew identity hmem)
  obtain ⟨given, effect, catalog, hcommits⟩ := exists_commits hkeeps haccepted
    (fun hnew => absurd hdigest (hnew identity hmem)) hroom
  rw [hresolution] at hcommits
  obtain ⟨next, receipt, hrun, hidentity, heffect, rfl, hvisible⟩ :=
    exists_run hkeeps haccepted hcommits
  obtain ⟨-, ⟨-, hnone, -⟩ | ⟨rfl, hmatched, -, hkept⟩⟩ :=
    ImportJob.write_cases hkeeps hcommits.written
  · cases hnone
  · cases hmatched
    refine ⟨next, receipt, ledger.length, hrun, hidentity, heffect,
      hhas.write (ImportJob.write_of_write hcommits.written) hsound,
      hkeeps.size_eq haccepted.visible, ?_⟩
    rw [hkept.size_eq hvisible, extendEntry, List.length_map]

/-- A file of which there is no identity with the digest is made one, under a number that none
had before, if only digests are compared. -/
theorem Errand.run_of_forall_not_has {errand : Errand} {world : World} {decoded : Decoded}
    (hsound : world.catalog.Sound) (hexact : errand.job.handling.careful = false)
    (haccepted : errand.Accepted world decoded)
    (hnumbers : world.catalog.identities.greatestId < Table.idLimit)
    (hroom : world.catalog.sources.greatestId < Table.idLimit)
    (hnew : ∀ id, ¬ world.catalog.Has id decoded.digest) :
    ∃ next receipt count,
      errand.importer.run errand.job world = (next, .ok (.committed receipt)) ∧
      (∀ id digest, world.catalog.Has id digest → receipt.identity ≠ id) ∧
      receipt.effect = .inserted ∧ next.catalog.Has receipt.identity decoded.digest ∧
      world.catalog.size = .ok count ∧ next.catalog.size = .ok (count + 1) := by
  obtain ⟨ledger, hkeeps, -, -⟩ := hsound
  have hunknown : ∀ identity ∈ ledger, identity.digest ≠ decoded.digest :=
    fun identity hmem hdigest => hnew _ (hkeeps.has_iff.mpr ⟨identity, hmem, rfl, hdigest⟩)
  obtain ⟨given, effect, catalog, hcommits⟩ :=
    exists_commits hkeeps haccepted (fun _ => hnumbers) hroom
  rw [hexact, resolutionIn_of_forall_ne hunknown] at hcommits
  obtain ⟨next, receipt, hrun, rfl, heffect, rfl, hvisible⟩ :=
    exists_run hkeeps haccepted hcommits
  obtain ⟨-, ⟨rfl, -, -, -, hkept⟩ | ⟨-, hmatched, -⟩⟩ :=
    ImportJob.write_cases hkeeps hcommits.written
  · refine ⟨next, receipt, ledger.length, hrun, ?_, heffect,
      hkept.has_iff.mpr ⟨_, List.mem_append_right _ (List.mem_singleton.mpr rfl), rfl, rfl⟩,
      hkeeps.size_eq haccepted.visible, ?_⟩
    · rintro id digest ⟨row, hrow, -⟩ rfl
      have hlt := ImportJob.lt_of_inserted hkeeps hcommits.written rfl _ hrow
      exact absurd rfl (Int.ne_of_lt hlt)
    · rw [hkept.size_eq hvisible, List.length_append]
      rfl
  · cases hmatched

/-! ## Sessions -/

namespace Session

/-- However a session goes on after an import was committed, a file of the same contents as the
imported one is given the same identity when it is imported, and no identity is added: unless
the file was only found to sound like the identity.  Then an import that goes by the digest
gives it another identity: the one that has its digest, which it makes if there is none. -/
theorem reimport_of_committed {first : Session} {storage stored : Storage} {world now : World}
    {before after : List Answer} (hfresh : first.Fresh)
    (hbefore : Run first before (opened storage world)) {call : Call} {receipt : Receipt}
    (hreceipt : receipt ∈ (world.call call).2.receipts)
    (hafter : Run (opened storage (world.call call).1) after (opened stored now))
    {errand : Errand} {decoded : Decoded} (haccepted : errand.Accepted now decoded)
    (hunchanged : decoded.digest = receipt.digest)
    (hroom : now.catalog.sources.greatestId < Table.idLimit) :
    ((∀ id similarity, receipt.verdict ≠ .perceptual id similarity) →
      ∃ next again count,
        errand.importer.run errand.job now = (next, .ok (.committed again)) ∧
        again.identity = receipt.identity ∧ again.effect = .attached ∧
        now.catalog.size = .ok count ∧ next.catalog.size = .ok count) ∧
    ((∃ id similarity, receipt.verdict = .perceptual id similarity) →
      errand.job.handling.careful = false →
      now.catalog.identities.greatestId < Table.idLimit →
      ∃ next again count,
        errand.importer.run errand.job now = (next, .ok (.committed again)) ∧
        again.identity ≠ receipt.identity ∧ next.catalog.Has again.identity receipt.digest ∧
        now.catalog.size = .ok count ∧
        (now.catalog.Has again.identity receipt.digest ∧ again.effect = .attached ∧
            next.catalog.size = .ok count ∨
          (∀ id, ¬ now.catalog.Has id receipt.digest) ∧ again.effect = .inserted ∧
            next.catalog.size = .ok (count + 1))) := by
  have hsound : world.catalog.Sound := sound_of_run hfresh hbefore (.refl _)
  obtain ⟨hnow, hfits⟩ : receipt.Vouched now.catalog :=
    holds_of_run .congr .write hafter
      ⟨_, .refl _, World.vouched_call hsound call receipt hreceipt⟩ (.refl _)
  rw [← hunchanged]
  constructor
  · intro hverdict
    have hhas : now.catalog.Has receipt.identity decoded.digest := by
      rw [hunchanged]
      cases heq : receipt.verdict with
      | new | exact _ | ambiguous _ =>
          rw [heq] at hfits
          exact hfits
      | perceptual id similarity => exact absurd heq (hverdict id similarity)
    obtain ⟨next, again, count, hrun, hid, heffect, -, hbefore, hafter⟩ :=
      Errand.run_of_has hnow haccepted hroom hhas
    exact ⟨next, again, count, hrun, hid, heffect, hbefore, hafter⟩
  · rintro ⟨_, _, hverdict⟩ hexact hnumbers
    rw [hverdict] at hfits
    obtain ⟨other, hother, hne⟩ := hfits
    rw [← hunchanged] at hne
    by_cases hknown : ∃ id, now.catalog.Has id decoded.digest
    · obtain ⟨id, hhas⟩ := hknown
      obtain ⟨next, again, count, hrun, rfl, heffect, hkept, hbefore, hafter⟩ :=
        Errand.run_of_has hnow haccepted hroom hhas
      obtain ⟨ledger, hkeeps, -, -⟩ := hnow
      refine ⟨next, again, count, hrun, fun heq => ?_, hkept, hbefore,
        .inl ⟨hhas, heffect, hafter⟩⟩
      rw [heq] at hhas
      exact hne (hkeeps.digest_eq_of_has hother hhas)
    · have hnew : ∀ id, ¬ now.catalog.Has id decoded.digest := not_exists.mp hknown
      obtain ⟨next, again, count, hrun, hfresh, heffect, hmade, hbefore, hafter⟩ :=
        Errand.run_of_forall_not_has hnow hexact haccepted hnumbers hroom hnew
      exact ⟨next, again, count, hrun, hfresh _ other hother, hmade, hbefore,
        .inr ⟨hnew, heffect, hafter⟩⟩

end Session

/-! ## Two files that sound alike -/

/-- The file `a`, or the second file, which is `b`. -/
def Pathname.twin (second : Bool) : Pathname :=
  ⟨[47, if second then 98 else 97]⟩

/-- What the two files sound like: the fingerprints agree, and the samples do not. -/
def Recording.twin (second : Bool) : Recording where
  metadata := .empty
  fingerprint := some [0]
  stream := ⟨44100, 1, .int16 [if second then 1 else 0]⟩

/-- What an import finds out about them. -/
def Decoded.twin (second : Bool) : Decoded where
  facts := ⟨1, 0⟩
  metadata := .empty
  digest := (Recording.twin second).stream.digest
  key := AcousticKey.ofFingerprint? [0]

/-- The import of one of the files, which is to be kept. -/
def Errand.twin (second careful : Bool) : Errand where
  importer := {
    decoder := fun path _ => .answered (.twin (path = .twin true))
    timeout := .ofParts 1 0 }
  job := .direct (.twin second) ⟨true, careful⟩ none

/-- Whether an import is of one of the files, which is to be kept. -/
structure ImportJob.OfTwin (job : ImportJob) (second careful : Bool) : Prop where
  path : job.path = .twin second
  handling : job.handling = ⟨true, careful⟩
  token : job.token = none

theorem ImportJob.OfTwin.direct (second careful : Bool) :
    (Errand.twin second careful).job.OfTwin second careful where
  path := rfl
  handling := rfl
  token := rfl

/-- A world with an empty catalog and the two files. -/
def World.withTwins : World where
  catalog := .empty
  files := ⟨[([97], .file (.data [0] 1) 0), ([98], .file (.data [0] 1) 0)], []⟩
  tokens := fun _ => .pending
  now := 0

theorem World.admit_withTwins {world : World} (hfiles : world.files = World.withTwins.files)
    (second : Bool) : world.admit (.twin second) = .ok (.ok ⟨1, 0⟩) := by
  have hname : PlainName [if second then 98 else 97] := by
    cases second <;> decide
  have htext : ¬ (Pathname.ofRoot [if second then 98 else 97]).text?.isNone := by
    cases second <;> decide
  have hchild : world.files.root.child? [if second then 98 else 97] =
      some (.file (.data [0] 1) 0) := by
    rw [hfiles]
    cases second <;> rfl
  exact hname.admitted htext hchild (by decide)

theorem Decoded.digest_twin_ne : (Decoded.twin true).digest ≠ (Decoded.twin false).digest := by
  decide +kernel

theorem Decoded.digest_twin_not_ne (second : Bool) :
    (Decoded.twin !second).digest ≠ (Decoded.twin second).digest := by
  cases second with
  | false => exact digest_twin_ne
  | true => exact digest_twin_ne.symm

/-- Whether a world comes of some imports of the two files, and the catalog keeps a ledger. -/
structure World.Twins (world : World) (ledger : List Identity) (imports : Nat) : Prop where
  files : world.files = World.withTwins.files
  keeps : world.catalog.Keeps ledger
  access : world.catalog.access = .full
  locked : world.catalog.locked = false
  identities : world.catalog.identities.greatestId = ledger.length
  sources : world.catalog.sources.greatestId = imports

namespace World.Twins

variable {world : World} {ledger : List Identity} {imports : Nat}

theorem start : World.withTwins.Twins [] 0 where
  files := rfl
  keeps := {
    identities := rfl
    sources := fun _ hmem => nomatch hmem
    owned := fun _ hmem => nomatch hmem
    textual := fun _ hmem => nomatch hmem }
  access := rfl
  locked := rfl
  identities := rfl
  sources := rfl

/-- Any import of one of the files is accepted whose ticket, if it has one, is known. -/
theorem accepted_of (htwins : world.Twins ledger imports) {job : ImportJob} {second careful : Bool}
    (hjob : job.OfTwin second careful)
    (hknown : ∀ id ∈ job.ticket, (world.catalog.tickets.row? id.value).isSome) :
    Errand.Accepted ⟨(Errand.twin second careful).importer, job⟩ world (.twin second) where
  admitted := by
    rw [hjob.path]
    exact World.admit_withTwins htwins.files second
  claimable := by
    simp only [ImportJob.claimed?, hjob.token]
    rfl
  decodes := by
    rw [hjob.path]
    cases second <;> rfl
  visible := by
    rw [htwins.access]
    decide
  openFor := by
    refine ⟨htwins.locked, ?_, hknown⟩
    rw [htwins.access]
    decide

theorem accepted (htwins : world.Twins ledger imports) (second careful : Bool) :
    (Errand.twin second careful).Accepted world (.twin second) :=
  htwins.accepted_of (.direct second careful) fun _ hid => nomatch hid

/-- Each import of one of the files is committed.  It makes an identity of the file, unless the
file is matched with one, and resolves its ticket. -/
theorem step_of (htwins : world.Twins ledger imports)
    (hnumbers : (ledger.length : Int) < Table.idLimit) (hroom : (imports : Int) < Table.idLimit)
    {job : ImportJob} {second careful : Bool} (hjob : job.OfTwin second careful)
    (hknown : ∀ id ∈ job.ticket, (world.catalog.tickets.row? id.value).isSome) :
    let decoded := Decoded.twin second
    let resolution := resolutionIn ledger decoded.digest decoded.key careful
    ∃ next receipt entries,
      (Errand.twin second careful).importer.run job world = (next, .ok (.committed receipt)) ∧
      receipt.path = job.path ∧ receipt.digest = decoded.digest ∧
      receipt.verdict = resolution.verdict ∧ next.Twins entries (imports + 1) ∧
      next.catalog.tickets =
        world.catalog.tickets.afterCommit job.ticket receipt.identity world.now ∧
      ((resolution.verdict.matched = none ∧ receipt.identity = ⟨ledger.length + 1⟩ ∧
          entries.map (·.toKnown) =
            ledger.map (·.toKnown) ++ [⟨receipt.identity, decoded.digest, decoded.key⟩]) ∨
        resolution.verdict.matched = some receipt.identity ∧
          entries.map (·.toKnown) = ledger.map (·.toKnown)) := by
  intro decoded resolution
  have haccepted := htwins.accepted_of hjob hknown
  have hcareful : job.handling.careful = careful := congrArg Handling.careful hjob.handling
  rw [← htwins.identities] at hnumbers
  rw [← htwins.sources] at hroom
  obtain ⟨id, effect, catalog, hcommits⟩ :=
    Errand.exists_commits htwins.keeps haccepted (fun _ => hnumbers) hroom
  rw [hcareful] at hcommits
  have hclaimed : job.claimed? world = some world := by
    simp only [ImportJob.claimed?, hjob.token]
  have hrun := Importer.run_of_commits _ job hcommits hclaimed
  have hkeep : job.handling.keepFile = true := congrArg Handling.keepFile hjob.handling
  rw [ImportJob.cleared, if_pos hkeep] at hrun
  obtain ⟨⟨_, _, hcatalog⟩, hwritten⟩ := ImportJob.write_cases htwins.keeps hcommits.written
  obtain ⟨hsources, hidentities⟩ := ImportJob.greatestId_write htwins.keeps hcommits.written
  have haccess : catalog.access = .full := by
    rw [hcatalog]
    exact htwins.access
  have hlocked : catalog.locked = false := by
    rw [hcatalog]
    exact htwins.locked
  have htickets : catalog.tickets = world.catalog.tickets.afterCommit job.ticket id world.now := by
    rw [hcatalog]
  rw [htwins.sources] at hsources
  rw [htwins.identities] at hidentities
  obtain ⟨rfl, hmatched, hid, -, hkept⟩ | ⟨rfl, hmatched, -, hkept⟩ := hwritten
  · rw [htwins.identities] at hid
    refine ⟨_, _, _, hrun, rfl, rfl, rfl, ⟨htwins.files, hkept, haccess, hlocked, ?_, hsources⟩,
      htickets, .inl ⟨hmatched, congrArg IdentityId.mk hid, List.map_append⟩⟩
    rw [List.length_append]
    exact hidentities
  · refine ⟨_, _, _, hrun, rfl, rfl, rfl, ⟨htwins.files, hkept, haccess, hlocked, ?_, hsources⟩,
      htickets, .inr ⟨hmatched, ?_⟩⟩
    · rw [extendEntry, List.length_map]
      exact hidentities
    · exact map_toKnown_extendEntry ..

theorem step (htwins : world.Twins ledger imports)
    (hnumbers : (ledger.length : Int) < Table.idLimit) (hroom : (imports : Int) < Table.idLimit)
    (second careful : Bool) :
    let errand := Errand.twin second careful
    let decoded := Decoded.twin second
    let resolution := resolutionIn ledger decoded.digest decoded.key careful
    ∃ next receipt entries,
      errand.importer.run errand.job world = (next, .ok (.committed receipt)) ∧
      receipt.path = errand.job.path ∧ receipt.digest = decoded.digest ∧
      receipt.verdict = resolution.verdict ∧ next.Twins entries (imports + 1) ∧
      ((resolution.verdict.matched = none ∧ receipt.identity = ⟨ledger.length + 1⟩ ∧
          entries.map (·.toKnown) =
            ledger.map (·.toKnown) ++ [⟨receipt.identity, decoded.digest, decoded.key⟩]) ∨
        resolution.verdict.matched = some receipt.identity ∧
          entries.map (·.toKnown) = ledger.map (·.toKnown)) := by
  obtain ⟨next, receipt, entries, hrun, hpath, hdigest, hverdict, hnext, -, hcases⟩ :=
    htwins.step_of hnumbers hroom (.direct second careful) fun _ hid => nomatch hid
  exact ⟨next, receipt, entries, hrun, hpath, hdigest, hverdict, hnext, hcases⟩

/-- In careful mode the file that comes second is matched with the identity of the first. -/
theorem verdict_after (leader : Bool) {known : Identity}
    (hknown : known.toKnown = ⟨⟨1⟩, (Decoded.twin leader).digest, (Decoded.twin leader).key⟩) :
    (resolutionIn [known] (Decoded.twin !leader).digest (Decoded.twin !leader).key true).verdict =
      .perceptual ⟨1⟩ 1 := by
  obtain ⟨key, hkey, hnear, hcandidate⟩ : ∃ key, (Decoded.twin !leader).key = some key ∧
      (((Decoded.twin leader).key.any fun other => key.nearbyBuckets.1 ≤ other.bucket &&
        other.bucket ≤ key.nearbyBuckets.2) = true) ∧
      Resolution.candidate? key ⟨⟨1⟩, (Decoded.twin leader).digest, (Decoded.twin leader).key⟩ =
        some ⟨⟨1⟩, (Decoded.twin leader).digest, 1⟩ := by
    refine ⟨_, rfl, ?_, ?_⟩
    · cases leader <;> decide +kernel
    · cases leader <;> decide +kernel
  rw [← hknown] at hcandidate
  have hother : known.key = (Decoded.twin leader).key := congrArg Known.key hknown
  have hdigest : known.digest ≠ (Decoded.twin !leader).digest := by
    rw [hknown]
    exact (Decoded.digest_twin_not_ne leader).symm
  rw [hkey]
  exact verdict_resolutionIn_singleton hdigest (hother ▸ hnear) hcandidate

/-- In careful mode the second file is matched with the identity of the first. -/
theorem verdict_second {known : Identity}
    (hknown : known.toKnown = ⟨⟨1⟩, (Decoded.twin false).digest, (Decoded.twin false).key⟩) :
    (resolutionIn [known] (Decoded.twin true).digest (Decoded.twin true).key true).verdict =
      .perceptual ⟨1⟩ 1 :=
  verdict_after false hknown

end World.Twins

theorem World.call_run {importer : Importer} {job : ImportJob} {world next : World}
    {conclusion : Conclusion} (h : importer.run job world = (next, conclusion)) :
    world.call (.run importer job .none) = (next, .ran conclusion) := by
  have hcall : world.call (.run importer job .none) =
      ((importer.run job world).1, .ran (importer.run job world).2) := rfl
  rw [hcall, h]

/-- An import that nobody interferes with is a step of a session. -/
theorem Session.step_of_run {importer : Importer} {job : ImportJob} {world next : World}
    {conclusion : Conclusion} (h : importer.run job world = (next, conclusion))
    (storage : Storage) :
    Step (opened storage world) (some (.ran conclusion)) (opened storage next) := by
  have hstep : Step (opened storage world) _ _ := .call (.run importer job .none)
  rw [World.call_run h] at hstep
  exact hstep

/-- Whichever of the two files comes first becomes the first identity. -/
theorem World.Twins.exists_leader_of {start : World} (hstart : start.Twins [] 0) {leader : Bool}
    {job : ImportJob} (hjob : job.OfTwin leader true)
    (hknown : ∀ id ∈ job.ticket, (start.catalog.tickets.row? id.value).isSome) :
    ∃ now receipt known,
      (Errand.twin leader true).importer.run job start = (now, .ok (.committed receipt)) ∧
      receipt.digest = (Decoded.twin leader).digest ∧ receipt.verdict = .new ∧
      receipt.identity = ⟨1⟩ ∧ now.Twins [known] 1 ∧
      known.toKnown = ⟨⟨1⟩, (Decoded.twin leader).digest, (Decoded.twin leader).key⟩ ∧
      now.catalog.tickets =
        start.catalog.tickets.afterCommit job.ticket receipt.identity start.now := by
  have hnew : (resolutionIn [] (Decoded.twin leader).digest (Decoded.twin leader).key
      true).verdict = .new := verdict_resolutionIn_nil _ _ _
  obtain ⟨now, receipt, ledger, hrun, -, hdigest, hverdict, htwins, htickets, hcases⟩ :=
    hstart.step_of (by decide) (by decide) hjob hknown
  rw [hnew] at hverdict hcases
  obtain ⟨-, hid, hknown⟩ | ⟨hmatched, -⟩ := hcases
  · rw [List.map_nil, List.nil_append, List.map_eq_singleton_iff] at hknown
    obtain ⟨known, rfl, hknown⟩ := hknown
    exact ⟨now, receipt, known, hrun, hdigest, hverdict, hid, htwins, hid ▸ hknown, htickets⟩
  · cases hmatched

theorem World.Twins.exists_leader (leader : Bool) : ∃ now receipt known,
    (Errand.twin leader true).importer.run (Errand.twin leader true).job .withTwins =
        (now, .ok (.committed receipt)) ∧
      receipt.digest = (Decoded.twin leader).digest ∧ receipt.verdict = .new ∧
      receipt.identity = ⟨1⟩ ∧ now.Twins [known] 1 ∧
      known.toKnown = ⟨⟨1⟩, (Decoded.twin leader).digest, (Decoded.twin leader).key⟩ := by
  obtain ⟨now, receipt, known, hrun, hdigest, hverdict, hid, hnow, hknown, -⟩ :=
    World.Twins.start.exists_leader_of (.direct leader true) fun _ hid => nomatch hid
  exact ⟨now, receipt, known, hrun, hdigest, hverdict, hid, hnow, hknown⟩

/-- The first of the two files becomes the first identity. -/
theorem World.Twins.exists_first : ∃ now receipt known,
    (Errand.twin false true).importer.run (Errand.twin false true).job .withTwins =
        (now, .ok (.committed receipt)) ∧
      receipt.digest = (Decoded.twin false).digest ∧ receipt.verdict = .new ∧
      receipt.identity = ⟨1⟩ ∧ now.Twins [known] 1 ∧
      known.toKnown = ⟨⟨1⟩, (Decoded.twin false).digest, (Decoded.twin false).key⟩ :=
  exists_leader false

/-- One after the other, the file that comes second is found to sound like the first. -/
theorem World.Twins.exists_both_of {start : World} (hstart : start.Twins [] 0)
    {job : Bool → ImportJob} (hjobs : ∀ second, (job second).OfTwin second true)
    (hknown : ∀ second, ∀ id ∈ (job second).ticket, (start.catalog.tickets.row? id.value).isSome)
    (leader : Bool) : ∃ now first next other,
      (Errand.twin leader true).importer.run (job leader) start = (now, .ok (.committed first)) ∧
      (Errand.twin (!leader) true).importer.run (job !leader) now =
        (next, .ok (.committed other)) ∧
      first.verdict = .new ∧ other.verdict = .perceptual first.identity 1 ∧
      next.catalog.size = .ok 1 := by
  have hlimit : ((1 : Nat) : Int) < Table.idLimit := by decide
  obtain ⟨now, first, known, hfirst, -, hnew, hid, hnow, hsame, htickets⟩ :=
    hstart.exists_leader_of (hjobs leader) (hknown leader)
  have hstill : ∀ id ∈ (job !leader).ticket, (now.catalog.tickets.row? id.value).isSome := by
    intro id hid
    rw [htickets, ImportJob.isSome_row?_afterCommit]
    exact hknown (!leader) id hid
  obtain ⟨next, other, entries, hother, -, -, hverdict, hnext, -, hcases⟩ :=
    hnow.step_of hlimit hlimit (hjobs !leader) hstill
  rw [verdict_after leader hsame] at hverdict hcases
  obtain ⟨hnone, -, -⟩ | ⟨-, hentries⟩ := hcases
  · cases hnone
  have hlength := congrArg List.length hentries
  rw [List.length_map, List.length_map, List.length_singleton] at hlength
  refine ⟨now, first, next, other, hfirst, hother, hnew, hid ▸ hverdict, ?_⟩
  rw [hnext.keeps.size_eq (by rw [hnext.access]; decide), hlength]

theorem World.Twins.exists_both (leader : Bool) : ∃ now first next other,
    (Errand.twin leader true).importer.run (Errand.twin leader true).job .withTwins =
        (now, .ok (.committed first)) ∧
      (Errand.twin (!leader) true).importer.run (Errand.twin (!leader) true).job now =
        (next, .ok (.committed other)) ∧
      first.verdict = .new ∧ other.verdict = .perceptual first.identity 1 ∧
      next.catalog.size = .ok 1 :=
  World.Twins.start.exists_both_of (fun second => .direct second true)
    (fun _ _ hid => nomatch hid) leader

/-- A careful import gives the second file the identity of the first, for it sounds like it.
When the second file is imported again and only digests are compared, it is made an identity of
its own, although it has not changed. -/
theorem Session.second_identity_of_twin : ∃ answers now first receipt next again,
    (opened .exclusive .withTwins).Fresh ∧
      Run (opened .exclusive .withTwins) answers (opened .exclusive now) ∧
      answers = [.ran (.ok (.committed first)), .ran (.ok (.committed receipt))] ∧
      receipt.path = (Errand.twin true false).job.path ∧ now.files = World.withTwins.files ∧
      (Errand.twin true false).importer.run (Errand.twin true false).job now =
        (next, .ok (.committed again)) ∧
      again.digest = receipt.digest ∧ again.identity ≠ receipt.identity ∧
      now.catalog.size = .ok 1 ∧ next.catalog.size = .ok 2 := by
  have hlimit : ((1 : Nat) : Int) < Table.idLimit := by decide
  obtain ⟨one, first, known, hfirst, -, -, -, hone, hknown⟩ := World.Twins.exists_first
  obtain ⟨now, receipt, entries, hsecond, hpath, hdigest, -, hnow, hcases⟩ :=
    hone.step hlimit hlimit true true
  rw [World.Twins.verdict_second hknown] at hcases
  obtain ⟨hnone, -, -⟩ | ⟨hmatched, hsame⟩ := hcases
  · cases hnone
  rw [List.map_singleton, List.map_eq_singleton_iff] at hsame
  obtain ⟨same, rfl, hsame⟩ := hsame
  have hnew : ∀ identity ∈ [same], identity.digest ≠ (Decoded.twin true).digest := by
    intro identity hmem
    rw [List.mem_singleton.mp hmem, hsame, hknown]
    exact Decoded.digest_twin_ne.symm
  obtain ⟨next, again, ledger, hagain, -, hdigest', -, hnext, hcases⟩ :=
    hnow.step hlimit (by decide) true false
  rw [resolutionIn_of_forall_ne hnew] at hcases
  obtain ⟨-, hid, hledger⟩ | ⟨hmatched', -⟩ := hcases
  · have hrun : Run (opened .exclusive .withTwins)
        [.ran (.ok (.committed first)), .ran (.ok (.committed receipt))]
        (opened .exclusive now) :=
      .step (.step (.start _) (step_of_run hfirst _)) (step_of_run hsecond _)
    refine ⟨_, now, first, receipt, next, again, .refl _, hrun, rfl, hpath, hnow.files, hagain,
      hdigest'.trans hdigest.symm, ?_, ?_, ?_⟩
    · rw [hid, ← Option.some.inj hmatched]
      exact fun h => absurd (congrArg IdentityId.value h) (by simp)
    · rw [hnow.keeps.size_eq (by rw [hnow.access]; decide)]
      rfl
    · have hlength := congrArg List.length hledger
      rw [List.length_map] at hlength
      rw [hnext.keeps.size_eq (by rw [hnext.access]; decide), hlength]
      rfl
  · cases hmatched'

/-- The first file is given the same identity again, when only digests are compared. -/
theorem Session.reimport_of_twin : ∃ now receipt next again count,
    (Errand.twin false true).importer.run (Errand.twin false true).job .withTwins =
        (now, .ok (.committed receipt)) ∧
      (Errand.twin false false).importer.run (Errand.twin false false).job now =
        (next, .ok (.committed again)) ∧
      again.identity = receipt.identity ∧
      now.catalog.size = .ok count ∧ next.catalog.size = .ok count := by
  obtain ⟨now, receipt, known, hrun, hdigest, hverdict, -, hnow, -⟩ := World.Twins.exists_first
  have hfresh : (opened .exclusive .withTwins).Fresh := .refl _
  have hcall : World.withTwins.call
      (.run (Errand.twin false true).importer (Errand.twin false true).job .none) =
        (now, .ran (.ok (.committed receipt))) := World.call_run hrun
  have hreceipt : receipt ∈ (World.withTwins.call
      (.run (Errand.twin false true).importer (Errand.twin false true).job .none)).2.receipts := by
    rw [hcall]
    exact List.mem_singleton.mpr rfl
  have hafter : Run (opened .exclusive (World.withTwins.call
      (.run (Errand.twin false true).importer (Errand.twin false true).job .none)).1) []
        (opened .exclusive now) := by
    rw [hcall]
    exact .start _
  have hroom : now.catalog.sources.greatestId < Table.idLimit := by
    rw [hnow.sources]
    decide
  obtain ⟨next, again, count, hagain, hsame, -, hbefore, hafter⟩ :=
    (reimport_of_committed hfresh (.start _) hreceipt hafter (hnow.accepted false false)
      hdigest.symm hroom).1 (by simp [hverdict])
  exact ⟨now, receipt, next, again, count, hrun, hagain, hsame, hbefore, hafter⟩

end AudioCatalog
