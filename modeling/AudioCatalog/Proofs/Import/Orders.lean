import AudioCatalog.Proofs.Catalog.Acceptance
import AudioCatalog.Proofs.Import.Atomicity
import AudioCatalog.Proofs.Session.ExactRuns
import Mathlib.Data.Set.Basic

/-!
# Orders of imports

Which files a catalog knows under which digest depends on what was deposited, and not on the
order of the deposits.  If files are kept and nobody else acts, every order of the same
imports deposits the same: whether an import is committed depends on the file, on its token,
and on whether the catalog is open for its ticket, and no other import changes these.
-/

namespace AudioCatalog

open Deposit (ledgerOf entryOf? digests)

/-! ## From digests to files -/

/-- A state of a file: its path name, its modification time and its size. -/
def Source.state (source : Source) : Pathname × Int × UInt64 :=
  (source.path, source.modified, source.size)

/-- The states of files that are known under a digest, if there is an identity of it. -/
def fileStates (identities : List Identity) (digest : Digest) :
    Option (Set (Pathname × Int × UInt64)) :=
  (identities.find? fun identity => identity.digest = digest).map fun identity =>
    { state | ∃ source ∈ identity.sources, source.state = state }

/-- The digest of a deposit and the state of its file. -/
def Deposit.seen (deposit : Deposit) : Digest × (Pathname × Int × UInt64) :=
  (deposit.draft.digest, deposit.source.state)

theorem Source.sameState_iff {a b : Source} : a.sameState b = true ↔ a.state = b.state := by
  simp [sameState, state, and_assoc]

/-- Dropping repeated states drops no state. -/
theorem Source.exists_state_eraseDupsBy_iff (sources : List Source)
    (state : Pathname × Int × UInt64) :
    (∃ source ∈ sources.eraseDupsBy sameState, source.state = state) ↔
      ∃ source ∈ sources, source.state = state := by
  induction sources using List.reverseRecOn with
  | nil => rfl
  | append_singleton sources source ih =>
      rw [Deposit.eraseDupsBy_append_singleton, addTo]
      split
      · rename_i hany
        obtain ⟨other, hother, hsame⟩ := List.any_eq_true.mp hany
        rw [ih]
        constructor
        · rintro ⟨kept, hkept, rfl⟩
          exact ⟨kept, List.mem_append_left _ hkept, rfl⟩
        · rintro ⟨kept, hkept, rfl⟩
          rcases List.mem_append.mp hkept with hkept | hkept
          · exact ⟨kept, hkept, rfl⟩
          · obtain rfl := List.mem_singleton.mp hkept
            exact ih.mp ⟨other, hother, sameState_iff.mp hsame⟩
      · simp only [List.mem_append, or_and_right, exists_or, ih]

theorem Deposit.exists_state_identity_iff (deposits : List Deposit) (digest : Digest)
    (number : Nat) (state : Pathname × Int × UInt64) :
    (∃ source ∈ (identity deposits digest number).sources, source.state = state) ↔
      (digest, state) ∈ deposits.map seen := by
  rw [identity, Source.exists_state_eraseDupsBy_iff]
  constructor
  · rintro ⟨_, hsource, rfl⟩
    obtain ⟨deposit, hdeposit, rfl⟩ := List.mem_map.mp hsource
    obtain ⟨hmem, hdigest⟩ := List.mem_filter.mp hdeposit
    refine List.mem_map.mpr ⟨deposit, hmem, ?_⟩
    rw [seen, of_decide_eq_true hdigest]
  · intro hseen
    obtain ⟨deposit, hmem, heq⟩ := List.mem_map.mp hseen
    cases heq
    exact ⟨deposit.source, List.mem_map_of_mem (List.mem_filter.mpr ⟨hmem, by simp⟩), rfl⟩

/-- Which files are known under a digest can be told from the deposits without their order. -/
theorem fileStates_ledgerOf (deposits : List Deposit) (digest : Digest) :
    fileStates ((ledgerOf deposits).map Identity.asStored) digest =
      if ∃ seen ∈ deposits.map Deposit.seen, seen.1 = digest then
        some { state | (digest, state) ∈ deposits.map Deposit.seen }
      else none := by
  have hfind : ((ledgerOf deposits).map Identity.asStored).find?
      (fun identity => identity.digest = digest) =
        (entryOf? deposits digest).map Identity.asStored := by
    rw [List.find?_map]
    rfl
  have hmem : (∃ seen ∈ deposits.map Deposit.seen, seen.1 = digest) ↔
      digest ∈ digests deposits := by
    rw [digests, List.mem_eraseDups]
    simp [Deposit.seen]
  rw [fileStates, hfind, Option.map_map]
  cases hentry : entryOf? deposits digest with
  | none => rw [if_neg (hmem.not.mpr (Deposit.entryOf?_eq_none hentry)), Option.map_none]
  | some identity =>
      obtain ⟨hidentity, rfl⟩ := Deposit.entryOf?_eq_some hentry
      have hknown : identity.digest ∈ digests deposits := by
        rw [← Deposit.map_digest_ledgerOf]
        exact List.mem_map_of_mem hidentity
      rw [if_pos (hmem.mpr hknown), Option.map_some]
      refine congrArg some (Set.ext fun state => ?_)
      obtain ⟨index, hindex, rfl⟩ := List.mem_mapIdx.mp hidentity
      refine Iff.trans ?_ (Deposit.exists_state_identity_iff deposits _ (index + 1) state)
      simp only [Function.comp_apply, Identity.asStored, Set.mem_ofPred_eq, List.mem_map,
        exists_exists_and_eq_and]
      rfl

/-- Deposits of the same states under the same digests make the same files known. -/
theorem fileStates_congr {deposits others : List Deposit}
    (hseen : ∀ seen, seen ∈ deposits.map Deposit.seen ↔ seen ∈ others.map Deposit.seen) :
    fileStates ((ledgerOf deposits).map Identity.asStored) =
      fileStates ((ledgerOf others).map Identity.asStored) := by
  funext digest
  rw [fileStates_ledgerOf, fileStates_ledgerOf]
  simp only [hseen]

/-! ## What an import depends on -/

/-- An import with the one who does it. -/
structure Errand where
  importer : Importer
  job : ImportJob

/-- Whether an import of a file with given contents would be committed if it goes by the
digest: the file is admitted and decoded, the token can be claimed, and the catalog can be
read and is open for the ticket. -/
structure Errand.Accepted (errand : Errand) (world : World) (decoded : Decoded) : Prop where
  admitted : world.admit errand.job.path = .ok (.ok decoded.facts)
  claimable : (errand.job.claimed? world).isSome
  decodes : errand.importer.decode world errand.job.path decoded.facts = .ok decoded
  visible : world.catalog.access ≠ .blind
  openFor : world.catalog.OpenFor errand.job.ticket

/-- What an import would deposit under which digest. -/
def Errand.Offers (errand : Errand) (world : World) (seen : Digest × (Pathname × Int × UInt64)) :
    Prop :=
  ∃ decoded, errand.Accepted world decoded ∧ (errand.job.deposit decoded world.now).seen = seen

/-- What an import with a token may not change for the imports after it. -/
structure World.SameBut (token : Option String) (world next : World) : Prop where
  files : next.files = world.files
  tokens : ∀ name, token ≠ some name → next.tokens name = world.tokens name
  access : next.catalog.access = world.catalog.access
  locked : next.catalog.locked = world.catalog.locked
  tickets : ∀ id, (next.catalog.tickets.row? id).isSome = (world.catalog.tickets.row? id).isSome

namespace World.SameBut

variable {world next last : World} {token : Option String}

theorem refl (world : World) (now : Timestamp) : world.SameBut token { world with now := now } :=
  ⟨rfl, fun _ _ => rfl, rfl, rfl, fun _ => rfl⟩

/-- What an import would deposit does not depend on what other imports change. -/
theorem offers_iff (hsame : world.SameBut token next) (errand : Errand)
    (htoken : ∀ name ∈ errand.job.token, token ≠ some name)
    (seen : Digest × (Pathname × Int × UInt64)) :
    errand.Offers next seen ↔ errand.Offers world seen := by
  have hadmission : next.admit errand.job.path = world.admit errand.job.path := by
    unfold World.admit
    rw [hsame.files]
  have hclaim : (errand.job.claimed? next).isSome = (errand.job.claimed? world).isSome := by
    cases hname : errand.job.token with
    | none => simp only [ImportJob.claimed?, hname, Option.isSome_some]
    | some name =>
        simp only [ImportJob.claimed?, hname, Option.isSome_map,
          hsame.tokens name (htoken name hname)]
  have hopen : next.catalog.OpenFor errand.job.ticket ↔
      world.catalog.OpenFor errand.job.ticket := by
    simp only [Catalog.OpenFor, hsame.access, hsame.locked, hsame.tickets]
  have haccepted : ∀ decoded, errand.Accepted next decoded ↔ errand.Accepted world decoded := by
    intro decoded
    have hdecode : errand.importer.decode next errand.job.path decoded.facts =
        errand.importer.decode world errand.job.path decoded.facts := by
      rw [Importer.decode, Importer.decode, hsame.files]
    constructor
    · rintro ⟨hadmitted, hclaimable, hdecodes, hvisible, hopenFor⟩
      exact ⟨hadmission ▸ hadmitted, hclaim ▸ hclaimable, hdecode ▸ hdecodes,
        hsame.access ▸ hvisible, hopen.mp hopenFor⟩
    · rintro ⟨hadmitted, hclaimable, hdecodes, hvisible, hopenFor⟩
      exact ⟨hadmission.trans hadmitted, hclaim.trans hclaimable, hdecode.trans hdecodes,
        hsame.access.trans_ne hvisible, hopen.mpr hopenFor⟩
  exact exists_congr fun decoded => and_congr (haccepted decoded) Iff.rfl

end World.SameBut

/-! ## One import -/

namespace ImportJob

variable {world : World} {deposits : List Deposit} {job : ImportJob} {decoded : Decoded}
  {resolution : Resolution}

/-- An import that goes by the digest can be written exactly if the catalog is open. -/
theorem exists_write_iff (hamounts : world.catalog.Amounts deposits)
    (hmatched : resolution.verdict.matched = (entryOf? deposits decoded.digest).map (·.id))
    (htext : job.path.text?.isSome) (hroom : (deposits.length : Int) < Table.idLimit) :
    (∃ written, job.write world decoded resolution = .ok written) ↔
      world.catalog.OpenFor job.ticket := by
  have hsources : world.catalog.sources.greatestId < Table.idLimit := by
    rw [hamounts.sources]
    exact hroom
  have hidentities : world.catalog.identities.greatestId < Table.idLimit := by
    have hle := Deposit.length_ledgerOf_le deposits
    rw [hamounts.identities]
    omega
  have htextual : (job.deposit decoded world.now).source.Textual := htext
  simp only [write, hmatched]
  cases hentry : entryOf? deposits decoded.digest with
  | some identity =>
      obtain ⟨hmem, _⟩ := Deposit.entryOf?_eq_some hentry
      have hiff : (∃ next, world.catalog.addSource identity.id
          (job.deposit decoded world.now).source (some decoded.metadata) job.ticket world.now =
            .ok next) ↔ world.catalog.OpenFor job.ticket :=
        hamounts.keeps.exists_addSource_iff ⟨identity, hmem, rfl⟩ htextual hsources
      exact exists_map_eq_ok_iff.trans hiff
  | none =>
      have hnew : ∀ identity ∈ ledgerOf deposits,
          identity.digest ≠ (job.deposit decoded world.now).draft.digest := by
        intro identity hmem heq
        refine Deposit.entryOf?_eq_none hentry ?_
        rw [← Deposit.map_digest_ledgerOf]
        exact List.mem_map.mpr ⟨identity, hmem, heq⟩
      have hiff : (∃ added, world.catalog.addIdentity (job.deposit decoded world.now).draft
          (job.deposit decoded world.now).source job.ticket world.now = .ok added) ↔
            world.catalog.OpenFor job.ticket :=
        hamounts.keeps.exists_addIdentity_iff hnew htextual hidentities hsources
      exact exists_map_eq_ok_iff.trans hiff

theorem isSome_row?_afterCommit (tickets : Table TicketRow) (ticket : Option TicketId)
    (identity : IdentityId) (now : Timestamp) (id : Int) :
    ((tickets.afterCommit ticket identity now).row? id).isSome = (tickets.row? id).isSome := by
  have hids := Catalog.map_fst_afterCommit tickets ticket identity now
  have hrow : ∀ table : Table TicketRow,
      (table.row? id).isSome = true ↔ id ∈ table.rows.map (·.1) := by
    intro table
    rw [Table.isSome_row?_iff, List.mem_map]
  rw [Bool.eq_iff_iff, hrow, hrow, hids]

/-- A commit changes neither access nor lock nor which tickets there are. -/
theorem frame_write (hamounts : world.catalog.Amounts deposits) {id : IdentityId}
    {effect : CommitEffect} {catalog : Catalog}
    (h : job.write world decoded resolution = .ok (id, effect, catalog)) :
    catalog.access = world.catalog.access ∧ catalog.locked = world.catalog.locked ∧
      ∀ id, (catalog.tickets.row? id).isSome = (world.catalog.tickets.row? id).isSome := by
  rw [write] at h
  simp only at h
  split at h
  · obtain ⟨added, hadded, h⟩ := map_eq_ok_iff.mp h
    cases h
    obtain ⟨_, _, ⟨_, _, rfl, _, _⟩, _⟩ := hamounts.keeps.addSource hadded
    exact ⟨rfl, rfl, fun _ => isSome_row?_afterCommit ..⟩
  · obtain ⟨⟨number, added⟩, hadded, h⟩ := map_eq_ok_iff.mp h
    cases h
    obtain ⟨_, _, _, ⟨_, _, rfl, _, _⟩, _⟩ := hamounts.keeps.addIdentity hadded
    exact ⟨rfl, rfl, fun _ => isSome_row?_afterCommit ..⟩

/-- A token that can be claimed was not cancelled. -/
theorem wasCancelled_of_claimed? (hclaim : (job.claimed? world).isSome) :
    job.wasCancelled world = false := by
  cases hname : job.token with
  | none => simp only [wasCancelled, hname]
  | some name =>
      simp only [claimed?, hname, Option.isSome_map] at hclaim
      simp only [wasCancelled, hname]
      cases htoken : world.tokens name with
      | pending => rfl
      | committing => rfl
      | cancelled =>
          rw [htoken] at hclaim
          cases hclaim

theorem tokens_claimed? {claimed : World} (h : job.claimed? world = some claimed) (name : String)
    (hname : job.token ≠ some name) : claimed.tokens name = world.tokens name := by
  cases htoken : job.token with
  | none =>
      simp only [claimed?, htoken, Option.some.injEq] at h
      rw [h]
  | some own =>
      simp only [claimed?, htoken, Option.map_eq_some_iff] at h
      obtain ⟨_, _, rfl⟩ := h
      rw [htoken] at hname
      exact World.setToken_tokens_of_ne world _ fun heq => hname (congrArg some heq.symm)

end ImportJob

/-- Only files whose path names are text are admitted. -/
theorem World.text_of_admitted {world : World} {path : Pathname} {facts : FileFacts}
    (h : world.admit path = .ok (.ok facts)) : path.text?.isSome := by
  unfold World.admit at h
  split at h
  · cases h
  · rename_i htext
    rwa [Bool.not_eq_true, Option.isNone_eq_false_iff] at htext

namespace Errand

variable {world : World} {deposits : List Deposit} {errand : Errand}

/-- An accepted import is committed. -/
theorem receipt?_of_accepted (hamounts : world.catalog.Amounts deposits)
    (hexact : errand.job.handling.careful = false) (hroom : (deposits.length : Int) < Table.idLimit)
    {decoded : Decoded} (haccepted : errand.Accepted world decoded) :
    (errand.importer.run errand.job world).2.receipt? ≠ none := by
  obtain ⟨claimed, hclaimed⟩ := Option.isSome_iff_exists.mp haccepted.claimable
  have htext := World.text_of_admitted haccepted.admitted
  have hidentified := hamounts.identify decoded.digest decoded.key
  rw [if_neg haccepted.visible] at hidentified
  have hmatched : (Resolution.mk (((entryOf? deposits decoded.digest).map (·.id)).elim .new .exact)
      false).verdict.matched = (entryOf? deposits decoded.digest).map (·.id) := by
    cases entryOf? deposits decoded.digest <;> rfl
  obtain ⟨⟨id, effect, catalog⟩, hwritten⟩ :=
    (ImportJob.exists_write_iff hamounts hmatched htext hroom).mpr haccepted.openFor
  have huncancelled := ImportJob.wasCancelled_of_claimed? haccepted.claimable
  rw [Importer.run_eq, haccepted.admitted]
  simp only [huncancelled, Bool.false_eq_true, if_false, haccepted.decodes, hexact, hidentified,
    hclaimed, hwritten, Conclusion.receipt?]
  exact Option.some_ne_none _

/-- A committed import was accepted, and it went by the digest. -/
theorem accepted_of_commits (hamounts : world.catalog.Amounts deposits)
    (hexact : errand.job.handling.careful = false) (hroom : (deposits.length : Int) < Table.idLimit)
    {decoded : Decoded} {resolution : Resolution} {id : IdentityId} {effect : CommitEffect}
    {catalog : Catalog} (hclaimable : (errand.job.claimed? world).isSome)
    (hcommits : errand.importer.Commits errand.job world decoded resolution id effect catalog) :
    errand.Accepted world decoded ∧
      resolution.verdict.matched = (entryOf? deposits decoded.digest).map (·.id) := by
  have hidentified := hcommits.identified
  rw [hexact, hamounts.identify] at hidentified
  split at hidentified
  · cases hidentified
  · rename_i hvisible
    have hmatched : resolution.verdict.matched = (entryOf? deposits decoded.digest).map (·.id) := by
      cases hidentified
      cases entryOf? deposits decoded.digest <;> rfl
    have hopen := (ImportJob.exists_write_iff hamounts hmatched
      (World.text_of_admitted hcommits.admitted) hroom).mp ⟨_, hcommits.written⟩
    exact ⟨⟨hcommits.admitted, hclaimable, hcommits.decodes, hvisible, hopen⟩, hmatched⟩

/-- An import of a file that is kept deposits what it offers, and changes nothing that the
imports with other tokens depend on. -/
theorem amounts_run (hamounts : world.catalog.Amounts deposits)
    (hhandling : errand.job.handling = ⟨true, false⟩)
    (hroom : (deposits.length : Int) < Table.idLimit) :
    ∃ more, (errand.importer.run errand.job world).1.catalog.Amounts (deposits ++ more) ∧
      more.length ≤ 1 ∧ (∀ seen, seen ∈ more.map Deposit.seen ↔ errand.Offers world seen) ∧
      world.SameBut errand.job.token (errand.importer.run errand.job world).1 := by
  have hexact : errand.job.handling.careful = false := by rw [hhandling]
  rcases errand.importer.run_cases errand.job world with ⟨hsame, hreceipt⟩ |
    ⟨decoded, resolution, id, effect, catalog, claimed, hcommits, hclaimed, hrun⟩
  · refine ⟨[], ?_, Nat.zero_le 1, ?_, ?_⟩
    · rwa [hsame, List.append_nil]
    · intro seen
      apply iff_of_false (by simp)
      rintro ⟨decoded, haccepted, _⟩
      exact receipt?_of_accepted hamounts hexact hroom haccepted hreceipt
    · rw [hsame]
      exact .refl world world.now
  · obtain ⟨haccepted, hmatched⟩ :=
      accepted_of_commits hamounts hexact hroom (by rw [hclaimed]; rfl) hcommits
    obtain ⟨_, hfiles, _, _⟩ := errand.job.claimed?_eq_some hclaimed
    obtain ⟨haccess, hlocked, htickets⟩ := ImportJob.frame_write hamounts hcommits.written
    have hcleared : (errand.importer.run errand.job world).1 =
        { claimed with catalog := catalog } := by
      rw [hrun, ImportJob.cleared, if_pos (by rw [hhandling])]
    have htokens := ImportJob.tokens_claimed? hclaimed
    rw [hcleared]
    refine ⟨[errand.job.deposit decoded world.now], ?_, Nat.le_refl 1, ?_, ?_⟩
    · exact hamounts.write hmatched hcommits.written
    · intro seen
      rw [List.map_singleton, List.mem_singleton]
      constructor
      · rintro rfl
        exact ⟨decoded, haccepted, rfl⟩
      · rintro ⟨other, hother, rfl⟩
        -- The facts of a file and what is decoded of it are determined by the world.
        have hfacts : other.facts = decoded.facts := by
          have h := hother.admitted.symm.trans haccepted.admitted
          exact Except.ok.inj (Except.ok.inj h)
        have hdecodes := hother.decodes
        rw [hfacts, haccepted.decodes] at hdecodes
        cases hdecodes
        rfl
    · exact ⟨hfiles, htokens, haccess, hlocked, htickets⟩

end Errand

/-! ## Imports in order -/

/-- Imports one after the other, each at its time, while nobody else acts. -/
def World.runInOrder (world : World) : List (Timestamp × Errand) → World
  | [] => world
  | (now, errand) :: rest =>
    ((errand.importer.run errand.job { world with now := now }).1).runInOrder rest

/-- What imports of files that are kept deposit is what each of them offers at the
beginning. -/
theorem World.amounts_runInOrder (imports : List (Timestamp × Errand)) :
    ∀ {world : World} {deposits : List Deposit}, world.catalog.Amounts deposits →
      (∀ entry ∈ imports, entry.2.job.handling = ⟨true, false⟩) →
      (imports.filterMap (·.2.job.token)).Nodup →
      (deposits.length + imports.length : Int) ≤ Table.idLimit →
      ∃ more, (world.runInOrder imports).catalog.Amounts (deposits ++ more) ∧
        (∀ seen, seen ∈ more.map Deposit.seen ↔ ∃ entry ∈ imports, entry.2.Offers world seen) ∧
        (world.runInOrder imports).catalog.access = world.catalog.access := by
  induction imports with
  | nil =>
      intro world deposits hamounts _ _ _
      refine ⟨[], ?_, fun seen => by simp, rfl⟩
      rwa [List.append_nil]
  | cons entry rest ih =>
      obtain ⟨now, errand⟩ := entry
      intro world deposits hamounts hhandling htokens hroom
      rw [List.length_cons] at hroom
      push_cast at hroom
      have htimed : { world with now := now }.catalog.Amounts deposits := hamounts
      obtain ⟨first, hfirst, hlength, hoffered, hsame⟩ :=
        Errand.amounts_run htimed (hhandling _ List.mem_cons_self) (by omega)
      have hdistinct : ∀ other ∈ rest, ∀ name ∈ other.2.job.token,
          errand.job.token ≠ some name := by
        intro other hother name hname hown
        simp only [List.filterMap_cons, hown, List.nodup_cons] at htokens
        exact htokens.1 (List.mem_filterMap.mpr ⟨other, hother, hname⟩)
      have hrest : (rest.filterMap (·.2.job.token)).Nodup :=
        htokens.sublist ((List.sublist_cons_self _ _).filterMap _)
      obtain ⟨others, hothers, hoffers, haccess⟩ := ih hfirst
        (fun other hother => hhandling other (List.mem_cons_of_mem _ hother)) hrest (by
          rw [List.length_append]
          push_cast
          omega)
      refine ⟨first ++ others, ?_, fun seen => ?_, haccess.trans hsame.access⟩
      · rw [← List.append_assoc]
        exact hothers
      · have hnow : ∀ other : Errand, other.Offers { world with now := now } seen ↔
            other.Offers world seen := fun other =>
          (@SameBut.refl none world now).offers_iff other (fun _ _ => by simp) seen
        simp only [List.map_append, List.mem_append, hoffered, hoffers, List.mem_cons,
          exists_eq_or_imp]
        refine or_congr (hnow errand) (exists_congr fun other => and_congr_right fun hother => ?_)
        exact (hsame.offers_iff other.2 (hdistinct other hother) seen).trans (hnow other.2)

/-- Every order of the same imports of files that are kept makes the same files known. -/
theorem World.fileStates_runInOrder {world : World}
    (hidentities : world.catalog.identities = .empty)
    (hsources : world.catalog.sources = .empty) {imports reordered : List (Timestamp × Errand)}
    (horder : (imports.map (·.2)).Perm (reordered.map (·.2)))
    (hhandling : ∀ entry ∈ imports, entry.2.job.handling = ⟨true, false⟩)
    (htokens : (imports.filterMap (·.2.job.token)).Nodup)
    (hroom : (imports.length : Int) ≤ Table.idLimit) :
    (world.runInOrder imports).catalog.contents.map fileStates =
      (world.runInOrder reordered).catalog.contents.map fileStates := by
  have hempty := Catalog.Amounts.of_empty hidentities hsources
  have hhandling' : ∀ entry ∈ reordered, entry.2.job.handling = ⟨true, false⟩ := by
    intro entry hmem
    obtain ⟨other, hother, heq⟩ :=
      List.mem_map.mp (horder.mem_iff.mpr (List.mem_map_of_mem (f := (·.2)) hmem))
    rw [← heq]
    exact hhandling other hother
  have htokens' : (reordered.filterMap (·.2.job.token)).Nodup := by
    have hperm := horder.filterMap (·.job.token)
    rw [List.filterMap_map, List.filterMap_map] at hperm
    exact hperm.nodup_iff.mp htokens
  have hlength : reordered.length = imports.length := by
    rw [← List.length_map (·.2), ← horder.length_eq, List.length_map]
  obtain ⟨deposits, hamounts, hoffers, haccess⟩ := amounts_runInOrder imports hempty hhandling
    htokens (by simpa using hroom)
  obtain ⟨others, hamounts', hoffers', haccess'⟩ := amounts_runInOrder reordered hempty hhandling'
    htokens' (by simpa [hlength] using hroom)
  have hentries : ∀ p : Errand → Prop,
      (∃ entry ∈ imports, p entry.2) ↔ ∃ entry ∈ reordered, p entry.2 := by
    intro p
    have hmem : (∃ errand ∈ imports.map (·.2), p errand) ↔
        ∃ errand ∈ reordered.map (·.2), p errand :=
      exists_congr fun errand => and_congr_left fun _ => horder.mem_iff
    simpa only [List.mem_map, exists_exists_and_eq_and] using hmem
  have hseen : ∀ seen, seen ∈ deposits.map Deposit.seen ↔ seen ∈ others.map Deposit.seen :=
    fun seen => (hoffers seen).trans
      ((hentries fun errand => errand.Offers world seen).trans (hoffers' seen).symm)
  rw [hamounts.contents, hamounts'.contents, haccess, haccess']
  split
  · rfl
  · exact congrArg Except.ok (fileStates_congr hseen)

/-! ## What the catalog depends on -/

/-- The snapshot after a session that goes by the digest depends on the committed imports
alone, of which each makes one deposit: it has one identity for each digest, with the key of
its first deposit, the metadata of its last one, and the sources of distinct states, each as
it was deposited first.

Which file states are known under a digest does not even depend on the order of the
deposits, and if files are kept and nobody else acts, not on the order of the imports.  Of
imports that share a token one at most is committed, so the tokens have to differ there, and
there has to be a number left for each import. -/
theorem Session.contents_determined_by_deposits :
    (∀ (world : World) (call : Call),
      (world.deposits call).map Deposit.label = (world.call call).2.receipts.map Receipt.label) ∧
      (∀ {first last : Session} {deposits : List Deposit}, first.Fresh →
      ExactRun first deposits last → ∀ catalog, last.Holds catalog →
        catalog.contents =
          if catalog.access = .blind then .error (.store (.noTable "identities"))
          else .ok ((ledgerOf deposits).map Identity.asStored)) ∧
      (∀ {first last first' last' : Session} {deposits deposits' : List Deposit},
        first.Fresh → ExactRun first deposits last →
        first'.Fresh → ExactRun first' deposits' last' →
        (deposits.map Deposit.seen).Perm (deposits'.map Deposit.seen) →
        ∀ catalog catalog', last.Holds catalog → last'.Holds catalog' →
          catalog.access = catalog'.access →
          catalog.contents.map fileStates = catalog'.contents.map fileStates) ∧
      ∀ (world : World) (imports reordered : List (Timestamp × Errand)),
        world.catalog.identities = .empty → world.catalog.sources = .empty →
        (imports.map (·.2)).Perm (reordered.map (·.2)) →
        (∀ entry ∈ imports, entry.2.job.handling = ⟨true, false⟩) →
        (imports.filterMap (·.2.job.token)).Nodup → (imports.length : Int) ≤ Table.idLimit →
        (world.runInOrder imports).catalog.contents.map fileStates =
          (world.runInOrder reordered).catalog.contents.map fileStates := by
  refine ⟨World.label_deposits, ?_, ?_, ?_⟩
  · intro first last deposits hfresh hrun catalog hholds
    exact contents_of_exactRun hfresh hrun hholds
  · intro first last first' last' deposits deposits' hfresh hrun hfresh' hrun' hperm
      catalog catalog' hholds hholds' haccess
    rw [contents_of_exactRun hfresh hrun hholds, contents_of_exactRun hfresh' hrun' hholds',
      haccess]
    split
    · rfl
    · exact congrArg Except.ok (fileStates_congr fun seen => hperm.mem_iff)
  · intro world imports reordered hidentities hsources horder hhandling htokens hroom
    exact World.fileStates_runInOrder hidentities hsources horder hhandling htokens hroom

/-- An import of the file `a` that keeps it and goes by the digest. -/
def ImportJob.keeping (route : Route) (token : Option String) : ImportJob where
  path := ⟨[47, 97]⟩
  handling := ⟨true, false⟩
  route := route
  ticket := none
  token := token

/-- Sessions that import one file, with and without having looked for it before, and two
imports of the file in both orders. -/
theorem Session.contents_of_one_file :
    let call : Call := .run Importer.clicking (.keeping .direct (some "t")) .none
    let look : Call := .find Importer.clicking ⟨[47, 97]⟩ false
    let next := (World.withOneFile.call call).1
    let first : Errand := ⟨.clicking, .keeping .direct (some "t")⟩
    let second : Errand := ⟨.clicking, .keeping .deferred none⟩
    next.catalog.contents =
        .ok ((ledgerOf (World.withOneFile.deposits call)).map Identity.asStored) ∧
      next.catalog.contents.map fileStates =
        ((World.withOneFile.call look).1.call call).1.catalog.contents.map fileStates ∧
      (World.withOneFile.runInOrder [(0, first), (1, second)]).catalog.contents.map fileStates =
        (World.withOneFile.runInOrder [(3, second), (5, first)]).catalog.contents.map
          fileStates := by
  intro call look next first second
  obtain ⟨_, hcontents, hperm, horder⟩ := contents_determined_by_deposits
  have hfresh : (opened .exclusive .withOneFile).Fresh := .refl _
  have hrun : ExactRun (opened .exclusive .withOneFile) (World.withOneFile.deposits call)
      (opened .exclusive next) := .call (.start _) call rfl
  have hlook : ExactRun (opened .exclusive .withOneFile) (World.withOneFile.deposits call)
      (opened .exclusive ((World.withOneFile.call look).1.call call).1) :=
    .call (.call (.start _) look trivial) call rfl
  have haccess : next.catalog.access = .full := by
    have hempty : World.withOneFile.catalog.Amounts [] := .of_empty rfl rfl
    have hhandling : first.job.handling = ⟨true, false⟩ := rfl
    obtain ⟨_, _, _, _, hsame⟩ := Errand.amounts_run hempty hhandling (by decide)
    exact hsame.access
  refine ⟨?_, hperm hfresh hrun hfresh hlook (.refl _) _ _ (.refl _) (.refl _) rfl, ?_⟩
  · rw [hcontents hfresh hrun _ (.refl _), haccess]
    exact if_neg (by decide)
  · refine horder _ _ _ rfl rfl (.swap ..) ?_ (by simp [first, second, ImportJob.keeping])
      (by decide)
    intro entry hmem
    simp only [List.mem_cons, List.not_mem_nil, or_false] at hmem
    rcases hmem with rfl | rfl <;> rfl

end AudioCatalog
