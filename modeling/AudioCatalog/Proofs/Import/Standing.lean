import AudioCatalog.Proofs.Catalog.Refusals
import AudioCatalog.Proofs.Import.Orders
import AudioCatalog.Proofs.Import.Writing
import AudioCatalog.Proofs.Session.Writes

/-!
# Decisions that stand

An import decides at its look-up what it will commit, and others may commit before it does.
Its decision stands as long as the identity that it names is there, or, if it names none, as
long as there is no identity of its digest.  Commits of other digests, whatever they decide,
let it stand, and a decision that stands is refused only for what `Catalog.Refuses` tells of.
-/

namespace AudioCatalog

open Relation

/-- Whether what an import of a digest decided to commit can still be written to a catalog. -/
def Resolution.StandsIn (resolution : Resolution) (catalog : Catalog) (digest : Digest) : Prop :=
  match resolution.verdict.matched with
  | some id => catalog.hasIdentity id = true
  | none => catalog.hasDigest digest = false

/-- A decision that has just been taken stands. -/
theorem Catalog.Sound.standsIn_of_identify {catalog : Catalog} (hsound : catalog.Sound)
    {digest : Digest} {key : Option AcousticKey} {careful : Bool} {resolution : Resolution}
    (h : identify digest key catalog.lookup careful = .ok resolution) :
    resolution.StandsIn catalog digest := by
  obtain ⟨ledger, hkeeps, -, -⟩ := hsound
  obtain ⟨-, rfl⟩ := hkeeps.eq_resolutionIn_of_identify h
  rcases matched_resolutionIn ledger digest key careful with
    ⟨identity, hmem, hmatched⟩ | ⟨hmatched, hnew⟩
  · rw [Resolution.StandsIn, hmatched]
    exact (hkeeps.hasIdentity_iff identity.id).mpr ⟨identity, hmem, rfl⟩
  · rw [Resolution.StandsIn, hmatched]
    refine Bool.eq_false_iff.mpr fun hthere => ?_
    obtain ⟨identity, hmem, hsame⟩ := (hkeeps.hasDigest_iff digest).mp hthere
    exact hnew identity hmem hsame

namespace ImportJob

variable {job : ImportJob} {world : World} {decoded : Decoded} {resolution : Resolution}

/-- Why the commit of a decision that stands is refused. -/
theorem refuses_write (htext : job.path.text?.isSome)
    (hstands : resolution.StandsIn world.catalog decoded.digest) {error : Error}
    (h : job.write world decoded resolution = .error error) :
    world.catalog.Refuses job.ticket error := by
  rw [write] at h
  simp only at h
  cases hmatched : resolution.verdict.matched with
  | some id =>
      rw [Resolution.StandsIn, hmatched] at hstands
      rw [hmatched] at h
      exact Catalog.refuses_addSource hstands (map_eq_error_iff.mp h) htext
  | none =>
      rw [Resolution.StandsIn, hmatched] at hstands
      rw [hmatched] at h
      exact Catalog.refuses_addIdentity hstands (map_eq_error_iff.mp h) htext

/-- A decision that stands is committed where the catalog is open and has numbers left. -/
theorem exists_write (htext : job.path.text?.isSome)
    (hstands : resolution.StandsIn world.catalog decoded.digest)
    (hopen : world.catalog.OpenFor job.ticket)
    (hidentities : world.catalog.identities.greatestId < Table.idLimit)
    (hsources : world.catalog.sources.greatestId < Table.idLimit) :
    ∃ written, job.write world decoded resolution = .ok written := by
  obtain ⟨hunlocked, hwritable, hknown⟩ := hopen
  cases hwrite : job.write world decoded resolution with
  | ok written => exact ⟨written, rfl⟩
  | error error =>
      exfalso
      cases refuses_write htext hstands hwrite with
      | locked hlocked =>
          rw [hunlocked] at hlocked
          cases hlocked
      | readOnly hreadOnly => exact hwritable hreadOnly
      | full hfull =>
          rcases hfull with hfull | hfull
          · exact Int.not_le.mpr hidentities hfull
          · exact Int.not_le.mpr hsources hfull
      | unknownTicket hown hunknown =>
          have hthere := hknown _ hown
          rw [hunknown] at hthere
          cases hthere

end ImportJob

/-! ## Commits of others -/

/-- Whether a decision stands depends on the tables only. -/
theorem Resolution.StandsIn.congr {resolution : Resolution} {digest : Digest}
    {catalog next : Catalog} (hstands : resolution.StandsIn catalog digest)
    (hsame : next.SameTables catalog) : resolution.StandsIn next digest := by
  have hidentity : next.hasIdentity = catalog.hasIdentity := by
    funext id
    rw [Catalog.hasIdentity, Catalog.hasIdentity, hsame.identities]
  have hdigest : next.hasDigest = catalog.hasDigest := by
    funext other
    rw [Catalog.hasDigest, Catalog.hasDigest, hsame.identities]
  rw [StandsIn, hidentity, hdigest]
  exact hstands

/-- A commit of another digest leaves a decision standing. -/
theorem Resolution.StandsIn.write {resolution : Resolution} {digest : Digest} {world : World}
    (hstands : resolution.StandsIn world.catalog digest) (hsound : world.catalog.Sound)
    {job : ImportJob} {decoded : Decoded} (hother : decoded.digest ≠ digest)
    {decision : Resolution} {id : IdentityId} {effect : CommitEffect} {catalog : Catalog}
    (h : job.write world decoded decision = .ok (id, effect, catalog)) :
    resolution.StandsIn catalog digest := by
  obtain ⟨ledger, hkeeps, -, -⟩ := hsound
  obtain ⟨-, hwritten⟩ := ImportJob.write_cases hkeeps h
  cases hmatched : resolution.verdict.matched with
  | some matched =>
      rw [StandsIn, hmatched] at hstands ⊢
      obtain ⟨identity, hmem, hid⟩ := (hkeeps.hasIdentity_iff matched).mp hstands
      rcases hwritten with ⟨-, -, -, -, hkept⟩ | ⟨-, -, -, hkept⟩
      · exact (hkept.hasIdentity_iff matched).mpr ⟨identity, List.mem_append_left _ hmem, hid⟩
      · refine (hkept.hasIdentity_iff matched).mpr ⟨_, List.mem_map_of_mem hmem, ?_⟩
        split
        · exact hid
        · exact hid
  | none =>
      rw [StandsIn, hmatched] at hstands ⊢
      refine Bool.eq_false_iff.mpr fun hthere => Bool.eq_false_iff.mp hstands ?_
      rcases hwritten with ⟨-, -, -, -, hkept⟩ | ⟨-, -, -, hkept⟩
      · obtain ⟨identity, hmem, hsame⟩ := (hkept.hasDigest_iff digest).mp hthere
        rcases List.mem_append.mp hmem with hmem | hmem
        · exact (hkeeps.hasDigest_iff digest).mpr ⟨identity, hmem, hsame⟩
        · rw [List.mem_singleton.mp hmem] at hsame
          exact absurd hsame hother
      · obtain ⟨extended, hextended, hsame⟩ := (hkept.hasDigest_iff digest).mp hthere
        obtain ⟨identity, hmem, rfl⟩ := List.mem_map.mp hextended
        refine (hkeeps.hasDigest_iff digest).mpr ⟨identity, hmem, ?_⟩
        split at hsame
        · exact hsame
        · exact hsame

/-- What can happen to a catalog while an import of a digest is between its look-up and its
commit: imports of other digests commit, whatever they have decided, and others hold the lock
of the database or let go of it. -/
inductive Catalog.Beside (digest : Digest) : Catalog → Catalog → Prop
  | commit {job : ImportJob} {world : World} {decoded : Decoded} {decision : Resolution}
      {id : IdentityId} {effect : CommitEffect} {catalog : Catalog}
      (other : decoded.digest ≠ digest)
      (written : job.write world decoded decision = .ok (id, effect, catalog)) :
      Beside digest world.catalog catalog
  | lock (catalog : Catalog) (locked : Bool) :
      Beside digest catalog { catalog with locked := locked }

/-- What a commit leaves as it is. -/
theorem ImportJob.frame_of_write {job : ImportJob} {world : World} (hsound : world.catalog.Sound)
    {decoded : Decoded} {resolution : Resolution} {id : IdentityId} {effect : CommitEffect}
    {catalog : Catalog} (h : job.write world decoded resolution = .ok (id, effect, catalog)) :
    catalog.access = world.catalog.access ∧
      ∀ id, (catalog.tickets.row? id).isSome = (world.catalog.tickets.row? id).isSome := by
  obtain ⟨ledger, hkeeps, -, -⟩ := hsound
  obtain ⟨⟨_, _, rfl⟩, -⟩ := write_cases hkeeps h
  exact ⟨rfl, fun _ => isSome_row?_afterCommit ..⟩

/-- Whatever happens beside an import, its decision stands, and no ticket comes or goes. -/
theorem Resolution.StandsIn.beside {resolution : Resolution} {digest : Digest}
    {catalog later : Catalog} (hsound : catalog.Sound)
    (hstands : resolution.StandsIn catalog digest)
    (hbeside : ReflTransGen (Catalog.Beside digest) catalog later) :
    later.Sound ∧ resolution.StandsIn later digest ∧
      ∀ id, (later.tickets.row? id).isSome = (catalog.tickets.row? id).isSome := by
  induction hbeside with
  | refl => exact ⟨hsound, hstands, fun _ => rfl⟩
  | tail _ hstep ih =>
      obtain ⟨hbefore, hstood, htickets⟩ := ih
      cases hstep with
      | commit hother hwritten =>
          obtain ⟨-, hkept⟩ := ImportJob.frame_of_write hbefore hwritten
          exact ⟨hbefore.write (ImportJob.write_of_write hwritten),
            hstood.write hbefore hother hwritten, fun id => (hkept id).trans (htickets id)⟩
      | lock locked => exact ⟨hbefore.congr rfl rfl rfl, hstood, htickets⟩

end AudioCatalog
