import AudioCatalog.Proofs.Catalog.Soundness
import AudioCatalog.Proofs.Import.Course
import Mathlib.Data.List.Induction

/-!
# What imports deposit

A committed import deposits a recording and a source.  `ledgerOf` says what a sequence of
deposits amounts to if recordings are told apart by their digests alone: the first deposit
of a digest decides on the number, the key and the time of its identity, the last one on the
metadata, and of the sources each counts once, as it was at first.

The ledger of one deposit more is the ledger before it with one entry extended or added.
-/

namespace AudioCatalog

/-- A recording and the source that it was imported from. -/
structure Deposit where
  draft : Draft
  source : Source

namespace Deposit

/-- The deposits of one digest. -/
def ofDigest (deposits : List Deposit) (digest : Digest) : List Deposit :=
  deposits.filter fun deposit => deposit.draft.digest = digest

/-- The distinct digests, in the order of their first deposits. -/
def digests (deposits : List Deposit) : List Digest :=
  (deposits.map (·.draft.digest)).eraseDups

/-- The identity that the deposits of a digest make.  The sources are those of distinct
states, each as it was deposited first. -/
def identity (deposits : List Deposit) (digest : Digest) (number : Nat) : Identity :=
  let own := ofDigest deposits digest
  { id := ⟨number⟩
    digest := digest
    key := own.head?.bind (·.draft.key)
    metadata := (own.getLast?.map (·.draft.metadata)).getD .empty
    createdAt := (own.head?.map (·.source.importedAt)).getD 0
    sources := (own.map (·.source)).eraseDupsBy Source.sameState }

/-- The ledger that the deposits make: one identity for each digest, numbered from one. -/
def ledgerOf (deposits : List Deposit) : List Identity :=
  (digests deposits).mapIdx fun index digest => identity deposits digest (index + 1)

/-! ## One deposit more -/

/-- One source more counts unless one of the same state does. -/
theorem eraseDupsBy_append_singleton (sources : List Source) (source : Source) :
    (sources ++ [source]).eraseDupsBy Source.sameState =
      source.addTo (sources.eraseDupsBy Source.sameState) := by
  induction hlength : sources.length using Nat.strongRecOn generalizing sources with
  | ind n ih =>
      cases sources with
      | nil => rfl
      | cons first rest =>
          have hrest := ih _ (by
              rw [← hlength, List.length_cons]
              exact Nat.lt_succ_of_le (List.length_filter_le _ _))
            (rest.filter fun other => other.sameState first = false) rfl
          rw [List.cons_append, List.eraseDupsBy_cons, List.eraseDupsBy_cons, List.filter_append]
          by_cases hsame : source.sameState first = true
          · have hsame' : first.sameState source = true := by rwa [Source.sameState_comm]
            rw [List.filter_cons_of_neg (by simp [hsame]), List.filter_nil, List.append_nil,
              Source.addTo, List.any_cons, hsame', Bool.true_or, if_pos rfl]
          · have hdiffers : first.sameState source = false := by
              rw [Source.sameState_comm]
              exact Bool.eq_false_iff.mpr hsame
            rw [List.filter_cons_of_pos (by simpa using hsame), List.filter_nil, hrest]
            simp only [Source.addTo, List.any_cons, hdiffers, Bool.false_or]
            split <;> rfl

theorem ofDigest_append_self (deposits : List Deposit) (deposit : Deposit) :
    ofDigest (deposits ++ [deposit]) deposit.draft.digest =
      ofDigest deposits deposit.draft.digest ++ [deposit] := by
  simp [ofDigest, List.filter_append]

theorem ofDigest_append_of_ne (deposits : List Deposit) {deposit : Deposit} {digest : Digest}
    (hne : deposit.draft.digest ≠ digest) :
    ofDigest (deposits ++ [deposit]) digest = ofDigest deposits digest := by
  simp [ofDigest, List.filter_append, hne]

theorem identity_append_of_ne (deposits : List Deposit) {deposit : Deposit} {digest : Digest}
    (hne : deposit.draft.digest ≠ digest) (number : Nat) :
    identity (deposits ++ [deposit]) digest number = identity deposits digest number := by
  simp only [identity, ofDigest_append_of_ne deposits hne]

/-- A deposit of a digest that was there extends the identity. -/
theorem identity_append_self (deposits : List Deposit) (deposit : Deposit) (number : Nat)
    (hthere : ofDigest deposits deposit.draft.digest ≠ []) :
    identity (deposits ++ [deposit]) deposit.draft.digest number =
      (identity deposits deposit.draft.digest number).extended deposit.source
        (some deposit.draft.metadata) := by
  obtain ⟨first, rest, hfirst⟩ := List.exists_cons_of_ne_nil hthere
  have hsources := eraseDupsBy_append_singleton
    ((ofDigest deposits deposit.draft.digest).map (·.source)) deposit.source
  simp only [identity, Identity.extended, ofDigest_append_self, List.map_append, List.map_singleton,
    hsources, List.getLast?_concat]
  simp [hfirst]

/-- The first deposit of a digest makes a new identity. -/
theorem identity_append_new (deposits : List Deposit) (deposit : Deposit) (number : Nat)
    (hnew : ofDigest deposits deposit.draft.digest = []) :
    identity (deposits ++ [deposit]) deposit.draft.digest number =
      deposit.draft.entry ⟨number⟩ [deposit.source] deposit.source.importedAt := by
  simp only [identity, ofDigest_append_self, hnew, Draft.entry]
  rfl

theorem mem_digests_iff {deposits : List Deposit} {digest : Digest} :
    digest ∈ digests deposits ↔ ofDigest deposits digest ≠ [] := by
  rw [digests, List.mem_eraseDups, List.mem_map, ofDigest, Ne, List.filter_eq_nil_iff]
  simp

theorem digests_append_of_mem {deposits : List Deposit} {deposit : Deposit}
    (hmem : deposit.draft.digest ∈ digests deposits) :
    digests (deposits ++ [deposit]) = digests deposits := by
  have hthere : deposit.draft.digest ∈ deposits.map (·.draft.digest) := List.mem_eraseDups.mp hmem
  rw [digests, List.map_append, List.eraseDups_append, List.map_singleton, List.removeAll,
    List.filter_cons_of_neg (by simpa using hthere)]
  exact List.append_nil _

theorem digests_append_of_not_mem {deposits : List Deposit} {deposit : Deposit}
    (hmem : deposit.draft.digest ∉ digests deposits) :
    digests (deposits ++ [deposit]) = digests deposits ++ [deposit.draft.digest] := by
  have hnew : deposit.draft.digest ∉ deposits.map (·.draft.digest) :=
    fun h => hmem (List.mem_eraseDups.mpr h)
  rw [digests, List.map_append, List.eraseDups_append, List.map_singleton, List.removeAll,
    List.filter_cons_of_pos (by simpa using hnew)]
  rfl

/-- A deposit of a known digest extends its entry. -/
theorem ledgerOf_append_of_mem {deposits : List Deposit} {deposit : Deposit}
    (hmem : deposit.draft.digest ∈ digests deposits) :
    ledgerOf (deposits ++ [deposit]) = (ledgerOf deposits).map fun identity =>
      if identity.digest = deposit.draft.digest then
        identity.extended deposit.source (some deposit.draft.metadata)
      else identity := by
  rw [ledgerOf, ledgerOf, digests_append_of_mem hmem]
  apply List.mapIdx_eq_iff.mpr
  intro index
  rw [List.getElem?_map, List.getElem?_mapIdx, Option.map_map]
  apply Option.map_congr
  intro digest _
  simp only [Function.comp_apply]
  by_cases hdigest : deposit.draft.digest = digest
  · rw [← hdigest, identity_append_self deposits deposit _ (mem_digests_iff.mp hmem)]
    exact if_pos rfl
  · rw [identity_append_of_ne deposits hdigest]
    exact if_neg (Ne.symm hdigest)

/-- A deposit of a digest that was not there adds an entry. -/
theorem ledgerOf_append_of_not_mem {deposits : List Deposit} {deposit : Deposit}
    (hmem : deposit.draft.digest ∉ digests deposits) :
    ledgerOf (deposits ++ [deposit]) = ledgerOf deposits ++
      [deposit.draft.entry ⟨(ledgerOf deposits).length + 1⟩ [deposit.source]
        deposit.source.importedAt] := by
  have hnew : ofDigest deposits deposit.draft.digest = [] :=
    Decidable.not_not.mp fun h => hmem (mem_digests_iff.mpr h)
  rw [ledgerOf, digests_append_of_not_mem hmem, List.mapIdx_concat, identity_append_new deposits
    deposit _ hnew]
  congr 1
  · refine List.mapIdx_eq_mapIdx_iff.mpr fun index hindex => ?_
    refine identity_append_of_ne deposits ?_ _
    rintro heq
    exact hmem (heq ▸ List.getElem_mem hindex)
  · simp [ledgerOf]

theorem length_ledgerOf_le (deposits : List Deposit) :
    (ledgerOf deposits).length ≤ deposits.length := by
  induction deposits using List.reverseRecOn with
  | nil => exact Nat.le_refl 0
  | append_singleton deposits deposit ih =>
      rw [List.length_append, List.length_singleton]
      by_cases hmem : deposit.draft.digest ∈ digests deposits
      · rw [ledgerOf_append_of_mem hmem, List.length_map]
        exact Nat.le_succ_of_le ih
      · rw [ledgerOf_append_of_not_mem hmem, List.length_append, List.length_singleton]
        exact Nat.succ_le_succ ih

/-! ## Entries of the ledger -/

theorem map_digest_ledgerOf (deposits : List Deposit) :
    (ledgerOf deposits).map (·.digest) = digests deposits := by
  apply List.ext_getElem?
  intro index
  rw [ledgerOf, List.getElem?_map, List.getElem?_mapIdx, Option.map_map]
  exact Option.map_id'

theorem nodup_digests (deposits : List Deposit) : (digests deposits).Nodup := by
  induction deposits using List.reverseRecOn with
  | nil => exact List.nodup_nil
  | append_singleton deposits deposit ih =>
      by_cases hmem : deposit.draft.digest ∈ digests deposits
      · rw [digests_append_of_mem hmem]
        exact ih
      · rw [digests_append_of_not_mem hmem]
        exact List.nodup_append.mpr ⟨ih, List.nodup_singleton _, by
          rintro digest hdigest _ hself rfl
          rw [List.mem_singleton.mp hself] at hdigest
          exact hmem hdigest⟩

/-- Entries are told apart by their digests. -/
theorem eq_of_digest_eq {deposits : List Deposit} {a b : Identity} (ha : a ∈ ledgerOf deposits)
    (hb : b ∈ ledgerOf deposits) (hdigest : a.digest = b.digest) : a = b := by
  have hnodup : ((ledgerOf deposits).map (·.digest)).Nodup := by
    rw [map_digest_ledgerOf]
    exact nodup_digests deposits
  exact List.inj_on_of_nodup_map hnodup ha hb hdigest

/-- The entry of a digest, if there is one. -/
def entryOf? (deposits : List Deposit) (digest : Digest) : Option Identity :=
  (ledgerOf deposits).find? fun identity => identity.digest = digest

theorem entryOf?_eq_some {deposits : List Deposit} {digest : Digest} {identity : Identity}
    (h : entryOf? deposits digest = some identity) :
    identity ∈ ledgerOf deposits ∧ identity.digest = digest :=
  ⟨List.mem_of_find?_eq_some h, by simpa using List.find?_some h⟩

theorem entryOf?_eq_none {deposits : List Deposit} {digest : Digest}
    (h : entryOf? deposits digest = none) : digest ∉ digests deposits := by
  rw [← map_digest_ledgerOf]
  intro hmem
  obtain ⟨identity, hidentity, rfl⟩ := List.mem_map.mp hmem
  simpa using List.find?_eq_none.mp h identity hidentity

end Deposit

/-! ## Catalogs that hold deposits -/

open Deposit (ledgerOf entryOf?)

/-- What an import deposits if it is committed now. -/
def ImportJob.deposit (job : ImportJob) (decoded : Decoded) (now : Timestamp) : Deposit where
  draft := ⟨decoded.digest, decoded.key, decoded.metadata⟩
  source := Source.ofFile job.path decoded.facts job.handling.keepFile job.route now

/-- Whether a catalog holds what some deposits amount to.  A deposit uses up one number of a
source, also if there is no new source in it. -/
structure Catalog.Amounts (catalog : Catalog) (deposits : List Deposit) : Prop where
  keeps : catalog.Keeps (ledgerOf deposits)
  identities : catalog.identities.greatestId = (ledgerOf deposits).length
  sources : catalog.sources.greatestId = deposits.length

namespace Catalog.Amounts

variable {catalog next : Catalog} {deposits : List Deposit}

theorem of_empty (hidentities : catalog.identities = .empty) (hsources : catalog.sources = .empty) :
    catalog.Amounts [] where
  keeps := {
    identities := by rw [hidentities]; rfl
    sources := fun identity hmem => by cases hmem
    owned := by
      rw [hsources]
      intro row hrow
      cases hrow
    textual := fun identity hmem => by cases hmem }
  identities := by rw [hidentities]; rfl
  sources := by rw [hsources]; rfl

theorem congr (hamounts : catalog.Amounts deposits)
    (hidentities : next.identities = catalog.identities)
    (hsources : next.sources = catalog.sources) : next.Amounts deposits where
  keeps := hamounts.keeps.congr (by rw [hidentities]) (by rw [hsources])
  identities := by rw [hidentities, hamounts.identities]
  sources := by rw [hsources, hamounts.sources]

/-- The snapshot of the catalog is determined by the deposits. -/
theorem contents (hamounts : catalog.Amounts deposits) :
    catalog.contents = if catalog.access = .blind then .error (.store (.noTable "identities"))
      else .ok ((ledgerOf deposits).map Identity.asStored) := by
  rw [hamounts.keeps.contents, demandVisible]
  split <;> rfl

/-- If digests alone are compared, the identity of the same digest is found, wherever
look-ups see anything. -/
theorem identify (hamounts : catalog.Amounts deposits) (digest : Digest)
    (key : Option AcousticKey) :
    AudioCatalog.identify digest key catalog.lookup false =
      if catalog.access = .blind then .error (.store (.noTable "identities"))
      else .ok ⟨((entryOf? deposits digest).map (·.id)).elim .new .exact, false⟩ := by
  have hlookup : catalog.lookup.byDigest digest =
      if catalog.access = .blind then .error (.store (.noTable "identities"))
      else .ok (((entryOf? deposits digest).map Identity.asStored).map (·.toKnown)) := by
    simp only [Catalog.lookup, hamounts.keeps.byDigest, demandVisible]
    split <;> rfl
  rw [AudioCatalog.identify.eq_def, hlookup]
  split
  · rfl
  · cases entryOf? deposits digest <;> rfl

/-- Extending the entry of a digest is extending the entry of its number. -/
theorem extendEntry_eq (hamounts : catalog.Amounts deposits) {identity : Identity}
    (hmem : identity ∈ ledgerOf deposits) (source : Source) (metadata : Option Metadata) :
    extendEntry (ledgerOf deposits) identity.id source metadata =
      (ledgerOf deposits).map fun other =>
        if other.digest = identity.digest then other.extended source metadata else other := by
  apply List.map_congr_left
  intro other hother
  by_cases hdigest : other.digest = identity.digest
  · rw [if_pos hdigest, if_pos (congrArg (·.id) (Deposit.eq_of_digest_eq hother hmem hdigest))]
  · rw [if_neg hdigest, if_neg]
    exact fun hid => hdigest (congrArg (·.digest) (hamounts.keeps.eq_of_id_eq hother hmem hid))

/-- A commit that goes by the digest adds its deposit. -/
theorem write {world : World} (hamounts : world.catalog.Amounts deposits) {job : ImportJob}
    {decoded : Decoded} {resolution : Resolution}
    (hmatched : resolution.verdict.matched = (entryOf? deposits decoded.digest).map (·.id))
    {id : IdentityId} {effect : CommitEffect}
    (h : job.write world decoded resolution = .ok (id, effect, next)) :
    next.Amounts (deposits ++ [job.deposit decoded world.now]) := by
  rw [ImportJob.write, hmatched] at h
  cases hentry : entryOf? deposits decoded.digest with
  | some identity =>
      obtain ⟨hmem, hdigest⟩ := Deposit.entryOf?_eq_some hentry
      have hold : decoded.digest ∈ Deposit.digests deposits := by
        rw [← Deposit.map_digest_ledgerOf, ← hdigest]
        exact List.mem_map_of_mem hmem
      rw [hentry] at h
      obtain ⟨added, hadded, h⟩ := map_eq_ok_iff.mp h
      cases h
      obtain ⟨_, _, ⟨_, _, rfl, hidentities, hsources⟩, hkept⟩ := hamounts.keeps.addSource hadded
      rw [hamounts.extendEntry_eq hmem, hdigest] at hkept
      have hledger := @Deposit.ledgerOf_append_of_mem deposits (job.deposit decoded world.now) hold
      refine ⟨hledger ▸ hkept, ?_, ?_⟩
      · rw [hledger, List.length_map, ← hamounts.identities]
        exact hidentities
      · rw [List.length_append, List.length_singleton]
        push_cast
        rw [← hamounts.sources]
        exact hsources
  | none =>
      have hnew := Deposit.entryOf?_eq_none hentry
      rw [hentry] at h
      obtain ⟨⟨number, added⟩, hadded, h⟩ := map_eq_ok_iff.mp h
      cases h
      obtain ⟨_, _, hnumber, ⟨_, _, rfl, hidentities, hsources⟩, hkept⟩ :=
        hamounts.keeps.addIdentity hadded
      obtain rfl : id = ⟨((ledgerOf deposits).length : Int) + 1⟩ := by
        rw [← hamounts.identities, ← hnumber]
      have hledger :=
        @Deposit.ledgerOf_append_of_not_mem deposits (job.deposit decoded world.now) hnew
      refine ⟨?_, ?_, ?_⟩
      · rw [hledger]
        exact hkept
      · rw [hledger, List.length_append, List.length_singleton]
        exact hidentities
      · rw [List.length_append, List.length_singleton]
        push_cast
        rw [← hamounts.sources]
        exact hsources

end Catalog.Amounts

end AudioCatalog
